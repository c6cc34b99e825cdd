import Templating.Library
import Templating.Proofs.Control.Weight
import Templating.Proofs.Document.Runs

namespace Templating

theorem Represents.aligned {s : State} {control : Control} (represents : Represents s control)
    (linked : Linked s.nodes) : control.Aligned := by
  cases represents with
  | scanning _ _ situated => exact (linked.sound situated.here).boundary
  | outer | entered | done => exact trivial

/-- As long as there is something left to do, the stack has lost as much weight as there were steps. -/
theorem Document.Made.weight_run {d : Document} {load : Loader} {paths : List Path} {longest : Nat}
    (made : d.Made) (within : load.Within paths longest) (n : Nat) :
    ((Control.outer [] d.page).run d.setting load n).2 = .done ∨
      ((Control.outer [] d.page).run d.setting load n).2.weight paths longest + n ≤
        (Control.outer [] d.page).weight paths longest := by
  induction n with
  | zero => exact .inr (Nat.le_refl _)
  | succ n ih =>
    obtain ⟨linked, represents, _⟩ := made.follows load n
    rw [Control.run_succ_last]
    by_cases reached : ((Control.outer [] d.page).run d.setting load n).2 = .done
    · rw [reached]
      exact .inl rfl
    · have lighter := (Control.stepping_step ..).weight_lt within made.layouts (represents.aligned linked) reached
      have bound := ih.resolve_left reached
      refine .inr ?_
      dsimp only
      omega

theorem cost_lt_pow (longest b : Nat) : cost longest b < Nat.pow (longest + 2) (b + 1) := by
  induction b with
  | zero => exact Nat.pow_pos (Nat.succ_pos _)
  | succ b ih =>
    have two : 2 ≤ Nat.pow (longest + 2) (b + 1) :=
      Nat.le_trans (Nat.le_add_left 2 longest) (Nat.le_self_pow (Nat.succ_ne_zero b) _)
    have scaled := Nat.mul_le_mul_left (longest + 1) (Nat.succ_le_of_lt ih)
    calc cost longest (b + 1)
        = 1 + (longest + 1) * (cost longest b + 1) := by rw [cost, Nat.add_comm 1 (cost longest b)]
      _ ≤ 1 + (longest + 1) * Nat.pow (longest + 2) (b + 1) := Nat.add_le_add_left scaled 1
      _ < (longest + 1) * Nat.pow (longest + 2) (b + 1) + Nat.pow (longest + 2) (b + 1) := by omega
      _ = (longest + 2) * Nat.pow (longest + 2) (b + 1) := (Nat.add_one_mul _ _).symm
      _ = Nat.pow (longest + 2) (b + 1 + 1) := Nat.mul_comm _ _

theorem le_longest (texts : List String) (n : Nat) : n ≤ texts.foldl (fun n text => max n text.length) n := by
  induction texts generalizing n with
  | nil => exact Nat.le_refl n
  | cons text texts ih => exact Nat.le_trans (Nat.le_max_left ..) (ih _)

theorem length_le_longest {text : String} {texts : List String} (member : text ∈ texts) (n : Nat) :
    text.length ≤ texts.foldl (fun n text => max n text.length) n := by
  induction texts generalizing n with
  | nil => cases member
  | cons first texts ih =>
    rcases List.mem_cons.mp member with rfl | later
    · exact Nat.le_trans (Nat.le_max_right ..) (le_longest texts _)
    · exact ih later _

theorem layer_lt_pow (paths : List Path) (longest : Nat) :
    layer paths longest < Nat.pow (longest + 2) (paths.length + 2) := by
  have bound := Nat.mul_le_mul_left (longest + 1) (Nat.succ_le_of_lt (cost_lt_pow longest paths.length))
  have positive : 0 < Nat.pow (longest + 2) (paths.length + 1) := Nat.pow_pos (Nat.succ_pos _)
  calc layer paths longest
      = (longest + 1) * (cost longest paths.length + 1) := by rw [layer, Nat.add_comm 1]
    _ ≤ (longest + 1) * Nat.pow (longest + 2) (paths.length + 1) := bound
    _ < (longest + 2) * Nat.pow (longest + 2) (paths.length + 1) :=
        Nat.mul_lt_mul_of_pos_right (Nat.lt_succ_self _) positive
    _ = Nat.pow (longest + 2) (paths.length + 2) := Nat.mul_comm _ _

/-- A page with nothing around it weighs less than the number of moves that is enough for the texts. -/
theorem weight_lt_moves {d : Document} {texts : List String} {paths : List Path}
    (same : paths.length = texts.length) :
    (Control.outer [] d.page).weight paths ((d.page.source :: texts).foldl (fun n text => max n text.length) 0) <
      d.moves texts := by
  unfold Document.moves
  generalize long : (d.page.source :: texts).foldl (fun n text => max n text.length) 0 = longest
  have short : d.page.source.length ≤ longest := long ▸ length_le_longest List.mem_cons_self 0
  have page : d.page.weight paths longest ≤ layer paths longest :=
    Nat.mul_le_mul_right _ (Nat.succ_le_succ short)
  have spared := Nat.mul_le_mul_right (layer paths longest + 1) (spare_le paths [d.page.src])
  have positive : 0 < Nat.pow (longest + 2) (paths.length + 2) := Nat.pow_pos (Nat.succ_pos _)
  calc (Control.outer [] d.page).weight paths longest
      = spare paths [d.page.src] * (layer paths longest + 1) + 1 + d.page.weight paths longest := rfl
    _ ≤ paths.length * (layer paths longest + 1) + (layer paths longest + 1) := by omega
    _ = (paths.length + 1) * (layer paths longest + 1) := (Nat.add_one_mul _ _).symm
    _ ≤ (paths.length + 1) * Nat.pow (longest + 2) (paths.length + 2) :=
        Nat.mul_le_mul_left _ (layer_lt_pow paths longest)
    _ < (paths.length + 2) * Nat.pow (longest + 2) (paths.length + 2) :=
        Nat.mul_lt_mul_of_pos_right (Nat.lt_succ_self _) positive
    _ ≤ (paths.length + 2) * Nat.pow (longest + 2) (paths.length + 3) :=
        Nat.mul_le_mul_left _ (Nat.pow_le_pow_right (Nat.succ_pos _) (Nat.le_succ _))
    _ = (texts.length + 2) * Nat.pow (longest + 2) (texts.length + 3) := by rw [same]

/-- What texts in memory hold lies among their paths, and no text is longer than the longest of them. -/
theorem Library.within (l : Library) (page : String) :
    l.load.Within (l.texts.map Prod.fst)
      ((page :: l.texts.map Prod.snd).foldl (fun n text => max n text.length) 0) := by
  intro path source canonical loaded
  rw [Library.load, canonical] at loaded
  split at loaded
  next text found =>
    cases loaded
    obtain ⟨before, after, split, _⟩ := List.lookup_eq_some_iff.mp found
    have member : (path, source) ∈ l.texts := by simp [split]
    have text : source ∈ l.texts.map Prod.snd := List.mem_map.mpr ⟨_, member, rfl⟩
    exact ⟨List.mem_map.mpr ⟨_, member, rfl⟩, length_le_longest (List.mem_cons_of_mem page text) 0⟩
  next => cases loaded

/-- Every document comes to an end with texts in memory, in the number of moves that is enough for them. That the
texts ask for each other, or for themselves, is not excluded. -/
theorem Composer.exists_run? {c : Composer} {src : Path} {source : String} {d : Document}
    (made : c.document src source = .ok d) (l : Library) :
    ∃ r, d.run? l.load (d.moves (l.texts.map Prod.snd)) = some r := by
  have made := c.made made
  have same : (l.texts.map Prod.fst).length = (l.texts.map Prod.snd).length := by
    rw [List.length_map, List.length_map]
  rcases made.weight_run (l.within d.page.source) (d.moves (l.texts.map Prod.snd)) with reached | lost
  · exact ⟨_, made.run?_iff.mpr (Prod.ext rfl reached)⟩
  · have light := weight_lt_moves (d := d) same
    omega

/-- Two texts that include each other. -/
def Library.circle : Library :=
  (Library.empty.insert ⟨"site/a.html"⟩ "<!-- include(b.html) -->").insert ⟨"site/b.html"⟩
    "<!-- include(a.html) -->"

theorem Composer.exists_run?_circle :
    ∃ d, plain.document ⟨"page.html"⟩ "<!-- include(a.html) -->" = .ok d ∧
      ∃ r, d.run? Library.circle.load (d.moves (Library.circle.texts.map Prod.snd)) = some r := by
  have made : plain.document ⟨"page.html"⟩ "<!-- include(a.html) -->" = .ok _ := if_neg (by decide)
  exact ⟨_, made, exists_run? made Library.circle⟩

end Templating
