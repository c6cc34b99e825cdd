import Templating.Proofs.Files.Laid
import Templating.Proofs.Project.Actions

namespace Templating

theorem Path.length_segments_le (cs : List Char) : (segments cs).length ≤ cs.length + 1 := by
  induction cs with
  | nil => exact Nat.le_refl 1
  | cons c cs ih =>
    rw [segments]
    split
    next => simp
    next first more split =>
      rw [split] at ih
      split
      next => simpa using ih
      next => simpa using Nat.le_succ_of_le ih

theorem Path.length_le_length_text {loc : Location} (named : loc.Named) : loc.length ≤ (ofLocation loc).text.length := by
  have count := length_segments_le (ofLocation loc).text.toList
  rw [segments_ofLocation named, List.length_cons, String.length_toList] at count
  split at count
  next root =>
    rw [root]
    exact Nat.zero_le _
  next =>
    rw [List.length_map] at count
    omega

namespace World
open Workspace

variable {w w' v : World} {loc above source : Location} {name : String} {bytes : List UInt8}

/-- The workspace after a change of its files alone. -/
def withTree (w : World) (t : FileTree) : World := { w with tree := t }

theorem run_log_ok (w : World) (entry : LogEntry) : ∃ v, (log entry : Action Unit).run w = .ok () v ∧ SameFiles w v :=
  ⟨_, rfl, rfl, rfl⟩

theorem exists_run_logs {α : Type} (entry : α → LogEntry) (items : List α) (w : World) :
    ∃ v, (items.forM fun item => log (entry item) : Action Unit).run w = .ok () v ∧ SameFiles w v := by
  induction items generalizing w with
  | nil => exact ⟨w, rfl, .refl w⟩
  | cons item items ih =>
    obtain ⟨v, first, same⟩ := run_log_ok w (entry item)
    obtain ⟨u, rest, same'⟩ := ih v
    refine ⟨u, ?_, same.trans same'⟩
    change ((log (entry item) : Action Unit) >>= fun _ => items.forM fun item => log (entry item)).run w = _
    exact run_bind_ok.mpr ⟨(), v, first, rest⟩

theorem run_change_ok {f : World → Except FileError FileTree} {failure : FileError → Failure} :
    (change f >>= orFail failure : Action Unit).run w = .ok () w' ↔
      ∃ t, f w = .ok t ∧ w' = w.withTree t := by
  rw [EStateM.run_bind]
  cases changed : f w with
  | ok t =>
    rw [run_change_of_ok changed]
    constructor
    · intro ran
      cases ran
      exact ⟨t, rfl, rfl⟩
    · rintro ⟨t', same, rfl⟩
      cases same
      rfl
  | error e =>
    rw [run_change_of_error changed]
    constructor
    · intro ran
      cases ran
    · rintro ⟨t', same, rfl⟩
      cases same

/-- The directory of a file is made with as many attempts as its path has characters, which are more than enough. -/
theorem run_makeParent_ok (named : (above ++ [name]).Named) :
    (makeParent (.ofLocation (above ++ [name])) : Action Unit).run w = .ok () w' ↔
      ∃ t, FileTree.makeDirectories w.here ((Path.ofLocation above).text.length + 1) w.tree (.ofLocation above) =
        (.ok (), t) ∧ w' = w.withTree t := by
  have ran : (makeDirectories (.ofLocation above) : Action (Except FileError Unit)).run w =
      .ok (FileTree.makeDirectories w.here ((Path.ofLocation above).text.length + 1) w.tree (.ofLocation above)).1
        (w.withTree
          (FileTree.makeDirectories w.here ((Path.ofLocation above).text.length + 1) w.tree (.ofLocation above)).2) :=
    rfl
  rw [makeParent, Path.parent?_ofLocation named]
  dsimp only
  rw [run_bind_ok, ran]
  generalize FileTree.makeDirectories w.here ((Path.ofLocation above).text.length + 1) w.tree (.ofLocation above) = made
  obtain ⟨result, t⟩ := made
  constructor
  · rintro ⟨r, v, ran, finished⟩
    cases ran
    obtain ⟨rfl, rfl⟩ := run_orFail_ok.mp finished
    exact ⟨t, rfl, rfl⟩
  · rintro ⟨t', same, rfl⟩
    cases same
    exact ⟨_, _, rfl, run_orFail_ok.mpr ⟨rfl, rfl⟩⟩

/-- What puts some bytes at a location, once the directory is there. -/
def Puts (act : Action Unit) (w : World) (above : Location) (name : String) (bytes : List UInt8) : Prop :=
  ∀ t, w.tree.Clear above → w.tree.Paved t above → ∀ w', act.run (w.withTree t) = .ok () w' ↔
    ∃ t', t.write w.here (.ofLocation (above ++ [name])) bytes = .ok t' ∧ w' = w.withTree t'

/-- The action leaves a file behind, and succeeds exactly if the place can receive one. -/
structure Lays {α : Type} (act : Action α) (w : World) (a : α) (loc : Location) (bytes : List UInt8) : Prop where
  effect : ∀ a' w', act.run w = .ok a' w' →
    a' = a ∧ w.tree.Receives loc ∧ w.tree.Placed w'.tree loc bytes ∧ w'.here = w.here
  possible : w.tree.Receives loc → ∃ a' w', act.run w = .ok a' w'

section Sequences
variable {α β : Type} {a : α} {b : β}

theorem Lays.before {first : Action β} {act : β → Action α} (ran : first.run w = .ok b v) (same : SameFiles w v)
    (lays : Lays (act b) v a loc bytes) : Lays (first >>= act) w a loc bytes := by
  obtain ⟨tree, here⟩ := same
  obtain ⟨effect, possible⟩ := lays
  rw [tree, here] at effect
  rw [tree] at possible
  constructor
  · intro a' w' finished
    obtain ⟨b', v', ran', rest⟩ := run_bind_ok.mp finished
    cases ran.symm.trans ran'
    exact effect a' w' rest
  · intro receives
    obtain ⟨a', w', rest⟩ := possible receives
    exact ⟨a', w', run_bind_ok.mpr ⟨b, v, ran, rest⟩⟩

theorem Lays.giving {act : Action β} (lays : Lays act w b loc bytes) (a : α) :
    Lays (act >>= fun _ => pure a) w a loc bytes := by
  constructor
  · intro a' w' finished
    obtain ⟨b', v, ran, rest⟩ := run_bind_ok.mp finished
    obtain ⟨same, rfl⟩ := run_pure_ok.mp rest
    exact ⟨same.symm, (lays.effect b' v ran).2⟩
  · intro receives
    obtain ⟨b', v, ran⟩ := lays.possible receives
    exact ⟨a, v, run_bind_ok.mpr ⟨b', v, ran, run_pure_ok.mpr ⟨rfl, rfl⟩⟩⟩

end Sequences

/-- What puts bytes at a location leaves a file behind, once the directory of the location is made. -/
theorem lays_of_puts {act : Action Unit} (sound : w.tree.Sound) (named : (above ++ [name]).Named)
    (puts : Puts act w above name bytes) :
    Lays (makeParent (.ofLocation (above ++ [name])) >>= fun _ => act) w () (above ++ [name]) bytes := by
  have namedAbove := (Location.named_concat.mp named).1
  have enough := Nat.lt_succ_of_le (Path.length_le_length_text namedAbove)
  have paves : w.tree.Paves above (FileTree.makeDirectories w.here ((Path.ofLocation above).text.length + 1) w.tree _) :=
    FileTree.paves_makeDirectories sound namedAbove enough
  constructor
  · intro _ w' ran
    obtain ⟨_, v, parent, acted⟩ := run_bind_ok.mp ran
    obtain ⟨t, made, rfl⟩ := (run_makeParent_ok named).mp parent
    rw [made] at paves
    obtain ⟨_, clear, paved⟩ := paves.effect rfl
    obtain ⟨t', wrote, rfl⟩ := (puts t clear paved w').mp acted
    obtain ⟨fits, _, free, rfl⟩ := (FileTree.write_ok_iff named).mp wrote
    rw [paved.entry?_below] at free
    exact ⟨rfl, FileTree.receives_concat_iff.mpr ⟨fits, clear, free⟩, paved.placed named free, rfl⟩
  · intro receives
    obtain ⟨fits, clear, free⟩ := FileTree.receives_concat_iff.mp receives
    have made := paves.possible (fits.of_prefix named (List.prefix_append ..)) clear
    have effect := paves.effect made
    generalize same : FileTree.makeDirectories w.here ((Path.ofLocation above).text.length + 1) w.tree
      (.ofLocation above) = outcome at made effect
    obtain ⟨result, t⟩ := outcome
    cases made
    have paved := effect.2.2
    have opens : t.Opens (above ++ [name]) := FileTree.opens_concat_iff.mpr fun l higher => by
      rw [paved.entries, if_pos higher]
    have wrote : t.write w.here (.ofLocation (above ++ [name])) bytes = .ok _ :=
      (FileTree.write_ok_iff named).mpr ⟨fits, opens, by rwa [paved.entry?_below], rfl⟩
    exact ⟨(), _, run_bind_ok.mpr ⟨(), _, (run_makeParent_ok named).mpr ⟨t, same, rfl⟩,
      (puts t clear paved _).mpr ⟨_, wrote, rfl⟩⟩⟩

/-- Writing a result leaves its text behind, and succeeds exactly if the place can receive a file. -/
theorem lays_writeOutput (sound : w.tree.Sound) (named : loc.Named) (inner : loc ≠ []) (text : String) :
    Lays (writeOutput (.ofLocation loc) text) w () loc (Utf8.encode text) := by
  rcases List.eq_nil_or_concat loc with rfl | ⟨above, name, rfl⟩
  · exact absurd rfl inner
  rw [List.concat_eq_append] at named ⊢
  exact lays_of_puts sound named fun _ _ _ _ => run_change_ok

theorem puts_copyFile (namedSource : source.Named) (fits : source.Fits) (there : w.tree.entry? source = some (.file bytes))
    (above : Location) (name : String) (failure : FileError → Failure) :
    Puts (copyFile (.ofLocation source) (.ofLocation (above ++ [name])) >>= orFail failure) w above name bytes := by
  intro t clear paved w'
  have outside : ¬source <+: above := fun higher => clear source bytes higher there
  have read : t.read w.here (.ofLocation source) = .ok bytes := by
    rw [paved.sound.read_ok_iff namedSource, paved.entries, if_neg outside]
    exact ⟨fits, there⟩
  have copied : (w.withTree t).tree.copy (w.withTree t).here (.ofLocation source) (.ofLocation (above ++ [name])) =
      t.write w.here (.ofLocation (above ++ [name])) bytes := by
    change (t.read w.here (.ofLocation source)).bind _ = _
    rw [read]
    rfl
  refine run_change_ok.trans ?_
  rw [copied]
  rfl

/-- Copying a file that is there leaves its bytes behind, and succeeds exactly if the place can receive a file. -/
theorem lays_copy (sound : w.tree.Sound) (named : loc.Named) (inner : loc ≠ []) (namedSource : source.Named)
    (fits : source.Fits) (there : w.tree.entry? source = some (.file bytes)) (failure : FileError → Failure) :
    Lays (makeParent (.ofLocation loc) >>= fun _ =>
      copyFile (.ofLocation source) (.ofLocation loc) >>= orFail failure) w () loc bytes := by
  rcases List.eq_nil_or_concat loc with rfl | ⟨above, name, rfl⟩
  · exact absurd rfl inner
  rw [List.concat_eq_append] at named ⊢
  exact lays_of_puts sound named (puts_copyFile namedSource fits there above name failure)

/-- Documents can be composed exactly if they can be loaded. -/
theorem run_composeFile_ok {c : Composer} {p : Path} {r : Run} :
    (composeFile c p : Action Run).run w = .ok r w' ↔
      ∃ d, c.load w.load p = .ok d ∧ r = d.run w.load w.texts ∧ w' = w := by
  unfold composeFile Composer.load
  by_cases empty : p.text = ""
  · rw [if_pos empty, if_pos empty]
    refine ⟨fun ran => ?_, fun ⟨_, loaded, _⟩ => nomatch loaded⟩
    obtain ⟨_, _, thrown, _⟩ := run_bind_ok.mp ran
    cases thrown
  rw [if_neg empty, if_neg empty]
  dsimp only
  rw [EStateM.run_bind]
  have loading : (Workspace.load (c.resolve p) : Action (Except String String)).run w =
      .ok (w.load (c.resolve p)) w := rfl
  rw [loading]
  cases w.load (c.resolve p) with
  | error message => exact ⟨nofun, fun ⟨_, loaded, _⟩ => nomatch loaded⟩
  | ok text =>
    dsimp only
    cases c.document (c.resolve p) text with
    | error e => exact ⟨nofun, fun ⟨_, loaded, _⟩ => nomatch loaded⟩
    | ok d =>
      constructor
      · intro ran
        cases ran
        exact ⟨d, rfl, rfl, rfl⟩
      · rintro ⟨d', loaded, rfl, rfl⟩
        cases loaded
        rfl

end World

end Templating
