import Mathlib.Tactic.ByContra
import Templating.Proofs.Control.Basic

namespace Templating

/-- A page with layouts that are accepted around it, the outermost first. -/
inductive Setting.Layered (setting : Setting) (load : Loader) (page : Node) : List Node → Prop
  | page : Layered setting load page [page]
  | wrap {node inner target directive source} : Layered setting load page (node :: inner) →
      setting.scanner.skips node.source = false →
      setting.requestedLayout node = some (target, directive) →
      (node :: inner).any (·.src == target) = false → load target = .ok source →
      Layered setting load page (.new target node.root source .layout :: node :: inner)

/-- A page with all the layouts around it, the outermost first. -/
structure Setting.Layers (setting : Setting) (load : Loader) (page : Node) (nodes : List Node) : Prop where
  layered : setting.Layered load page nodes
  outermost : ∀ node, ¬setting.Layered load page (node :: nodes)

namespace Setting

theorem requestedLayout_default {setting : Setting} {node : Node} (page : node.role = .root)
    (plain : setting.scanner.layout? node.source = none) :
    setting.requestedLayout node = setting.defaultLayout.map fun target => (target, none) := by
  simp only [requestedLayout, page, plain, if_true]
  rfl

variable {setting : Setting} {load : Loader} {page node : Node} {inner nodes : List Node}

/-- The page is the innermost of the nodes that are accepted, and all others are layouts. -/
theorem Layered.exists_layouts (layered : setting.Layered load page nodes) :
    ∃ layouts, nodes = layouts ++ [page] ∧ ∀ l ∈ layouts, l.role = .layout := by
  induction layered with
  | page => exact ⟨[], rfl, fun l member => absurd member List.not_mem_nil⟩
  | @wrap node inner target directive source _ _ _ _ _ ih =>
    obtain ⟨layouts, split, roles⟩ := ih
    exact ⟨.new target node.root source .layout :: layouts, by rw [split]; rfl,
      List.forall_mem_cons.mpr ⟨rfl, roles⟩⟩

/-- Whatever has a layout around it does not skip, since a text that skips asks for no layout. -/
theorem Layered.inner_kept (layered : setting.Layered load page (node :: inner)) :
    ∀ l ∈ inner, setting.scanner.skips l.source = false := by
  generalize split : node :: inner = nodes at layered
  induction layered generalizing node inner with
  | page =>
    cases split
    exact fun l member => absurd member List.not_mem_nil
  | wrap _ kept _ _ _ ih =>
    obtain ⟨rfl, rfl⟩ := List.cons.inj split
    exact List.forall_mem_cons.mpr ⟨kept, ih rfl⟩

/-- A layout next to the page is the one that the page asks for, with the text that the loader gave for it. -/
theorem Layered.exists_innermost (layered : setting.Layered load page nodes) {target : Path}
    {directive : Option String} {text : String} (requested : setting.requestedLayout page = some (target, directive))
    (loaded : load target = .ok text) {layouts : List Node} (split : nodes = layouts ++ [page])
    (wrapped : layouts ≠ []) : layouts.getLast? = some (.new target page.root text .layout) := by
  induction layered generalizing layouts with
  | page =>
    have length := congrArg List.length split
    rw [List.length_append] at length
    exact absurd (List.length_eq_zero_iff.mp (Nat.add_eq_right.mp length.symm)) wrapped
  | @wrap node inner target' directive' source layered _ requested' _ loaded' ih =>
    cases layouts with
    | nil => exact absurd rfl wrapped
    | cons first more =>
      obtain ⟨rfl, rest⟩ := List.cons.inj split
      cases more with
      | nil =>
        obtain ⟨rfl, rfl⟩ := List.cons.inj rest
        cases Option.some.inj (requested.symm.trans requested')
        cases Except.ok.inj (loaded.symm.trans loaded')
        rfl
      | cons second more =>
        rw [List.getLast?_cons_cons]
        exact ih rest (List.cons_ne_nil second more)

end Setting

namespace Control
variable {setting : Setting} {load : Loader} {page node : Node} {inner nodes : List Node}

/-- Each layout takes one step, which asks for it and puts nothing out. So many steps after the beginning the
outermost layout so far is next. -/
theorem exists_run_layered (layered : setting.Layered load page (node :: inner)) :
    ∃ loads, (outer [] page).run setting load inner.length = (⟨[], loads⟩, outer inner node) := by
  generalize split : node :: inner = nodes at layered
  induction layered generalizing node inner with
  | page =>
    cases split
    exact ⟨[], rfl⟩
  | wrap _ kept requested straight loaded ih =>
    obtain ⟨rfl, rfl⟩ := List.cons.inj split
    obtain ⟨loads, ran⟩ := ih rfl
    rw [List.length_cons, run_succ_last, ran, step_outer_wrap kept requested straight loaded]
    exact ⟨_, rfl⟩

/-- Until all layouts are accepted, nothing is scanned and only the first step is at the page; the others are at
layouts. -/
theorem run_layered_of_lt (layered : setting.Layered load page nodes) {k : Nat} (early : k < nodes.length) :
    ∃ node inner, setting.Layered load page (node :: inner) ∧ inner.length = k ∧
      (0 < k → node.role = .layout) := by
  induction layered with
  | page => exact ⟨page, [], .page, (Nat.lt_one_iff.mp early).symm, fun later => by rw [Nat.lt_one_iff.mp early] at later; cases later⟩
  | @wrap node inner target directive source layered kept requested straight loaded ih =>
    rcases Nat.lt_succ_iff_lt_or_eq.mp early with earlier | rfl
    · exact ih earlier
    · exact ⟨_, _, .wrap layered kept requested straight loaded, rfl, fun _ => rfl⟩

/-- The outermost layout is scanned next, unless it skips. At most a report comes out in this step, and no text. -/
theorem exists_step_outermost (layers : setting.Layers load page (node :: inner))
    (kept : setting.scanner.skips node.source = false) :
    ∃ piece : Run, (∀ text origin, .data text origin ∉ piece.events) ∧
      (outer inner node).step setting load = (piece, .scanning ⟨[], .ofList inner, node, 0⟩ []) := by
  obtain ⟨piece, after, stepping⟩ := exists_stepping setting load (.outer inner node)
  have stepped := stepping.step_eq
  cases stepping with
  | outerSkip skips =>
    rw [kept] at skips
    cases skips
  | bare => exact ⟨_, fun _ _ => List.not_mem_nil, stepped⟩
  | layoutCircle => exact ⟨_, fun _ _ => by simp [Run.error], stepped⟩
  | layoutUnreadable => exact ⟨_, fun _ _ => by simp [Run.error, Run.asked], stepped⟩
  | layout _ requested straight loaded =>
    exact absurd (.wrap layers.layered kept requested straight loaded) (layers.outermost _)

/-- If the work comes to an end, so does the list of layouts. Without this assumption a loader could go on to give new
layouts forever. -/
theorem exists_layers {n : Nat} (ended : ((outer [] page).run setting load n).2 = .done) :
    ∃ nodes, setting.Layers load page nodes := by
  by_contra endless
  have further (n : Nat) : ∃ node inner, setting.Layered load page (node :: inner) ∧ inner.length = n := by
    induction n with
    | zero => exact ⟨page, [], .page, rfl⟩
    | succ n ih =>
      obtain ⟨node, inner, layered, length⟩ := ih
      by_contra last
      refine endless ⟨node :: inner, layered, fun outer more => last ⟨outer, node :: inner, more, ?_⟩⟩
      rw [List.length_cons, length]
  obtain ⟨node, inner, layered, rfl⟩ := further n
  obtain ⟨loads, ran⟩ := exists_run_layered layered
  rw [ran] at ended
  cases ended

end Control

end Templating
