import Templating.Proofs.Control.Basic
import Templating.Proofs.Machine.Links
import Templating.Proofs.Path.Places

namespace Templating

/-- The root of the file system is no text. -/
def Loader.RefusesRoot (load : Loader) : Prop := ∀ text, load (.ofLocation []) ≠ .ok text

/-- Targets are sought from the root. -/
structure Node.Rooted (n : Node) : Prop where
  root : n.root.isRooted = true
  dirname : n.dirname.isRooted = true

/-- A path from the root in canonical form. -/
structure Path.Absolute (p : Path) : Prop where
  rooted : p.isRooted = true
  canonical : p.normalize = p

theorem Path.absolute_ofLocation {loc : Location} (named : loc.Named) : (Path.ofLocation loc).Absolute :=
  ⟨isRooted_ofLocation loc, normalize_ofLocation named⟩

/-- A path from the root in canonical form is the path of the location that it leads to, and nothing of it is lost on
the way. -/
theorem Path.Absolute.ofLocation_location {p : Path} (absolute : p.Absolute) :
    Location.Named (p.location []) ∧ p = .ofLocation (p.location []) := by
  obtain ⟨loc, named, rfl⟩ := exists_location absolute.rooted absolute.canonical
  rw [location_ofLocation named]
  exact ⟨named, rfl⟩

/-- Two canonical paths from the root with the same components are equal as texts, so that comparing either is the
same. -/
theorem Path.Absolute.components_inj {p q : Path} (absolute : p.Absolute) (absolute' : q.Absolute) :
    p.components = q.components ↔ p = q := by
  refine ⟨fun same => ?_, congrArg components⟩
  rw [← absolute.canonical, ← absolute'.canonical, normalize, normalize, same]

/-- Whatever is joined to a path from the root is one from the root in canonical form once it is normalized. -/
theorem Path.absolute_normalize_join {base : Path} (rooted : base.isRooted = true) (p : Path) :
    (base.join p).normalize.Absolute := by
  refine ⟨?_, normalize_normalize _⟩
  rw [isRooted_normalize, isRooted_join, rooted, Bool.or_true]

theorem Path.absolute_layoutTarget (argument : String) {root : Path} (rooted : root.isRooted = true) :
    (layoutTarget argument root).Absolute := absolute_normalize_join rooted _

namespace Node.Rooted
variable {node : Node} {load : Loader} {target : Path} {source : String}

/-- What a node includes is a path from the root in canonical form, whatever its directive says, if the node itself is
sought from the root. -/
theorem includeTarget (rooted : node.Rooted) (argument : String) : (node.includeTarget argument).Absolute := by
  unfold Node.includeTarget Path.includeTarget
  split
  · exact Path.absolute_layoutTarget argument rooted.root
  · exact Path.absolute_normalize_join rooted.dirname _

/-- A text that is loaded from such a target is sought from the root as well, unless it is the root itself that is
taken for a text. -/
theorem new (absolute : target.Absolute) (refuses : load.RefusesRoot) (loaded : load target = .ok source)
    (rooted : node.Rooted) (role : Role) : (Node.new target node.root source role).Rooted := by
  refine ⟨rooted.root, Path.isRooted_parent? absolute.rooted absolute.canonical fun root => ?_⟩
  rw [show target = _ from root] at loaded
  exact refuses source loaded

end Node.Rooted

/-- The layout that a node asks for, in its own text or by default, is a path from the root in canonical form. -/
theorem Setting.absolute_requestedLayout {setting : Setting} {node : Node} {target : Path} {directive : Option String}
    (chosen : ∀ target, setting.defaultLayout = some target → target.Absolute) (rooted : node.Rooted)
    (requested : setting.requestedLayout node = some (target, directive)) : target.Absolute := by
  unfold requestedLayout at requested
  split at requested
  next => cases requested
  next =>
    split at requested
    next hit _ =>
      split at requested
      next =>
        rw [← (Prod.mk.inj (Option.some.inj requested)).1]
        exact Path.absolute_layoutTarget _ rooted.root
      next => cases requested
    next =>
      split at requested
      next =>
        obtain ⟨layout, there, same⟩ := Option.map_eq_some_iff.mp requested
        rw [← (Prod.mk.inj same).1]
        exact chosen layout there
      next => cases requested

/-- The nodes that a text has to offer to its slots. -/
def Filling.nodes : Filling → List Node
  | .nothing | .placed => []
  | .wrapped node more => node :: more

theorem Filling.nodes_ofList (inner : List Node) : (ofList inner).nodes = inner := by cases inner <;> rfl

structure Frame.Rooted (f : Frame) : Prop where
  node : f.node.Rooted
  filling : ∀ n ∈ f.filling.nodes, n.Rooted

theorem Frame.Rooted.behind {f : Frame} (rooted : f.Rooted) (start : Nat) : Frame.Rooted { f with start := start } :=
  ⟨rooted.node, rooted.filling⟩

theorem Frame.rooted_ofList {node : Node} {more : List Node} (rooted : ∀ n ∈ node :: more, n.Rooted) :
    Frame.Rooted ⟨[], .ofList more, node, 0⟩ := by
  obtain ⟨first, others⟩ := List.forall_mem_cons.mp rooted
  exact ⟨first, by rwa [Filling.nodes_ofList]⟩

/-- All that is asked for is a path from the root in canonical form. -/
def Run.Absolute (r : Run) : Prop := ∀ p ∈ r.loads, p.Absolute

theorem Run.Absolute.append {a b : Run} (first : a.Absolute) (second : b.Absolute) : (a ++ b).Absolute :=
  List.forall_mem_append.mpr ⟨first, second⟩

theorem Run.absolute_of_unasked {r : Run} (unasked : r.loads = []) : r.Absolute := by
  rw [Absolute, unasked]
  exact fun _ member => absurd member List.not_mem_nil

theorem Run.absolute_asked {p : Path} (absolute : p.Absolute) : (Run.asked p).Absolute :=
  List.forall_mem_singleton.mpr absolute

namespace Control
variable {setting : Setting} {load : Loader} {control after : Control} {frame : Frame} {waiting : List Frame}
  {piece : Run}

def Rooted : Control → Prop
  | .outer inner node => ∀ n ∈ node :: inner, n.Rooted
  | .entered frame waiting | .scanning frame waiting => ∀ f ∈ frame :: waiting, f.Rooted
  | .done => True

theorem rooted_resume (held : ∀ f ∈ waiting, f.Rooted) : (resume waiting).Rooted := by
  cases waiting with
  | nil => trivial
  | cons frame waiting => exact held

theorem loads_closing (waiting : List Frame) : (closing waiting).loads = [] := by cases waiting <;> rfl

/-- Passing a hit asks for such paths only, and whoever has control behind it is sought from the root. -/
theorem Passing.rooted {hit : Hit} (passing : Passing setting load frame hit waiting piece after)
    (refuses : load.RefusesRoot) (held : ∀ f ∈ frame :: waiting, f.Rooted) : piece.Absolute ∧ after.Rooted := by
  obtain ⟨here, others⟩ := List.forall_mem_cons.mp held
  cases passing with
  | data | decided | slotKept | slotPlaced | spliceCircle => exact ⟨Run.absolute_of_unasked rfl, held⟩
  | slot _ offer =>
    have offered := here.filling
    rw [offer] at offered
    have placed : Frame.Rooted { frame with filling := .placed } :=
      ⟨here.node, fun n member => absurd member List.not_mem_nil⟩
    exact ⟨Run.absolute_of_unasked rfl, List.forall_mem_cons.mpr
      ⟨Frame.rooted_ofList offered, List.forall_mem_cons.mpr ⟨placed, others⟩⟩⟩
  | spliceUnreadable => exact ⟨List.forall_mem_singleton.mpr (here.node.includeTarget _), held⟩
  | @splice argument _ _ _ loaded =>
    have target := here.node.includeTarget argument
    have entered := here.node.new target refuses loaded .included
    exact ⟨Run.absolute_asked target, List.forall_mem_cons.mpr
      ⟨⟨entered, fun n member => absurd member List.not_mem_nil⟩, held⟩⟩

/-- A step asks for paths from the root in canonical form only, and everything that has control or waits for it behind
the step is sought from the root. The root of the file system must be no text and the default layout absolute. -/
theorem Stepping.rooted (stepping : Stepping setting load control piece after) (refuses : load.RefusesRoot)
    (chosen : ∀ target, setting.defaultLayout = some target → target.Absolute) (held : control.Rooted) :
    piece.Absolute ∧ after.Rooted := by
  cases stepping with
  | done | outerSkip => exact ⟨Run.absolute_of_unasked rfl, trivial⟩
  | bare | layoutCircle =>
    exact ⟨Run.absolute_of_unasked rfl, List.forall_mem_singleton.mpr (Frame.rooted_ofList held)⟩
  | layoutUnreadable _ requested =>
    have absolute := Setting.absolute_requestedLayout chosen (held _ List.mem_cons_self) requested
    exact ⟨List.forall_mem_singleton.mpr absolute, List.forall_mem_singleton.mpr (Frame.rooted_ofList held)⟩
  | layout _ requested _ loaded =>
    have here := held _ List.mem_cons_self
    have absolute := Setting.absolute_requestedLayout chosen here requested
    exact ⟨Run.absolute_asked absolute,
      List.forall_mem_cons.mpr ⟨here.new absolute refuses loaded .layout, held⟩⟩
  | enteredScan => exact ⟨Run.absolute_of_unasked rfl, held⟩
  | enteredSkip | tail =>
    exact ⟨Run.absolute_of_unasked (loads_closing _), rooted_resume (List.forall_mem_cons.mp held).2⟩
  | hit _ passing =>
    obtain ⟨here, others⟩ := List.forall_mem_cons.mp held
    obtain ⟨asked, next⟩ := passing.rooted refuses (List.forall_mem_cons.mpr ⟨here.behind _, others⟩)
    exact ⟨asked, next⟩

end Control

end Templating
