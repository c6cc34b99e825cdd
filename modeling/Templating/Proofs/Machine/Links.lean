import Mathlib.Data.List.Nodup
import Templating.Proofs.Machine.Trail
import Templating.Proofs.Path.Canonical
import Templating.Proofs.Scan.Hits

namespace Templating

/-- What holds of every node, whatever the others are. -/
structure Node.Sound (n : Node) : Prop where
  canonical : n.src.normalize = n.src
  parent_iff : n.parent.isSome ↔ n.role = .included
  slot_iff : n.slot.isSome ↔ n.role = .layout
  boundary : Text.IsBoundary n.source n.index
  pending_index : n.phase = .pending → n.index = 0
  finished_index : n.phase = .finished → n.index = Text.size n.source
  /-- The layout is decided when the node is begun. -/
  pending_layout : n.phase = .pending → n.layout = none
  /-- An included text never has a layout. -/
  included_layout : n.role = .included → n.layout = none
  layoutTarget_none : n.layout = none → n.layoutTarget = none

/-- What holds of the nodes of a document together: links lead to nodes that are there, inclusions and slots to older
ones, a layout and what it wraps name each other, and no source occurs twice on a chain. -/
structure Linked (nodes : Array Node) : Prop where
  sound : ∀ {i : NodeId} {n : Node}, nodes[i]? = some n → n.Sound
  parent_older : ∀ {i p : NodeId} {n : Node}, nodes[i]? = some n → n.parent = some p → p < i
  slot_older : ∀ {i w : NodeId} {n : Node}, nodes[i]? = some n → n.slot = some w → w < i
  /-- A node has a layout exactly when the layout has it in its slot. -/
  layout_iff : ∀ i l : NodeId, (∃ n : Node, nodes[i]? = some n ∧ n.layout = some l) ↔
    ∃ m : Node, nodes[l]? = some m ∧ m.slot = some i
  layoutTarget_eq : ∀ {i l : NodeId} {n m : Node}, nodes[i]? = some n → n.layout = some l →
    nodes[l]? = some m → n.layoutTarget = some m.src
  parents_distinct : ∀ {i : NodeId} {n : Node}, nodes[i]? = some n →
    ∃ srcs, Trail nodes Node.parent (some i) srcs ∧ srcs.Nodup
  slots_distinct : ∀ {i : NodeId} {n : Node}, nodes[i]? = some n →
    ∃ srcs, Trail nodes Node.slot (some i) srcs ∧ srcs.Nodup

section Links
variable {nodes : Array Node} {id : NodeId} {n : Node}

theorem Node.Sound.outside_of_layout (sound : n.Sound) {l : NodeId} (link : n.layout = some l) :
    n.role ≠ .included := by
  intro included
  rw [sound.included_layout included] at link
  cases link

theorem Node.Sound.included (sound : n.Sound) {p : NodeId} (link : n.parent = some p) : n.role = .included :=
  sound.parent_iff.mp (by rw [link]; rfl)

theorem Node.Sound.parent_none (sound : n.Sound) (outside : n.role ≠ .included) : n.parent = none := by
  cases link : n.parent with
  | none => rfl
  | some p => exact absurd (sound.included link) outside

/-- The layout of a node is a younger node whose slot is that node, and its role is that of a layout. -/
theorem Linked.layout_at (linked : Linked nodes) (here : nodes[id]? = some n) {l : NodeId}
    (link : n.layout = some l) :
    ∃ m, nodes[l]? = some m ∧ m.slot = some id ∧ m.role = .layout ∧ id < l := by
  obtain ⟨m, there, slot⟩ := (linked.layout_iff id l).mp ⟨n, here, link⟩
  exact ⟨m, there, slot, (linked.sound there).slot_iff.mp (by rw [slot]; rfl), linked.slot_older there slot⟩

/-- What a layout wraps has the layout as its own, and is no included text. -/
theorem Linked.slot_at (linked : Linked nodes) (here : nodes[id]? = some n) {w : NodeId}
    (link : n.slot = some w) : ∃ m, nodes[w]? = some m ∧ m.layout = some id ∧ m.role ≠ .included := by
  obtain ⟨m, there, layout⟩ := (linked.layout_iff w id).mpr ⟨n, here, link⟩
  exact ⟨m, there, layout, (linked.sound there).outside_of_layout layout⟩

end Links

/-- Every node is still there, with the same source and the same place on its chains. -/
structure KeepsChains (nodes later : Array Node) : Prop where
  kept : ∀ {i : NodeId} {n : Node}, nodes[i]? = some n →
    ∃ m : Node, later[i]? = some m ∧ m.src = n.src ∧ m.parent = n.parent ∧ m.slot = n.slot

namespace KeepsChains
variable {nodes later : Array Node} {id : NodeId} {n : Node}

theorem push (nodes : Array Node) (child : Node) : KeepsChains nodes (nodes.push child) :=
  ⟨fun here => ⟨_, getElem?_push_of_some child here, rfl, rfl, rfl⟩⟩

theorem parent (keeps : KeepsChains nodes later) (here : nodes[id]? = some n) :
    ∃ m : Node, later[id]? = some m ∧ m.src = n.src ∧ m.parent = n.parent := by
  obtain ⟨m, there, src, parent, _⟩ := keeps.kept here
  exact ⟨m, there, src, parent⟩

theorem slot (keeps : KeepsChains nodes later) (here : nodes[id]? = some n) :
    ∃ m : Node, later[id]? = some m ∧ m.src = n.src ∧ m.slot = n.slot := by
  obtain ⟨m, there, src, _, slot⟩ := keeps.kept here
  exact ⟨m, there, src, slot⟩

/-- The sources on a chain of inclusions stay distinct when nodes are added that leave the chains of the others alone.
-/
theorem parents_distinct (keeps : KeepsChains nodes later) (linked : Linked nodes) (here : nodes[id]? = some n) :
    ∃ srcs, Trail later Node.parent (some id) srcs ∧ srcs.Nodup := by
  obtain ⟨srcs, trail, distinct⟩ := linked.parents_distinct here
  exact ⟨srcs, trail.extend keeps.parent, distinct⟩

/-- The sources on a chain of slots stay distinct when nodes are added that leave the chains of the others alone. -/
theorem slots_distinct (keeps : KeepsChains nodes later) (linked : Linked nodes) (here : nodes[id]? = some n) :
    ∃ srcs, Trail later Node.slot (some id) srcs ∧ srcs.Nodup := by
  obtain ⟨srcs, trail, distinct⟩ := linked.slots_distinct here
  exact ⟨srcs, trail.extend keeps.slot, distinct⟩

end KeepsChains

/-- What the links of a node are: everything but its cursor. -/
def Node.links (n : Node) : Node := { n with index := 0, phase := .pending }

/-- The cursors may differ, and nothing else. -/
def SameLinks (nodes later : Array Node) : Prop :=
  ∀ i : NodeId, (later[i]?).map Node.links = (nodes[i]?).map Node.links

theorem SameLinks.symm {nodes later : Array Node} (same : SameLinks nodes later) : SameLinks later nodes :=
  fun i => (same i).symm

theorem SameLinks.at {nodes later : Array Node} (same : SameLinks nodes later) {i : NodeId} {n : Node}
    (atPlace : nodes[i]? = some n) : ∃ m, later[i]? = some m ∧ m.links = n.links := by
  have moved := same i
  rw [atPlace] at moved
  exact Option.map_eq_some_iff.mp moved

/-- A change of cursors is none of chains, so that what holds of chains needs no second proof for it. -/
theorem SameLinks.keepsChains {nodes later : Array Node} (same : SameLinks nodes later) : KeepsChains nodes later := by
  refine ⟨fun here => ?_⟩
  obtain ⟨m, there, links⟩ := same.at here
  exact ⟨m, there, (congrArg Node.src links :), (congrArg Node.parent links :), (congrArg Node.slot links :)⟩

/-- Nodes whose cursors have moved are linked as before, provided each of them is sound where it stands now. -/
theorem Linked.moved {nodes later : Array Node} (linked : Linked nodes) (same : SameLinks nodes later)
    (sound : ∀ {i : NodeId} {n : Node}, later[i]? = some n → n.Sound) : Linked later where
  sound := sound
  parent_older atPlace link := by
    obtain ⟨n, before, links⟩ := same.symm.at atPlace
    exact linked.parent_older before ((congrArg Node.parent links).trans link)
  slot_older atPlace link := by
    obtain ⟨n, before, links⟩ := same.symm.at atPlace
    exact linked.slot_older before ((congrArg Node.slot links).trans link)
  layout_iff i l := by
    constructor
    · rintro ⟨n, atPlace, link⟩
      obtain ⟨m, before, links⟩ := same.symm.at atPlace
      obtain ⟨outer, atOuter, back⟩ :=
        (linked.layout_iff i l).mp ⟨m, before, (congrArg Node.layout links).trans link⟩
      obtain ⟨outer', atOuter', links'⟩ := same.at atOuter
      exact ⟨outer', atOuter', (congrArg Node.slot links').trans back⟩
    · rintro ⟨m, atPlace, link⟩
      obtain ⟨n, before, links⟩ := same.symm.at atPlace
      obtain ⟨inner, atInner, back⟩ :=
        (linked.layout_iff i l).mpr ⟨n, before, (congrArg Node.slot links).trans link⟩
      obtain ⟨inner', atInner', links'⟩ := same.at atInner
      exact ⟨inner', atInner', (congrArg Node.layout links').trans back⟩
  layoutTarget_eq atPlace link atLayout := by
    obtain ⟨n, before, links⟩ := same.symm.at atPlace
    obtain ⟨m, beforeLayout, links'⟩ := same.symm.at atLayout
    have target := linked.layoutTarget_eq before ((congrArg Node.layout links).trans link) beforeLayout
    have src := congrArg (fun n => some n.src) links'
    exact (congrArg Node.layoutTarget links).symm.trans (target.trans src)
  parents_distinct atPlace := by
    obtain ⟨n, before, _⟩ := same.symm.at atPlace
    exact same.keepsChains.parents_distinct linked before
  slots_distinct atPlace := by
    obtain ⟨n, before, _⟩ := same.symm.at atPlace
    exact same.keepsChains.slots_distinct linked before

theorem Linked.place {nodes : Array Node} (linked : Linked nodes) {c : NodeId} {n : Node}
    (atWork : nodes[c]? = some n) {f : Node → Node} (index : Nat) (phase : Phase)
    (moves : f n = { n with index := index, phase := phase }) (boundary : Text.IsBoundary n.source index)
    (begun : phase ≠ .pending) (finished : phase = .finished → index = Text.size n.source) :
    Linked (nodes.modify c f) := by
  refine linked.moved (fun i => ?_) fun {i m} atPlace => ?_
  · rw [Array.getElem?_modify]
    split
    next same =>
      subst same
      rw [atWork]
      simp only [Option.map_some, moves]
      rfl
    next => rfl
  · obtain ⟨old, before, rfl⟩ := getElem?_modify_some atPlace
    have sound := linked.sound before
    split
    next same =>
      subst same
      cases Option.some.inj (before.symm.trans atWork)
      rw [moves]
      exact { sound with
        boundary := boundary
        pending_index := fun pending => absurd pending begun
        finished_index := finished
        pending_layout := fun pending => absurd pending begun }
    next => exact sound

/-- An included text is sound when it is made, if its path is canonical; its source may be anything. -/
theorem Node.Sound.child {path root : Path} (source : String) (canonical : path.normalize = path)
    (parent : NodeId) : Sound { Node.new path root source .included with parent := some parent } where
  canonical := canonical
  parent_iff := iff_of_true rfl rfl
  slot_iff := iff_of_false nofun nofun
  boundary := Text.isBoundary_zero source
  pending_index _ := rfl
  finished_index := nofun
  pending_layout _ := rfl
  included_layout _ := rfl
  layoutTarget_none _ := rfl

/-- A layout is sound when it is made, if its path is canonical; its source may be anything. -/
theorem Node.Sound.outer {path root : Path} (source : String) (canonical : path.normalize = path)
    (slot : NodeId) : Sound { Node.new path root source .layout with slot := some slot } where
  canonical := canonical
  parent_iff := iff_of_false nofun nofun
  slot_iff := iff_of_true rfl rfl
  boundary := Text.isBoundary_zero source
  pending_index _ := rfl
  finished_index := nofun
  pending_layout _ := rfl
  included_layout := nofun
  layoutTarget_none _ := rfl

/-- The page of a document is sound when it is made, if its path is canonical; its source may be anything. -/
theorem Node.Sound.page {path root : Path} (source : String) (canonical : path.normalize = path) :
    Sound (Node.new path root source .root) where
  canonical := canonical
  parent_iff := iff_of_false nofun nofun
  slot_iff := iff_of_false nofun nofun
  boundary := Text.isBoundary_zero source
  pending_index _ := rfl
  finished_index := nofun
  pending_layout _ := rfl
  included_layout := nofun
  layoutTarget_none _ := rfl

/-- A text that is included in the node at work keeps the nodes linked. The test for a circle has made sure that its
source is new on the chain of inclusions. -/
theorem Linked.splice {nodes : Array Node} (linked : Linked nodes) {c : NodeId} {n : Node}
    (atWork : nodes[c]? = some n) {path root : Path} {source : String} (canonical : path.normalize = path)
    (straight : State.onChain nodes Node.parent path nodes.size c = false) :
    Linked (nodes.push { Node.new path root source .included with parent := some c }) where
  sound atPlace := by
    rcases getElem?_push_some atPlace with ⟨_, rfl⟩ | before
    · exact .child source canonical c
    · exact linked.sound before
  parent_older atPlace link := by
    rcases getElem?_push_some atPlace with ⟨rfl, rfl⟩ | before
    · cases link
      exact lt_size_of_getElem? atWork
    · exact linked.parent_older before link
  slot_older atPlace link := by
    rcases getElem?_push_some atPlace with ⟨rfl, rfl⟩ | before
    · cases link
    · exact linked.slot_older before link
  layout_iff i l := by
    constructor
    · rintro ⟨m, atPlace, link⟩
      rcases getElem?_push_some atPlace with ⟨rfl, rfl⟩ | before
      · cases link
      · obtain ⟨outer, atOuter, back⟩ := (linked.layout_iff i l).mp ⟨m, before, link⟩
        exact ⟨outer, getElem?_push_of_some _ atOuter, back⟩
    · rintro ⟨m, atPlace, link⟩
      rcases getElem?_push_some atPlace with ⟨rfl, rfl⟩ | before
      · cases link
      · obtain ⟨inner, atInner, back⟩ := (linked.layout_iff i l).mpr ⟨m, before, link⟩
        exact ⟨inner, getElem?_push_of_some _ atInner, back⟩
  layoutTarget_eq atPlace link atLayout := by
    rcases getElem?_push_some atPlace with ⟨rfl, rfl⟩ | before
    · cases link
    · obtain ⟨outer, atOuter, _⟩ := (linked.layout_iff _ _).mp ⟨_, before, link⟩
      cases Option.some.inj ((getElem?_push_of_some _ atOuter).symm.trans atLayout)
      exact linked.layoutTarget_eq before link atOuter
  parents_distinct atPlace := by
    rcases getElem?_push_some atPlace with ⟨rfl, rfl⟩ | before
    · obtain ⟨srcs, trail, distinct⟩ := linked.parents_distinct atWork
      exact trail.extended distinct linked.parent_older straight (KeepsChains.push _ _).parent atPlace rfl
    · exact (KeepsChains.push _ _).parents_distinct linked before
  slots_distinct atPlace := by
    rcases getElem?_push_some atPlace with ⟨rfl, rfl⟩ | before
    · exact ⟨[path], .visit atPlace .stop, List.nodup_singleton path⟩
    · exact (KeepsChains.push _ _).slots_distinct linked before

/-- A node and the layout that it gets. -/
def wrapped (nodes : Array Node) (c : NodeId) (target root : Path) (source : String) : Array Node :=
  (nodes.modify c fun n => { n with layout := some nodes.size, layoutTarget := some target }).push
    { Node.new target root source .layout with slot := some c }

theorem State.nodes_wrap (s : State) (node : Node) (target : Path) (source : String) :
    (s.wrap node target source).nodes = wrapped s.nodes s.current target node.root source := rfl

theorem getElem?_wrapped_some {nodes : Array Node} {c j : NodeId} {target root : Path} {source : String}
    {m : Node} (atPlace : (wrapped nodes c target root source)[j]? = some m) :
    (j = nodes.size ∧ m = { Node.new target root source .layout with slot := some c }) ∨
      ∃ n, nodes[j]? = some n ∧
        m = if c = j then { n with layout := some nodes.size, layoutTarget := some target } else n := by
  rcases getElem?_push_some atPlace with ⟨last, new⟩ | before
  · exact .inl ⟨by rw [last, Array.size_modify], new⟩
  · exact .inr (getElem?_modify_some before)

theorem getElem?_wrapped_of_some {nodes : Array Node} {c j : NodeId} {target root : Path}
    {source : String} {n : Node} (atPlace : nodes[j]? = some n) :
    (wrapped nodes c target root source)[j]? =
      some (if c = j then { n with layout := some nodes.size, layoutTarget := some target } else n) :=
  getElem?_push_of_some _ (getElem?_modify_of_some atPlace)

theorem getElem?_wrapped_size (nodes : Array Node) (c : NodeId) (target root : Path) (source : String) :
    (wrapped nodes c target root source)[nodes.size]? =
      some { Node.new target root source .layout with slot := some c } := by
  rw [wrapped, Array.getElem?_push, if_pos Array.size_modify.symm]

theorem KeepsChains.wrapped (nodes : Array Node) (c : NodeId) (target root : Path) (source : String) :
    KeepsChains nodes (Templating.wrapped nodes c target root source) :=
  ⟨fun here => ⟨_, getElem?_wrapped_of_some here, by split <;> rfl, by split <;> rfl, by split <;> rfl⟩⟩

theorem Node.Sound.wrapped {n : Node} (sound : n.Sound) (begun : n.phase ≠ .pending) (outside : n.role ≠ .included)
    (layout : NodeId) (target : Path) : Sound { n with layout := some layout, layoutTarget := some target } :=
  { sound with
    pending_layout := fun pending => absurd pending begun
    included_layout := fun included => absurd included outside
    layoutTarget_none := nofun }

/-- A layout that the node at work gets keeps the nodes linked, if the node has been begun, is no included text and
had no layout. The test for a circle has made sure that its source is new on the chain of slots. -/
theorem Linked.wrap {nodes : Array Node} (linked : Linked nodes) {c : NodeId} {n : Node}
    (atWork : nodes[c]? = some n) (bare : n.layout = none) (begun : n.phase ≠ .pending)
    (outside : n.role ≠ .included) {target root : Path} {source : String}
    (canonical : target.normalize = target)
    (straight : State.onChain nodes Node.slot target nodes.size c = false) :
    Linked (wrapped nodes c target root source) where
  sound atPlace := by
    rcases getElem?_wrapped_some atPlace with ⟨_, rfl⟩ | ⟨old, before, rfl⟩
    · exact .outer source canonical c
    · split
      next same =>
        subst same
        cases Option.some.inj (before.symm.trans atWork)
        exact (linked.sound before).wrapped begun outside ..
      next => exact linked.sound before
  parent_older atPlace link := by
    rcases getElem?_wrapped_some atPlace with ⟨rfl, rfl⟩ | ⟨old, before, rfl⟩
    · cases link
    · exact linked.parent_older before (by split at link <;> exact link)
  slot_older atPlace link := by
    rcases getElem?_wrapped_some atPlace with ⟨rfl, rfl⟩ | ⟨old, before, rfl⟩
    · cases link
      exact lt_size_of_getElem? atWork
    · exact linked.slot_older before (by split at link <;> exact link)
  layout_iff i l := by
    constructor
    · rintro ⟨m, atPlace, link⟩
      rcases getElem?_wrapped_some atPlace with ⟨rfl, rfl⟩ | ⟨old, before, rfl⟩
      · cases link
      · split at link
        next same =>
          subst same
          cases link
          exact ⟨_, getElem?_wrapped_size .., rfl⟩
        next =>
          obtain ⟨outer, atOuter, back⟩ := (linked.layout_iff i l).mp ⟨old, before, link⟩
          exact ⟨_, getElem?_wrapped_of_some atOuter, by split <;> exact back⟩
    · rintro ⟨m, atPlace, link⟩
      rcases getElem?_wrapped_some atPlace with ⟨rfl, rfl⟩ | ⟨old, before, rfl⟩
      · cases link
        exact ⟨_, getElem?_wrapped_of_some atWork, by rw [if_pos rfl]⟩
      · obtain ⟨inner, atInner, back⟩ :=
          (linked.layout_iff i l).mpr ⟨old, before, by split at link <;> exact link⟩
        -- The node at work had no layout, so no older link can be its own.
        have other : c ≠ i := by
          rintro rfl
          cases Option.some.inj (atInner.symm.trans atWork)
          rw [bare] at back
          cases back
        exact ⟨_, getElem?_wrapped_of_some atInner, by rw [if_neg other, back]⟩
  layoutTarget_eq atPlace link atLayout := by
    rcases getElem?_wrapped_some atPlace with ⟨rfl, rfl⟩ | ⟨old, before, rfl⟩
    · cases link
    · split at link
      next same =>
        cases link
        rcases getElem?_wrapped_some atLayout with ⟨_, rfl⟩ | ⟨_, there, _⟩
        · rw [if_pos same]
          rfl
        · exact absurd (lt_size_of_getElem? there) (Nat.lt_irrefl _)
      next other =>
        obtain ⟨outer, atOuter, _⟩ := (linked.layout_iff _ _).mp ⟨old, before, link⟩
        cases Option.some.inj ((getElem?_wrapped_of_some atOuter).symm.trans atLayout)
        rw [if_neg other, linked.layoutTarget_eq before link atOuter]
        split <;> rfl
  parents_distinct atPlace := by
    rcases getElem?_wrapped_some atPlace with ⟨rfl, rfl⟩ | ⟨old, before, _⟩
    · exact ⟨[target], .visit atPlace .stop, List.nodup_singleton target⟩
    · exact (KeepsChains.wrapped ..).parents_distinct linked before
  slots_distinct atPlace := by
    rcases getElem?_wrapped_some atPlace with ⟨rfl, rfl⟩ | ⟨old, before, _⟩
    · obtain ⟨srcs, trail, distinct⟩ := linked.slots_distinct atWork
      exact trail.extended distinct linked.slot_older straight (KeepsChains.wrapped ..).slot atPlace rfl
    · exact (KeepsChains.wrapped ..).slots_distinct linked before

theorem Linked.single {n : Node} (sound : n.Sound) (parent : n.parent = none) (slot : n.slot = none)
    (layout : n.layout = none) : Linked #[n] := by
  have only {i : NodeId} {m : Node} (here : (#[n] : Array Node)[i]? = some m) : m = n := by
    rw [Array.getElem?_singleton] at here
    split at here <;> cases here
    rfl
  have unlinked {link : Node → Option NodeId} {m : Node} {i j : NodeId} (absent : link n = none)
      (here : (#[n] : Array Node)[i]? = some m) : link m ≠ some j := by
    rw [only here, absent]
    exact nofun
  have trail {link : Node → Option NodeId} {m : Node} {i : NodeId} (absent : link n = none)
      (here : (#[n] : Array Node)[i]? = some m) : ∃ srcs, Trail #[n] link (some i) srcs ∧ srcs.Nodup := by
    refine ⟨[m.src], .visit here ?_, List.nodup_singleton m.src⟩
    rw [only here, absent]
    exact .stop
  exact
    { sound := fun here => only here ▸ sound
      parent_older := fun here link => absurd link (unlinked parent here)
      slot_older := fun here link => absurd link (unlinked slot here)
      layout_iff := fun i l => ⟨fun ⟨_, here, link⟩ => absurd link (unlinked layout here),
        fun ⟨_, here, link⟩ => absurd link (unlinked slot here)⟩
      layoutTarget_eq := fun here link => absurd link (unlinked layout here)
      parents_distinct := trail parent
      slots_distinct := trail slot }

theorem Node.normalize_includeTarget (n : Node) (argument : String) :
    (n.includeTarget argument).normalize = n.includeTarget argument :=
  Path.normalize_includeTarget ..

/-- The layouts that a setting chooses by itself are in canonical form. -/
def Setting.Canonical (setting : Setting) : Prop :=
  ∀ target, setting.defaultLayout = some target → target.normalize = target

/-- The layout that a node asks for has a canonical path, whether a directive names it or the setting chooses it, and
no included text asks for one. -/
theorem Setting.Canonical.requestedLayout {setting : Setting} (canonical : setting.Canonical) {node : Node}
    {target : Path} {directive : Option String}
    (requested : setting.requestedLayout node = some (target, directive)) :
    target.normalize = target ∧ node.role ≠ .included := by
  unfold Setting.requestedLayout at requested
  split at requested
  · cases requested
  next outside =>
    refine ⟨?_, outside⟩
    split at requested
    · split at requested
      · simp only [Option.some.injEq, Prod.mk.injEq] at requested
        rw [← requested.1]
        exact Path.normalize_layoutTarget _ _
      · cases requested
    · split at requested
      · simp only [Option.map_eq_some_iff, Prod.mk.injEq] at requested
        obtain ⟨chosen, isDefault, rfl, _⟩ := requested
        exact canonical chosen isDefault
      · cases requested

namespace Setting
variable {setting : Setting} {load : Loader} {s : State} {node : Node}

theorem linked_begun (linked : Linked s.nodes) (atWork : s.nodes[s.current]? = some node) :
    Linked s.begun.nodes := by
  rw [State.nodes_begun]
  exact linked.place atWork node.index .scanning rfl (linked.sound atWork).boundary (by decide) nofun

/-- Passing a hit keeps the nodes linked, because a hit ends on a boundary between characters. -/
theorem linked_passed (linked : Linked s.nodes) (atWork : s.nodes[s.current]? = some node) {hit : Hit}
    (scanning : node.phase = .scanning) (found : setting.scanner.next? node.source node.index = some hit) :
    Linked (s.passed node hit).nodes := by
  rw [State.nodes_passed]
  exact linked.place atWork hit.stop .scanning (by rw [← scanning])
    (setting.scanner.isBoundary_stop (linked.sound atWork).boundary found) (by decide) nofun

/-- Every turn keeps the nodes linked. -/
theorem Change.linked {nodes : Array Node} (change : setting.Change load s node nodes)
    (canonical : setting.Canonical) (linked : Linked s.nodes)
    (atWork : s.nodes[s.current]? = some node) : Linked nodes := by
  cases change with
  | through =>
    exact linked.place atWork (Text.size node.source) .finished rfl (Text.isBoundary_size node.source)
      (by decide) fun _ => rfl
  | begun => exact linked_begun linked atWork
  | wrapped pending requested straight =>
    obtain ⟨target, outside⟩ := canonical.requestedLayout requested
    exact (linked_begun linked atWork).wrap (State.begun_at atWork)
      ((linked.sound atWork).pending_layout pending) (by simp) outside target straight
  | passed scanning found => exact linked_passed linked atWork scanning found
  | spliced scanning found straight =>
    exact (linked_passed linked atWork scanning found).splice (State.passed_at _ atWork)
      (node.normalize_includeTarget _) straight
  | again => exact linked

end Setting

end Templating
