import Templating.Proofs.Control.Basic
import Templating.Proofs.Machine.Links

namespace Templating

/-- The node as it was when it was new. -/
def Node.fresh (n : Node) : Node := .new n.src n.root n.source n.role

/-- The nodes that wait to be wrapped, from one on along its slots, the nearest first. Their layouts
are decided, and no text of them is through. -/
inductive Waits (nodes : Array Node) : Option NodeId → List Node → Prop
  | stop : Waits nodes none []
  | visit {id n inner} : nodes[id]? = some n → n.role ≠ .included → n.phase = .scanning →
      n.index = 0 → Waits nodes n.slot inner → Waits nodes (some id) (n.fresh :: inner)

/-- What a slot has to offer. -/
inductive Fills (nodes : Array Node) : Option NodeId → Filling → Prop
  | waiting {slot inner} : Waits nodes slot inner → Fills nodes slot (.ofList inner)
  | placed {id n} : nodes[id]? = some n → n.role ≠ .included → n.phase = .finished →
      Fills nodes (some id) .placed

/-- The frames that get control back when a node is through. -/
inductive Returns (nodes : Array Node) : NodeId → List Frame → Prop
  | outermost {id n} : nodes[id]? = some n → n.layout = none → n.parent = none → Returns nodes id []
  | layout {id n l m waiting} : nodes[id]? = some n → n.layout = some l → nodes[l]? = some m →
      m.phase = .scanning → Returns nodes l waiting →
      Returns nodes id (⟨[], .placed, m.fresh, m.index⟩ :: waiting)
  | includer {id n p m includers filling waiting} : nodes[id]? = some n → n.parent = some p →
      nodes[p]? = some m → m.phase = .scanning → Trail nodes Node.parent m.parent includers →
      Fills nodes m.slot filling → Returns nodes p waiting →
      Returns nodes id (⟨includers, filling, m.fresh, m.index⟩ :: waiting)

/-- A node with all that its links stand for. -/
structure Situated (nodes : Array Node) (id : NodeId) (n : Node) (includers : List Path)
    (filling : Filling) (waiting : List Frame) : Prop where
  here : nodes[id]? = some n
  trail : Trail nodes Node.parent n.parent includers
  fills : Fills nodes n.slot filling
  returns : Returns nodes id waiting

/-- The stack that a moment stands for. -/
inductive Represents (s : State) : Control → Prop
  | outer {n inner} : s.ended = false → n.phase = .pending → n.role ≠ .included →
      Situated s.nodes s.current n [] (.ofList inner) [] → Represents s (.outer inner n.fresh)
  | entered {n includers waiting} : s.ended = false → n.phase = .pending → n.role = .included →
      Situated s.nodes s.current n includers .nothing waiting →
      Represents s (.entered ⟨includers, .nothing, n.fresh, 0⟩ waiting)
  | scanning {n includers filling waiting} : s.ended = false → n.phase = .scanning →
      Situated s.nodes s.current n includers filling waiting →
      Represents s (.scanning ⟨includers, filling, n.fresh, n.index⟩ waiting)
  | done : s.ended = true → Represents s .done

/-- Nothing is different but the cursor of one node and what comes behind all nodes. -/
structure Grown (nodes later : Array Node) (c : NodeId) : Prop where
  links : ∀ {i : NodeId} {n : Node}, nodes[i]? = some n →
    ∃ m : Node, later[i]? = some m ∧ m.links = n.links
  others : ∀ {i : NodeId} {n : Node}, nodes[i]? = some n → i ≠ c → later[i]? = some n

/-- A change to the cursor of one node leaves the links of all nodes as they are. -/
theorem Grown.modify {nodes : Array Node} (c : NodeId) {f : Node → Node}
    (same : ∀ n, (f n).links = n.links) : Grown nodes (nodes.modify c f) c where
  links atPlace := ⟨_, getElem?_modify_of_some atPlace, by split <;> simp only [same]⟩
  others atPlace other := by rw [getElem?_modify_of_some atPlace, if_neg (Ne.symm other)]

/-- A new node behind all others leaves these as they are, and no link leads to it yet. -/
theorem Grown.push (nodes : Array Node) (child : Node) (c : NodeId) : Grown nodes (nodes.push child) c where
  links atPlace := ⟨_, getElem?_push_of_some child atPlace, rfl⟩
  others atPlace _ := getElem?_push_of_some child atPlace

/-- Control goes back from higher to lower ranks: from an included text to what was there before it,
and then outwards to the layouts that were added later. -/
def Node.rank (n : Node) (id : NodeId) : Int := if n.role = .included then id else -id

section Nodes
variable {nodes later : Array Node} {c id : NodeId} {n m : Node} {includers : List Path}
  {filling : Filling} {waiting : List Frame}

/-- A layout has a lower rank than what it wraps, so that control goes outwards when a page or layout is through. -/
theorem Linked.rank_layout (linked : Linked nodes) (here : nodes[id]? = some n) {l : NodeId}
    (link : n.layout = some l) (there : nodes[l]? = some m) : m.rank l < n.rank id := by
  obtain ⟨m', there', _, role, newer⟩ := linked.layout_at here link
  cases Option.some.inj (there.symm.trans there')
  rw [Node.rank, Node.rank, if_neg ((linked.sound here).outside_of_layout link), if_neg (by rw [role]; decide)]
  exact Int.neg_lt_neg (Int.ofNat_lt.mpr newer)

/-- A text has a lower rank than those that it includes, so that control goes back to the includer when one of them is
through. -/
theorem Linked.rank_parent (linked : Linked nodes) (here : nodes[id]? = some n) {p : NodeId}
    (link : n.parent = some p) : m.rank p < n.rank id := by
  have older := Int.ofNat_lt.mpr (linked.parent_older here link)
  rw [Node.rank, Node.rank, if_pos ((linked.sound here).included link)]
  split <;> omega

/-- The nodes that wait to be wrapped are the same after a change elsewhere. Only nodes up to the first of them count,
and no included ones. -/
theorem Waits.kept {start : Option NodeId} {inner : List Node} (waits : Waits nodes start inner)
    (linked : Linked nodes)
    (kept : ∀ {i : NodeId} {n : Node}, nodes[i]? = some n → n.role ≠ .included →
      (∃ w ∈ start, i ≤ w) → later[i]? = some n) : Waits later start inner := by
  induction waits with
  | stop => exact .stop
  | visit here outside scanning atStart _ ih =>
    refine .visit (kept here outside ⟨_, rfl, Nat.le_refl _⟩) outside scanning atStart (ih ?_)
    rintro i n there role ⟨w, link, bound⟩
    exact kept there role ⟨_, rfl, Nat.le_trans bound (Nat.le_of_lt (linked.slot_older here link))⟩

/-- What a slot has to offer is the same after a change that leaves these nodes alone. -/
theorem Fills.kept {slot : Option NodeId} (fills : Fills nodes slot filling) (linked : Linked nodes)
    (kept : ∀ {i : NodeId} {n : Node}, nodes[i]? = some n → n.role ≠ .included →
      (∃ w ∈ slot, i ≤ w) → later[i]? = some n) : Fills later slot filling := by
  cases fills with
  | waiting waits => exact .waiting (waits.kept linked kept)
  | placed here outside finished =>
    exact .placed (kept here outside ⟨_, rfl, Nat.le_refl _⟩) outside finished

theorem Fills.waits {slot : Option NodeId} {inner : List Node} (fills : Fills nodes slot (.ofList inner)) :
    Waits nodes slot inner := by
  generalize offered : Filling.ofList inner = filling at fills
  cases fills with
  | @waiting _ others waits =>
    cases inner <;> cases others <;> cases offered
    · exact waits
    · exact waits
  | placed => cases inner <;> cases offered

/-- A slot has nothing left to offer exactly when the node in it is through. Before that it offers this node with all
that it wraps in turn. -/
theorem Fills.of_slot {w : NodeId} (fills : Fills nodes (some w) filling) :
    (filling = .placed ∧ (nodes[w]?).any (·.phase == .finished) = true) ∨
      ∃ inner more, filling = .wrapped inner more ∧ (nodes[w]?).any (·.phase == .finished) = false := by
  cases fills with
  | waiting waits =>
    cases waits with
    | visit here _ scanning _ _ => exact .inr ⟨_, _, rfl, by rw [here, Option.any_some, scanning]; rfl⟩
  | placed here _ finished => exact .inl ⟨rfl, by rw [here, Option.any_some, finished]; rfl⟩

/-- What waits to be wrapped by a node is the same after a change to the node itself or to an included text, since
neither is among those that wait. -/
theorem Fills.grown (linked : Linked nodes) (grown : Grown nodes later c) (here : nodes[id]? = some n)
    (fills : Fills nodes n.slot filling)
    (apart : c = id ∨ ∃ k, nodes[c]? = some k ∧ k.role = .included) : Fills later n.slot filling := by
  refine fills.kept linked fun {i m} there outside bound => grown.others there ?_
  rintro rfl
  rcases apart with rfl | ⟨k, there', included⟩
  · obtain ⟨w, link, bound⟩ := bound
    exact absurd (linked.slot_older here link) (Nat.not_lt.mpr bound)
  · cases Option.some.inj (there.symm.trans there')
    exact outside included

theorem Trail.grown {start : Option NodeId} {srcs : List Path} (trail : Trail nodes Node.parent start srcs)
    (grown : Grown nodes later c) : Trail later Node.parent start srcs :=
  trail.extend fun there =>
    have ⟨m, after, links⟩ := grown.links there
    ⟨m, after, (congrArg Node.src links :), (congrArg Node.parent links :)⟩

/-- The frames that wait for a node are the same after a change to a node of its rank or above; by induction on the
frames, which have ever lower ranks. -/
theorem Returns.grown (returns : Returns nodes id waiting) (linked : Linked nodes)
    (grown : Grown nodes later c) {k : Node} (changed : nodes[c]? = some k) (here : nodes[id]? = some n)
    (rank : n.rank id ≤ k.rank c) : Returns later id waiting := by
  -- Ranks fall from a node to the one that waits for it, so the changed node is not met again.
  have below {i : NodeId} {n : Node} (there : nodes[i]? = some n) (lower : n.rank i < k.rank c) :
      later[i]? = some n := by
    refine grown.others there ?_
    rintro rfl
    cases Option.some.inj (there.symm.trans changed)
    exact absurd lower (Int.lt_irrefl _)
  obtain ⟨renewed, after, links⟩ := grown.links here
  induction returns generalizing n renewed with
  | outermost again bare alone =>
    cases Option.some.inj (again.symm.trans here)
    exact .outermost after ((congrArg Node.layout links :).trans bare)
      ((congrArg Node.parent links :).trans alone)
  | @layout _ _ l m _ again link there scanning _ ih =>
    cases Option.some.inj (again.symm.trans here)
    have lower : m.rank l < k.rank c := Int.lt_of_lt_of_le (linked.rank_layout here link there) rank
    have kept := below there lower
    exact .layout after ((congrArg Node.layout links :).trans link) kept scanning
      (ih there (Int.le_of_lt lower) m kept rfl)
  | @includer _ _ p m _ _ _ again link there scanning trail fills _ ih =>
    cases Option.some.inj (again.symm.trans here)
    have lower : m.rank p < k.rank c := Int.lt_of_lt_of_le (linked.rank_parent here link) rank
    have kept := below there lower
    -- Only included texts rank as high as one; so no slot that waits can lead to the changed node.
    have included : k.role = .included := by
      by_contra outside
      rw [Node.rank, Node.rank, if_pos ((linked.sound here).included link), if_neg outside] at rank
      have older := Int.ofNat_lt.mpr (linked.parent_older here link)
      omega
    exact .includer after ((congrArg Node.parent links :).trans link) kept scanning (trail.grown grown)
      (fills.grown linked grown there (.inr ⟨k, changed, included⟩)) (ih there (Int.le_of_lt lower) m kept rfl)

/-- All that the links of a node stand for is the same after a change to its cursor and a new node behind all others.
-/
theorem Situated.grown (situated : Situated nodes id n includers filling waiting) (linked : Linked nodes)
    (grown : Grown nodes later id) (after : later[id]? = some m) (same : m.links = n.links) :
    Situated later id m includers filling waiting where
  here := after
  trail := by
    have link : m.parent = n.parent := (congrArg Node.parent same :)
    exact link ▸ situated.trail.grown grown
  fills := by
    have link : m.slot = n.slot := (congrArg Node.slot same :)
    exact link ▸ situated.fills.grown linked grown situated.here (.inl rfl)
  returns := situated.returns.grown linked grown situated.here situated.here (Int.le_refl _)

end Nodes

end Templating
