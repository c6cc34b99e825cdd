import Templating.Proofs.Control.Stack

namespace Templating

theorem Node.fresh_src (n : Node) : n.fresh.src = n.src := rfl

namespace Situated
variable {s : State} {n m : Node} {includers : List Path} {filling : Filling} {waiting : List Frame}

/-- Beginning to scan a node changes its phase alone, and so nothing of what its links stand for. -/
theorem begun (situated : Situated s.nodes s.current n includers filling waiting) (linked : Linked s.nodes) :
    Situated s.begun.nodes s.begun.current { n with phase := .scanning } includers filling waiting := by
  have grown : Grown s.nodes s.begun.nodes s.current := by
    rw [State.nodes_begun]
    exact .modify _ fun _ => rfl
  exact situated.grown linked grown (State.begun_at situated.here) rfl

/-- Passing a hit moves the cursor of the node at work alone; the texts around it and those that wait for it are the
same. -/
theorem passed (situated : Situated s.nodes s.current n includers filling waiting) (linked : Linked s.nodes)
    (hit : Hit) :
    Situated (s.passed n hit).nodes (s.passed n hit).current { n with index := hit.stop } includers filling
      waiting := by
  have grown : Grown s.nodes (s.passed n hit).nodes s.current := by
    rw [State.nodes_passed]
    exact .modify _ fun _ => rfl
  have here := State.passed_at hit situated.here
  rw [State.current_passed] at here ⊢
  exact situated.grown linked grown here rfl

/-- A text that is not through gives control to a text that it includes. In the stack this is a new frame on top of
its own, with its source on the chain. -/
theorem splice (situated : Situated s.nodes s.current n includers filling waiting) (linked : Linked s.nodes)
    (going : s.ended = false) (scanning : n.phase = .scanning) (path : Path) (source : String) :
    Represents (s.splice n path source) (.entered ⟨n.src :: includers, .nothing,
      .new path n.root source .included, 0⟩ (⟨includers, filling, n.fresh, n.index⟩ :: waiting)) := by
  let child : Node := { Node.new path n.root source .included with parent := some s.current }
  have grown : Grown s.nodes (s.nodes.push child) s.current := .push _ _ _
  have kept := situated.grown linked grown (getElem?_push_of_some child situated.here) rfl
  have here : (s.nodes.push child)[s.nodes.size]? = some child := by rw [Array.getElem?_push, if_pos rfl]
  have later : (s.splice n path source).ended = false := going
  exact .entered (n := child) later rfl rfl ⟨here, .visit kept.here kept.trail, .waiting .stop,
    .includer here rfl kept.here scanning kept.trail kept.fills kept.returns⟩

/-- A layout gives control to the node that it wraps. Its own slot is then taken, so that no second slot of it can
show the node again. -/
theorem goto (situated : Situated s.nodes s.current n includers filling waiting) (linked : Linked s.nodes)
    (going : s.ended = false) (scanning : n.phase = .scanning) {w : NodeId} (link : n.slot = some w)
    {inner : Node} {more : List Node} (offered : filling = .wrapped inner more) :
    Represents (s.goto w) (.scanning ⟨[], .ofList more, inner, 0⟩
      (⟨includers, .placed, n.fresh, n.index⟩ :: waiting)) := by
  obtain ⟨m, there, layout, outside⟩ := linked.slot_at situated.here link
  have isLayout := (linked.sound situated.here).slot_iff.mp (by rw [link]; rfl)
  have alone : n.parent = none := (linked.sound situated.here).parent_none (by rw [isLayout]; decide)
  have trail := situated.trail
  rw [alone] at trail
  cases trail
  have fills := situated.fills
  rw [offered, link] at fills
  have waits : Waits s.nodes (some w) (inner :: more) := fills.waits
  generalize offered : inner :: more = nodes at waits
  cases waits with
  | visit again _ begun atStart waits =>
    cases Option.some.inj (again.symm.trans there)
    cases offered
    have parent := (linked.sound there).parent_none outside
    rw [← atStart]
    exact .scanning going begun ⟨there, parent ▸ .stop, .waiting waits,
      .layout there layout situated.here scanning situated.returns⟩

/-- A node gives control to its new layout and waits inside it, before anything of its text has been scanned. -/
theorem wrap {inner : List Node} (situated : Situated s.nodes s.current n [] (.ofList inner) [])
    (linked : Linked s.nodes) (going : s.ended = false) (scanning : n.phase = .scanning)
    (atStart : n.index = 0) (outside : n.role ≠ .included) (target : Path) (source : String) :
    Represents (s.wrap n target source) (.outer (n.fresh :: inner) (.new target n.root source .layout)) := by
  let outer : Node := { Node.new target n.root source .layout with slot := some s.current }
  have here : (wrapped s.nodes s.current target n.root source)[s.nodes.size]? = some outer :=
    getElem?_wrapped_size ..
  let body : Node := { n with layout := some s.nodes.size, layoutTarget := some target }
  have inside : (wrapped s.nodes s.current target n.root source)[s.current]? = some body := by
    rw [getElem?_wrapped_of_some situated.here, if_pos rfl]
  have waits : Waits (wrapped s.nodes s.current target n.root source) n.slot inner := by
    refine situated.fills.waits.kept linked fun {i m} there _ bound => ?_
    obtain ⟨w, link, bound⟩ := bound
    have older := Nat.lt_of_le_of_lt bound (linked.slot_older situated.here link)
    rw [getElem?_wrapped_of_some there, if_neg (Nat.ne_of_gt older)]
  have later : (s.wrap n target source).ended = false := going
  have current : (s.wrap n target source).current = s.nodes.size := Array.size_modify
  refine .outer (n := outer) later rfl nofun ?_
  rw [current]
  have fills : Waits (wrapped s.nodes s.current target n.root source) outer.slot (n.fresh :: inner) :=
    .visit (n := body) inside outside scanning atStart waits
  exact ⟨here, .stop, .waiting fills, .outermost here rfl rfl⟩

end Situated

section Circles
variable {nodes : Array Node} {id : NodeId} {n : Node}

/-- The sources of the nodes that wait to be wrapped are those met along the slots, in the same order. -/
theorem Waits.trail {start : Option NodeId} {inner : List Node} (waits : Waits nodes start inner) :
    Trail nodes Node.slot start (inner.map Node.src) := by
  induction waits with
  | stop => exact .stop
  | visit here _ _ _ _ ih =>
    have trail := Trail.visit here ih
    exact trail

/-- The test for a circle of inclusions looks at the text and all that include it, and at nothing else: a text may be
included twice side by side. -/
theorem Situated.includesItself_iff {s : State} {includers : List Path} {filling : Filling}
    {waiting : List Frame} (situated : Situated s.nodes s.current n includers filling waiting)
    (linked : Linked s.nodes) (path : Path) :
    s.includesItself path = true ↔ n.src = path ∨ path ∈ includers := by
  have trail := Trail.visit situated.here situated.trail
  rw [State.includesItself, trail.onChain_size_iff linked.parent_older, List.mem_cons, eq_comm]

/-- The test for a circle of layouts looks at the text and all that it wraps; what these include does not count. -/
theorem Situated.wrapsItself_eq {s : State} {inner : List Node} {waiting : List Frame}
    (situated : Situated s.nodes s.current n [] (.ofList inner) waiting) (linked : Linked s.nodes)
    (path : Path) : s.wrapsItself path = (n.fresh :: inner).any (·.src == path) := by
  have trail := Trail.visit situated.here situated.fills.waits.trail
  rw [Bool.eq_iff_iff, State.wrapsItself, trail.onChain_size_iff linked.slot_older, List.any_eq_true]
  simp only [List.mem_cons, List.mem_map, beq_iff_eq, exists_eq_or_imp, Node.fresh_src]
  exact or_congr_left eq_comm

end Circles

end Templating
