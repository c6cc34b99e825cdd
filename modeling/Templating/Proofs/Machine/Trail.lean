import Templating.Proofs.Machine.Turn

namespace Templating

section Places
variable {nodes : Array Node} {c j : NodeId} {n m child : Node} {f : Node → Node}

theorem lt_size_of_getElem? (atPlace : nodes[j]? = some n) : j < nodes.size :=
  (Array.getElem?_eq_some_iff.mp atPlace).1

/-- What is at a place after a change at one place was there before, unless that place is the changed one. -/
theorem getElem?_modify_some (atPlace : (nodes.modify c f)[j]? = some m) :
    ∃ n, nodes[j]? = some n ∧ m = if c = j then f n else n := by
  rw [Array.getElem?_modify] at atPlace
  split at atPlace
  next same =>
    obtain ⟨n, there, rfl⟩ := Option.map_eq_some_iff.mp atPlace
    exact ⟨n, there, by rw [if_pos same]⟩
  next other => exact ⟨m, atPlace, by rw [if_neg other]⟩

theorem getElem?_modify_of_some (atPlace : nodes[j]? = some n) :
    (nodes.modify c f)[j]? = some (if c = j then f n else n) := by
  rw [Array.getElem?_modify]
  split
  next => rw [atPlace, Option.map_some]
  next => exact atPlace

/-- What is at a place after a node was added is the new node, or was there before. -/
theorem getElem?_push_some (atPlace : (nodes.push child)[j]? = some m) :
    (j = nodes.size ∧ m = child) ∨ nodes[j]? = some m := by
  rw [Array.getElem?_push] at atPlace
  split at atPlace
  next last => exact .inl ⟨last, (Option.some.inj atPlace).symm⟩
  next => exact .inr atPlace

theorem getElem?_push_of_some (child : Node) (atPlace : nodes[j]? = some n) :
    (nodes.push child)[j]? = some n := by
  rw [Array.getElem?_push, if_neg (Nat.ne_of_lt (lt_size_of_getElem? atPlace)), atPlace]

end Places

/-- The sources of a node and of all nodes that repeated links lead to, in order. -/
inductive Trail (nodes : Array Node) (link : Node → Option NodeId) : Option NodeId → List Path → Prop
  | stop : Trail nodes link none []
  | visit {id node srcs} : nodes[id]? = some node → Trail nodes link (link node) srcs →
      Trail nodes link (some id) (node.src :: srcs)

namespace Trail
variable {nodes later : Array Node} {link : Node → Option NodeId} {start : Option NodeId} {srcs : List Path}
  {path : Path}

/-- A chain is followed to the same sources in later nodes, if these keep the source and the link of each. -/
theorem extend (trail : Trail nodes link start srcs)
    (kept : ∀ {i : NodeId} {n : Node}, nodes[i]? = some n →
      ∃ m : Node, later[i]? = some m ∧ m.src = n.src ∧ link m = link n) :
    Trail later link start srcs := by
  induction trail with
  | stop => exact .stop
  | visit atId _ ih =>
    obtain ⟨m, atLater, src, same⟩ := kept atId
    rw [← src]
    exact .visit atLater (same ▸ ih)

/-- The test for a circle looks at the whole chain. Links lead to older nodes, so that as many steps as the place of
the first node counts are enough. -/
theorem onChain_iff {fuel : Nat} (trail : Trail nodes link start srcs)
    (older : ∀ {i j : NodeId} {n : Node}, nodes[i]? = some n → link n = some j → j < i)
    (enough : ∀ i ∈ start, i < fuel) :
    start.any (State.onChain nodes link path fuel) = true ↔ path ∈ srcs := by
  induction trail generalizing fuel with
  | stop => simp
  | @visit id node srcs atId _ ih =>
    have bound : id < fuel := enough id rfl
    obtain ⟨fuel, rfl⟩ := Nat.exists_eq_succ_of_ne_zero (Nat.ne_of_gt (Nat.zero_lt_of_lt bound))
    have rest : (link node).any (State.onChain nodes link path fuel) = true ↔ path ∈ srcs :=
      ih fun j link => Nat.lt_of_lt_of_le (older atId link) (Nat.le_of_lt_succ bound)
    rw [Option.any_some, State.onChain, atId]
    simp only [Bool.or_eq_true, beq_iff_eq, rest, List.mem_cons]
    exact or_congr_left eq_comm

/-- With as many steps as there are nodes the test for a circle finds every source of the chain, and no other. -/
theorem onChain_size_iff {id : NodeId} (trail : Trail nodes link (some id) srcs)
    (older : ∀ {i j : NodeId} {n : Node}, nodes[i]? = some n → link n = some j → j < i) :
    State.onChain nodes link path nodes.size id = true ↔ path ∈ srcs := by
  have inside : id < nodes.size := by
    cases trail with
    | visit atId _ => exact lt_size_of_getElem? atId
  exact trail.onChain_iff older fun i same => Option.some.inj same ▸ inside

/-- A chain with a new source in front has no source twice, if the test for a circle has not found that source on the
chain. -/
theorem extended {c j : NodeId} {child : Node} (trail : Trail nodes link (some c) srcs)
    (distinct : srcs.Nodup)
    (older : ∀ {i j : NodeId} {n : Node}, nodes[i]? = some n → link n = some j → j < i)
    (straight : State.onChain nodes link child.src nodes.size c = false)
    (kept : ∀ {i : NodeId} {n : Node}, nodes[i]? = some n →
      ∃ m : Node, later[i]? = some m ∧ m.src = n.src ∧ link m = link n)
    (atChild : later[j]? = some child) (toWork : link child = some c) :
    ∃ srcs, Trail later link (some j) srcs ∧ srcs.Nodup := by
  have absent : child.src ∉ srcs := by
    rw [← trail.onChain_size_iff older, straight]
    decide
  have longer : Trail later link (some j) (child.src :: srcs) := .visit atChild (toWork ▸ trail.extend kept)
  exact ⟨_, longer, List.nodup_cons.mpr ⟨absent, distinct⟩⟩

end Trail

end Templating
