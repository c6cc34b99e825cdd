import Templating.Proofs.Machine.Links

namespace Templating

/-- How far a phase has come. -/
def Phase.rank : Phase → Nat
  | .pending => 0
  | .scanning => 1
  | .finished => 2

theorem Phase.rank_le (phase : Phase) : phase.rank ≤ 2 := by cases phase <;> decide

/-- Every node is still there, and its phase is no earlier. -/
structure Onward (nodes later : Array Node) : Prop where
  kept : ∀ {i : NodeId} {n : Node}, nodes[i]? = some n →
    ∃ m : Node, later[i]? = some m ∧ n.phase.rank ≤ m.phase.rank

namespace Onward
variable {nodes middle later : Array Node}

theorem refl (nodes : Array Node) : Onward nodes nodes := ⟨fun here => ⟨_, here, Nat.le_refl _⟩⟩

theorem trans (first : Onward nodes middle) (second : Onward middle later) : Onward nodes later := by
  refine ⟨fun here => ?_⟩
  obtain ⟨m, there, le⟩ := first.kept here
  obtain ⟨k, last, more⟩ := second.kept there
  exact ⟨k, last, Nat.le_trans le more⟩

/-- A change at one place goes onward if it does so with the node that is there. -/
theorem modify {c : NodeId} {f : Node → Node}
    (forward : ∀ n, nodes[c]? = some n → n.phase.rank ≤ (f n).phase.rank) :
    Onward nodes (nodes.modify c f) := by
  refine ⟨fun {i n} here => ⟨_, getElem?_modify_of_some here, ?_⟩⟩
  split
  next same =>
    subst same
    exact forward n here
  next => exact Nat.le_refl _

theorem push (nodes : Array Node) (child : Node) : Onward nodes (nodes.push child) :=
  ⟨fun here => ⟨_, getElem?_push_of_some child here, Nat.le_refl _⟩⟩

theorem begun {s : State} {node : Node} (atWork : s.nodes[s.current]? = some node)
    (pending : node.phase = .pending) : Onward s.nodes s.begun.nodes := by
  rw [State.nodes_begun]
  refine modify fun n here => ?_
  cases Option.some.inj (here.symm.trans atWork)
  rw [pending]
  exact Nat.zero_le _

theorem passed (s : State) (node : Node) (hit : Hit) : Onward s.nodes (s.passed node hit).nodes := by
  rw [State.nodes_passed]
  exact modify fun n _ => Nat.le_refl n.phase.rank

/-- A node that is through has come as far as a phase can, wherever it stood before. -/
theorem through (nodes : Array Node) (c : NodeId) :
    Onward nodes (nodes.modify c fun n => { n with index := Text.size n.source, phase := .finished }) :=
  modify fun n _ => n.phase.rank_le

theorem wrap (s : State) (node : Node) (target : Path) (source : String) :
    Onward s.nodes (s.wrap node target source).nodes := by
  rw [State.nodes_wrap, wrapped]
  refine trans ?_ (push _ _)
  exact modify fun n _ => Nat.le_refl n.phase.rank

end Onward

/-- Every node whose layout is decided is still there, with the same layout. -/
structure KeepsLayouts (nodes later : Array Node) : Prop where
  kept : ∀ {i : NodeId} {n : Node}, nodes[i]? = some n → n.phase ≠ .pending →
    ∃ m : Node, later[i]? = some m ∧ m.phase ≠ .pending ∧ m.layout = n.layout

namespace KeepsLayouts
variable {nodes middle later : Array Node}

theorem refl (nodes : Array Node) : KeepsLayouts nodes nodes := ⟨fun here begun => ⟨_, here, begun, rfl⟩⟩

theorem trans (first : KeepsLayouts nodes middle) (second : KeepsLayouts middle later) :
    KeepsLayouts nodes later := by
  refine ⟨fun here begun => ?_⟩
  obtain ⟨m, there, still, same⟩ := first.kept here begun
  obtain ⟨k, last, after, again⟩ := second.kept there still
  exact ⟨k, last, after, again.trans same⟩

theorem modify {c : NodeId} {f : Node → Node}
    (keeps : ∀ n, n.phase ≠ .pending → (f n).phase ≠ .pending ∧ (f n).layout = n.layout) :
    KeepsLayouts nodes (nodes.modify c f) := by
  refine ⟨fun {i n} here begun => ⟨_, getElem?_modify_of_some here, ?_⟩⟩
  split
  · exact keeps n begun
  · exact ⟨begun, rfl⟩

theorem push (nodes : Array Node) (child : Node) : KeepsLayouts nodes (nodes.push child) :=
  ⟨fun here begun => ⟨_, getElem?_push_of_some child here, begun, rfl⟩⟩

theorem begun (s : State) : KeepsLayouts s.nodes s.begun.nodes := by
  rw [State.nodes_begun]
  exact modify fun n _ => ⟨nofun, rfl⟩

theorem passed (s : State) (node : Node) (hit : Hit) : KeepsLayouts s.nodes (s.passed node hit).nodes := by
  rw [State.nodes_passed]
  exact modify fun n begun => ⟨begun, rfl⟩

theorem through (nodes : Array Node) (c : NodeId) :
    KeepsLayouts nodes (nodes.modify c fun n => { n with index := Text.size n.source, phase := .finished }) :=
  modify fun _ _ => ⟨nofun, rfl⟩

-- Only a node that is not begun gets a layout.
/-- A layout is given to a node that has not been begun, so that no layout which is decided changes. -/
theorem wrap {s : State} {node : Node} (atWork : s.nodes[s.current]? = some node)
    (pending : node.phase = .pending) (target : Path) (source : String) :
    KeepsLayouts s.nodes (s.begun.wrap node target source).nodes := by
  refine ⟨fun {i n} here begun => ?_⟩
  have other : s.current ≠ i := by
    rintro rfl
    cases Option.some.inj (here.symm.trans atWork)
    exact begun pending
  refine ⟨n, ?_, begun, rfl⟩
  have before : s.begun.nodes[i]? = some n := by
    rw [State.nodes_begun, getElem?_modify_of_some here, if_neg other]
  rw [State.nodes_wrap, getElem?_wrapped_of_some before, State.current_begun, if_neg other]

end KeepsLayouts

namespace Setting
variable {setting : Setting} {load : Loader} {s : State} {node : Node} {nodes : Array Node}

theorem Change.onward (change : setting.Change load s node nodes) (atWork : s.nodes[s.current]? = some node) :
    Onward s.nodes nodes := by
  cases change with
  | through => exact .through ..
  | begun pending => exact .begun atWork pending
  | wrapped pending => exact (Onward.begun atWork pending).trans (.wrap ..)
  | passed => exact .passed ..
  | spliced => exact (Onward.passed ..).trans (.push _ _)
  | again => exact .refl _

/-- The layout of a node is decided when it is begun, and no turn changes it later. -/
theorem Change.keepsLayouts (change : setting.Change load s node nodes)
    (atWork : s.nodes[s.current]? = some node) : KeepsLayouts s.nodes nodes := by
  cases change with
  | through => exact .through ..
  | begun => exact .begun s
  | wrapped pending => exact .wrap atWork pending ..
  | passed => exact .passed ..
  | spliced => exact (KeepsLayouts.passed ..).trans (.push _ _)
  | again => exact .refl _

/-- The first turn of a node takes it out of the phase in which nodes wait to be begun, whatever becomes of its
layout. -/
theorem Change.begins (change : setting.Change load s node nodes) (atWork : s.nodes[s.current]? = some node)
    (pending : node.phase = .pending) : ∃ m, nodes[s.current]? = some m ∧ 1 ≤ m.phase.rank := by
  have begun : s.begun.nodes[s.current]? = some { node with phase := .scanning } := State.begun_at atWork
  cases change with
  | through =>
    rw [getElem?_modify_of_some atWork, if_pos rfl]
    exact ⟨_, rfl, Nat.le_succ 1⟩
  | begun => exact ⟨_, begun, Nat.le_refl 1⟩
  | wrapped => exact (Onward.wrap s.begun node _ _).kept begun
  | passed other | spliced other | again other =>
    rw [pending] at other
    cases other

end Setting

end Templating
