import Templating.Proofs.Machine.Outcome
import Templating.Proofs.Scan.Pieces

namespace Templating

/-- What a turn goes by: the source of a node, how far it is passed, and the phase. -/
def Node.cursor (n : Node) : String × Nat × Phase := (n.source, n.index, n.phase)

/-- All cursors stay where they are, and nodes that come in addition are not begun. -/
structure Adds (nodes later : Array Node) : Prop where
  kept : ∀ {i : NodeId} {n : Node}, nodes[i]? = some n → ∃ m : Node, later[i]? = some m ∧ m.cursor = n.cursor
  fresh : ∀ {i : NodeId} {m : Node}, nodes[i]? = none → later[i]? = some m → m.phase = .pending

/-- The same for all nodes but one. -/
structure Elsewhere (c : NodeId) (nodes later : Array Node) : Prop where
  kept : ∀ {i : NodeId} {n : Node}, i ≠ c → nodes[i]? = some n →
    ∃ m : Node, later[i]? = some m ∧ m.cursor = n.cursor
  fresh : ∀ {i : NodeId} {m : Node}, nodes[i]? = none → later[i]? = some m → m.phase = .pending

namespace Adds
variable {nodes later : Array Node}

theorem refl (nodes : Array Node) : Adds nodes nodes := by
  refine ⟨fun here => ⟨_, here, rfl⟩, fun missing here => ?_⟩
  rw [missing] at here
  cases here

theorem push (nodes : Array Node) {child : Node} (pending : child.phase = .pending) :
    Adds nodes (nodes.push child) := by
  refine ⟨fun here => ⟨_, getElem?_push_of_some child here, rfl⟩, fun missing there => ?_⟩
  rcases getElem?_push_some there with ⟨_, rfl⟩ | here
  · exact pending
  · rw [missing] at here
    cases here

theorem wrapped (nodes : Array Node) (c : NodeId) (target root : Path) (source : String) :
    Adds nodes (Templating.wrapped nodes c target root source) := by
  refine ⟨fun here => ⟨_, getElem?_wrapped_of_some here, by split <;> rfl⟩, fun missing there => ?_⟩
  rcases getElem?_wrapped_some there with ⟨_, rfl⟩ | ⟨n, here, _⟩
  · rfl
  · rw [missing] at here
    cases here

theorem elsewhere {c : NodeId} {f : Node → Node} (adds : Adds (nodes.modify c f) later) :
    Elsewhere c nodes later := by
  refine ⟨fun {i n} other here => ?_, fun {i m} missing there => ?_⟩
  · have same : (nodes.modify c f)[i]? = some n := by rw [getElem?_modify_of_some here, if_neg other.symm]
    exact adds.kept same
  · have still : (nodes.modify c f)[i]? = none := by rw [Array.getElem?_modify, missing, Option.map_none, ite_self]
    exact adds.fresh still there

/-- The cursor of a node that was there is found again among the later nodes, so that two moments can be compared node
by node. -/
theorem same_cursor (adds : Adds nodes later) {i : NodeId} {n : Node} (here : nodes[i]? = some n) :
    later[i]?.map Node.cursor = some n.cursor := by
  obtain ⟨m, there, same⟩ := adds.kept here
  rw [there, Option.map_some, same]

end Adds

/-- What has come out at a moment, and maybe more, has come out at another. -/
def State.Extends (s later : State) : Prop := ∃ r : Run, later.output = s.output ++ r

namespace State.Extends
variable {s later : State}

theorem refl (s : State) : Extends s s := ⟨.empty, (Run.append_empty _).symm⟩

theorem more {last : State} {r : Run} (extend : Extends s later) (output : last.output = later.output ++ r) :
    Extends s last := by
  obtain ⟨earlier, before⟩ := extend
  exact ⟨earlier ++ r, by rw [output, before, Run.append_assoc]⟩

theorem emit (extend : Extends s later) (text : String) (origin : Role) : Extends s (later.emit text origin) :=
  extend.more (output_emit ..)

theorem report (extend : Extends s later) (e : ResolveError) : Extends s (later.report e) :=
  extend.more (output_report ..)

theorem asked (extend : Extends s later) (target : Path) : Extends s (later.asked target) :=
  extend.more (output_asked ..)

end State.Extends

/-- The text of the pieces that are taken as they are. -/
def Piece.literal (source : String) (pieces : List Piece) : String :=
  String.join (pieces.map fun
    | .gap start stop => Text.slice source start stop
    | .hit _ => "")

theorem Piece.literal_nil (source : String) : literal source [] = "" := rfl

theorem Piece.literal_gap (source : String) (start stop : Nat) :
    literal source [.gap start stop] = Text.slice source start stop := by
  simp only [literal, List.map_cons, List.map_nil, String.join_cons, String.join_nil, String.append_empty]

theorem Piece.literal_gap_hit (source : String) (start stop : Nat) (found : Hit) :
    literal source [.gap start stop, .hit found] = Text.slice source start stop := by
  simp only [literal, List.map_cons, List.map_nil, String.join_cons, String.join_nil, String.append_empty]

namespace Setting

/-- The pieces of its source that a node passes in its turn. -/
def passes (setting : Setting) (n : Node) : List Piece :=
  match n.phase with
  | .pending => if setting.scanner.skips n.source then [.gap 0 (Text.size n.source)] else []
  | .scanning =>
    match setting.scanner.next? n.source n.index with
    | none => [.gap n.index (Text.size n.source)]
    | some hit => [.gap n.index hit.start, .hit hit]
  | .finished => []

/-- Where a node stands after its turn. -/
def stands (setting : Setting) (n : Node) : Nat × Phase :=
  match n.phase with
  | .pending =>
    if setting.scanner.skips n.source then (Text.size n.source, .finished) else (n.index, .scanning)
  | .scanning =>
    match setting.scanner.next? n.source n.index with
    | none => (Text.size n.source, .finished)
    | some hit => (hit.stop, .scanning)
  | .finished => (n.index, .finished)

/-- A turn moves the cursor of the node at work, and no other, and sends what it passes literally: gaps as they stand
in the source, and nothing yet for a hit. -/
structure Moves (setting : Setting) (s : State) (node : Node) (later : State) : Prop where
  elsewhere : Elsewhere s.current s.nodes later.nodes
  here : later.nodes[s.current]?.map Node.cursor = some (node.source, setting.stands node)
  sends : ∃ r : Run, later.output =
    s.output ++ .text (Piece.literal node.source (setting.passes node)) node.role ++ r

variable {setting : Setting} {load : Loader} {s later : State} {node : Node}

section Phases
variable {hit : Hit}

theorem passes_skip (pending : node.phase = .pending) (skips : setting.scanner.skips node.source = true) :
    setting.passes node = [.gap 0 (Text.size node.source)] ∧
      setting.stands node = (Text.size node.source, .finished) := by
  simp only [passes, stands, pending, skips, if_true, and_self]

theorem passes_begin (pending : node.phase = .pending) (kept : setting.scanner.skips node.source = false) :
    setting.passes node = [] ∧ setting.stands node = (node.index, .scanning) := by
  simp only [passes, stands, pending, kept, Bool.false_eq_true, if_false, and_self]

/-- Where none is found any more, the node passes the rest of its source at once and is through. -/
theorem passes_tail (scanning : node.phase = .scanning)
    (nothing : setting.scanner.next? node.source node.index = none) :
    setting.passes node = [.gap node.index (Text.size node.source)] ∧
      setting.stands node = (Text.size node.source, .finished) := by
  simp only [passes, stands, scanning, nothing, and_self]

/-- Where a directive is found, the node passes the gap before it and the directive, and stands behind both. -/
theorem passes_hit (scanning : node.phase = .scanning)
    (found : setting.scanner.next? node.source node.index = some hit) :
    setting.passes node = [.gap node.index hit.start, .hit hit] ∧ setting.stands node = (hit.stop, .scanning) := by
  simp only [passes, stands, scanning, found, and_self]

end Phases

namespace Moves

/-- A turn that begins a node passes nothing of it, even if the node gets a layout on this occasion. -/
theorem of_begun (atWork : s.nodes[s.current]? = some node) (pending : node.phase = .pending)
    (kept : setting.scanner.skips node.source = false) (adds : Adds s.begun.nodes later.nodes)
    (output : s.Extends later) : setting.Moves s node later := by
  obtain ⟨nothing, stands⟩ := passes_begin pending kept
  obtain ⟨r, output⟩ := output
  have begun := State.begun_at atWork
  rw [State.current_begun] at begun
  refine ⟨?_, ?_, r, ?_⟩
  · rw [State.nodes_begun] at adds
    exact adds.elsewhere
  · rw [adds.same_cursor begun, stands]
    rfl
  · rw [output, nothing, Piece.literal_nil, Run.text_empty, Run.append_empty]

/-- A turn that passes a hit may add nodes and send more than the gap, as long as no other cursor is moved by it. -/
theorem of_passed (atWork : s.nodes[s.current]? = some node) (scanning : node.phase = .scanning) {hit : Hit}
    (found : setting.scanner.next? node.source node.index = some hit)
    (adds : Adds (s.passed node hit).nodes later.nodes)
    (output : (s.passed node hit).Extends later) : setting.Moves s node later := by
  obtain ⟨passes, stands⟩ := passes_hit scanning found
  obtain ⟨r, output⟩ := output
  have passed := State.passed_at hit atWork
  rw [State.current_passed] at passed
  refine ⟨?_, ?_, r, ?_⟩
  · rw [State.nodes_passed] at adds
    exact adds.elsewhere
  · rw [adds.same_cursor passed, stands, ← scanning]
    rfl
  · rw [output, passes, Piece.literal_gap_hit, State.output_passed]

/-- A turn that brings a node to its end sends what is left of it, be that the whole source or the rest behind the
last hit. -/
theorem of_finish (atWork : s.nodes[s.current]? = some node) {start : Nat}
    (passes : setting.passes node = [.gap start (Text.size node.source)])
    (stands : setting.stands node = (Text.size node.source, .finished)) :
    setting.Moves s node
      ((s.emit (Text.slice node.source start (Text.size node.source)) node.role).finish node) := by
  generalize text : Text.slice node.source start (Text.size node.source) = last
  obtain ⟨r, output, _⟩ := Setting.exists_output_complete
    ((s.emit last node.role).modify fun n => { n with index := Text.size n.source, phase := .finished }) node
  have nodes : ((s.emit last node.role).finish node).nodes = s.nodes.modify s.current fun n =>
      { n with index := Text.size n.source, phase := .finished } := by
    rw [State.nodes_finish, State.nodes_emit, State.current_emit]
  refine ⟨?_, ?_, r, ?_⟩
  · rw [nodes]
    exact (Adds.refl _).elsewhere
  · rw [nodes, getElem?_modify_of_some atWork, if_pos rfl, stands]
    rfl
  · rw [passes, Piece.literal_gap, text, ← State.output_emit]
    exact output

end Moves

/-- Every turn of a node that is not through moves its cursor. -/
theorem Turn.moves (turn : setting.Turn load s node later) (atWork : s.nodes[s.current]? = some node)
    (unfinished : node.phase ≠ .finished) : setting.Moves s node later := by
  cases turn with
  | skip pending skips =>
    obtain ⟨passes, stands⟩ := passes_skip pending skips
    have whole := Moves.of_finish atWork passes stands
    rwa [Text.slice_whole] at whole
  | bare pending kept => exact .of_begun atWork pending kept (.refl _) (.refl _)
  | layoutCircle pending kept => exact .of_begun atWork pending kept (.refl _) ((State.Extends.refl s).report _)
  | layoutUnreadable pending kept =>
    exact .of_begun atWork pending kept (.refl _) (((State.Extends.refl s).asked _).report _)
  | layout pending kept =>
    refine .of_begun atWork pending kept ?_ ((State.Extends.refl s).more State.output_wrap)
    rw [State.nodes_wrap]
    exact .wrapped ..
  | tail scanning nothing =>
    obtain ⟨passes, stands⟩ := passes_tail scanning nothing
    exact .of_finish atWork passes stands
  | data scanning found | slotKept scanning found =>
    refine .of_passed atWork scanning found ?_ ((State.Extends.refl _).emit ..)
    rw [State.nodes_emit]
    exact .refl _
  | decided scanning found | slotPlaced scanning found | slot scanning found =>
    exact .of_passed atWork scanning found (.refl _) (.refl _)
  | spliceCircle scanning found =>
    refine .of_passed atWork scanning found ?_ (((State.Extends.refl _).report _).emit ..)
    rw [State.nodes_emit]
    exact .refl _
  | spliceUnreadable scanning found =>
    refine .of_passed atWork scanning found ?_ ((((State.Extends.refl _).asked _).report _).emit ..)
    rw [State.nodes_emit]
    exact .refl _
  | splice scanning found =>
    exact .of_passed atWork scanning found (.push _ rfl) ((State.Extends.refl _).more State.output_splice)
  | again finished => exact absurd finished unfinished

end Setting

end Templating
