import Templating.Expansion

namespace Templating

/-- The error that an event reports, if it reports one. -/
def Event.error? : Event → Option ResolveError
  | .error e => some e
  | .data _ _ | .finish => none

/-- The errors that a run reports, in order. -/
def Run.errors (r : Run) : List ResolveError := r.events.filterMap Event.error?

namespace Run

theorem append_eq (a b : Run) : a ++ b = ⟨a.events ++ b.events, a.loads ++ b.loads⟩ := rfl

@[simp] theorem empty_append (r : Run) : empty ++ r = r := rfl

@[simp] theorem append_empty (r : Run) : r ++ empty = r := by
  simp only [append_eq, empty, List.append_nil]

theorem append_assoc (a b c : Run) : a ++ b ++ c = a ++ (b ++ c) := by
  simp only [append_eq, List.append_assoc]

@[simp] theorem errors_append (a b : Run) : (a ++ b).errors = a.errors ++ b.errors :=
  List.filterMap_append

@[simp] theorem errors_text (text : String) (origin : Role) : (Run.text text origin).errors = [] := by
  unfold Run.text Event.ofText?
  split <;> rfl

theorem text_empty (origin : Role) : Run.text "" origin = .empty := rfl

theorem events_text {text : String} (filled : text ≠ "") (origin : Role) :
    (Run.text text origin).events = [.data text origin] := by
  rw [Run.text, Event.ofText?, if_neg filled]
  rfl

@[simp] theorem loads_append (a b : Run) : (a ++ b).loads = a.loads ++ b.loads := rfl

@[simp] theorem events_append (a b : Run) : (a ++ b).events = a.events ++ b.events := rfl

/-- Nothing is asked for and no error is reported. -/
structure Quiet (r : Run) : Prop where
  loads : r.loads = []
  errors : r.errors = []

namespace Quiet

theorem empty : Run.empty.Quiet := ⟨rfl, rfl⟩

theorem text (text : String) (origin : Role) : (Run.text text origin).Quiet := ⟨rfl, errors_text text origin⟩

theorem finish : Quiet ⟨[.finish], []⟩ := ⟨rfl, rfl⟩

theorem append {a b : Run} (first : a.Quiet) (second : b.Quiet) : (a ++ b).Quiet :=
  ⟨by rw [loads_append, first.loads, second.loads, List.nil_append],
    by rw [errors_append, first.errors, second.errors, List.nil_append]⟩

end Quiet

end Run

namespace State

/-- What has come out so far. -/
def output (s : State) : Run := ⟨s.sent.toList, s.loads.toList⟩

section Operations
variable (s : State) (text : String) (origin : Role) (e : ResolveError) (target : Path)
  (f : Node → Node) (node : Node)

@[simp] theorem nodes_emit : (s.emit text origin).nodes = s.nodes := by unfold emit; split <;> rfl

@[simp] theorem current_emit : (s.emit text origin).current = s.current := by unfold emit; split <;> rfl

@[simp] theorem ended_emit : (s.emit text origin).ended = s.ended := by unfold emit; split <;> rfl

@[simp] theorem output_emit : (s.emit text origin).output = s.output ++ .text text origin := by
  unfold emit Run.text
  split <;> rename_i found <;> simp only [found, output, Run.append_eq, Array.toList_push,
    Option.toList, List.append_nil]

@[simp] theorem output_report : (s.report e).output = s.output ++ .error e := by
  simp only [report, output, Run.error, Run.append_eq, Array.toList_push, List.append_nil]

@[simp] theorem output_asked : (s.asked target).output = s.output ++ .asked target := by
  simp only [asked, output, Run.asked, Run.append_eq, Array.toList_push, List.append_nil]

@[simp] theorem nodes_modify : (s.modify f).nodes = s.nodes.modify s.current f := rfl

@[simp] theorem current_modify : (s.modify f).current = s.current := rfl

@[simp] theorem ended_modify : (s.modify f).ended = s.ended := rfl

@[simp] theorem output_modify : (s.modify f).output = s.output := rfl

@[simp] theorem nodes_complete : (s.complete node).nodes = s.nodes := by unfold complete; split <;> rfl

@[simp] theorem nodes_finish :
    (s.finish node).nodes =
      s.nodes.modify s.current fun n => { n with index := Text.size n.source, phase := .finished } :=
  nodes_complete _ node

end Operations

/-- The node at work has its layout decided. -/
def begun (s : State) : State := s.modify fun n => { n with phase := .scanning }

/-- The text before a hit is sent and the hit is passed. -/
def passed (s : State) (node : Node) (hit : Hit) : State :=
  (s.emit (Text.slice node.source node.index hit.start) node.role).modify fun n =>
    { n with index := hit.stop }

/-- The node at work gets a layout, which goes to work. -/
def wrap (s : State) (node : Node) (target : Path) (source : String) : State :=
  ((s.asked target).modify fun n =>
    { n with layout := some s.nodes.size, layoutTarget := some target }).enter
    { Node.new target node.root source .layout with slot := some s.current }

/-- A text that the node at work includes goes to work. -/
def splice (s : State) (node : Node) (target : Path) (source : String) : State :=
  (s.asked target).enter { Node.new target node.root source .included with parent := some s.current }

section Turns
variable {s : State} {node : Node} (hit : Hit) {target : Path} {source : String}

@[simp] theorem current_begun : s.begun.current = s.current := rfl

theorem nodes_begun : s.begun.nodes = s.nodes.modify s.current fun n => { n with phase := .scanning } := rfl

theorem nodes_passed :
    (s.passed node hit).nodes = s.nodes.modify s.current fun n => { n with index := hit.stop } := by
  simp only [passed, nodes_modify, nodes_emit, current_emit]

@[simp] theorem current_passed : (s.passed node hit).current = s.current := by
  simp only [passed, current_modify, current_emit]

@[simp] theorem ended_passed : (s.passed node hit).ended = s.ended := by
  simp only [passed, ended_modify, ended_emit]

@[simp] theorem output_passed :
    (s.passed node hit).output =
      s.output ++ .text (Text.slice node.source node.index hit.start) node.role := by
  simp only [passed, output_modify, output_emit]

/-- The node at work is still at work after it has been begun, and only its phase differs. -/
theorem begun_at (atWork : s.nodes[s.current]? = some node) :
    s.begun.nodes[s.begun.current]? = some { node with phase := .scanning } := by
  rw [nodes_begun, current_begun, Array.getElem?_modify, if_pos rfl, atWork, Option.map_some]

/-- The node at work is still at work behind the hit, and only its index differs. -/
theorem passed_at (atWork : s.nodes[s.current]? = some node) :
    (s.passed node hit).nodes[(s.passed node hit).current]? = some { node with index := hit.stop } := by
  rw [nodes_passed, current_passed, Array.getElem?_modify, if_pos rfl, atWork, Option.map_some]

@[simp] theorem output_wrap :
    (s.wrap node target source).output = s.output ++ .asked target :=
  output_asked s target

@[simp] theorem output_splice :
    (s.splice node target source).output = s.output ++ .asked target :=
  output_asked s target

/-- A node that is through hands over to its layout, if it has one. Where it came from is not looked at in that case.
-/
theorem complete_layout {l : NodeId} (link : node.layout = some l) : s.complete node = s.goto l := by
  rw [complete, link]

/-- A node without a layout that is through hands back to the node that includes it. -/
theorem complete_parent {p : NodeId} (bare : node.layout = none) (link : node.parent = some p) :
    s.complete node = s.goto p := by
  rw [complete, bare, link]

/-- A node that is through and has neither a layout nor an includer ends the document. -/
theorem complete_outermost (bare : node.layout = none) (alone : node.parent = none) :
    s.complete node = { s with sent := s.sent.push .finish, ended := true } := by
  rw [complete, bare, alone]

end Turns

end State

/-- The path that an include directive of a node asks for. -/
def Node.includeTarget (node : Node) (argument : String) : Path :=
  Path.includeTarget argument node.dirname node.root

/-- What a move may do if `node` is at work. The cases follow the phase of the node: a node that waits is sent whole
or begun, with or without its layout, one that is scanned passes a hit or its rest, and one that is through hands
over. -/
inductive Setting.Turn (setting : Setting) (load : Loader) (s : State) (node : Node) : State → Prop
  | skip : node.phase = .pending → setting.scanner.skips node.source = true →
      Turn setting load s node ((s.emit node.source node.role).finish node)
  | bare : node.phase = .pending → setting.scanner.skips node.source = false →
      setting.requestedLayout node = none → Turn setting load s node s.begun
  | layoutCircle {target directive} : node.phase = .pending →
      setting.scanner.skips node.source = false →
      setting.requestedLayout node = some (target, directive) → s.begun.wrapsItself target = true →
      Turn setting load s node (s.begun.report ⟨.circle, node.src, target, directive⟩)
  | layoutUnreadable {target directive message} : node.phase = .pending →
      setting.scanner.skips node.source = false →
      setting.requestedLayout node = some (target, directive) → s.begun.wrapsItself target = false →
      load target = .error message →
      Turn setting load s node
        ((s.begun.asked target).report ⟨.unreadable message, node.src, target, directive⟩)
  | layout {target directive source} : node.phase = .pending →
      setting.scanner.skips node.source = false →
      setting.requestedLayout node = some (target, directive) → s.begun.wrapsItself target = false →
      load target = .ok source → Turn setting load s node (s.begun.wrap node target source)
  | tail : node.phase = .scanning → setting.scanner.next? node.source node.index = none →
      Turn setting load s node
        ((s.emit (Text.slice node.source node.index (Text.size node.source)) node.role).finish node)
  | data {hit key} : node.phase = .scanning →
      setting.scanner.next? node.source node.index = some hit → hit.directive = .data key →
      Turn setting load s node
        ((s.passed node hit).emit ((setting.value? key).getD (hit.text node.source)) node.role)
  | decided {hit} : node.phase = .scanning →
      setting.scanner.next? node.source node.index = some hit →
      (hit.directive = .noLayout ∨ ∃ target, hit.directive = .layout target) →
      Turn setting load s node (s.passed node hit)
  | slotKept {hit} : node.phase = .scanning →
      setting.scanner.next? node.source node.index = some hit → hit.directive = .slot →
      node.slot = none →
      Turn setting load s node ((s.passed node hit).emit (hit.text node.source) node.role)
  | slotPlaced {hit inner} : node.phase = .scanning →
      setting.scanner.next? node.source node.index = some hit → hit.directive = .slot →
      node.slot = some inner →
      ((s.passed node hit).nodes[inner]?).any (·.phase == .finished) = true →
      Turn setting load s node (s.passed node hit)
  | slot {hit inner} : node.phase = .scanning →
      setting.scanner.next? node.source node.index = some hit → hit.directive = .slot →
      node.slot = some inner →
      ((s.passed node hit).nodes[inner]?).any (·.phase == .finished) = false →
      Turn setting load s node ((s.passed node hit).goto inner)
  | spliceCircle {hit argument} : node.phase = .scanning →
      setting.scanner.next? node.source node.index = some hit →
      hit.directive = .inclusion argument →
      (s.passed node hit).includesItself (node.includeTarget argument) = true →
      Turn setting load s node
        (((s.passed node hit).report
          ⟨.circle, node.src, node.includeTarget argument, some (hit.text node.source)⟩).emit
          (hit.text node.source) node.role)
  | spliceUnreadable {hit argument message} : node.phase = .scanning →
      setting.scanner.next? node.source node.index = some hit →
      hit.directive = .inclusion argument →
      (s.passed node hit).includesItself (node.includeTarget argument) = false →
      load (node.includeTarget argument) = .error message →
      Turn setting load s node
        ((((s.passed node hit).asked (node.includeTarget argument)).report
          ⟨.unreadable message, node.src, node.includeTarget argument,
            some (hit.text node.source)⟩).emit (hit.text node.source) node.role)
  | splice {hit argument source} : node.phase = .scanning →
      setting.scanner.next? node.source node.index = some hit →
      hit.directive = .inclusion argument →
      (s.passed node hit).includesItself (node.includeTarget argument) = false →
      load (node.includeTarget argument) = .ok source →
      Turn setting load s node ((s.passed node hit).splice node (node.includeTarget argument) source)
  | again : node.phase = .finished → Turn setting load s node (s.complete node)

/-- What a turn may do to the nodes. -/
inductive Setting.Change (setting : Setting) (load : Loader) (s : State) (node : Node) : Array Node → Prop
  | through : Change setting load s node (s.nodes.modify s.current fun n =>
      { n with index := Text.size n.source, phase := .finished })
  | begun : node.phase = .pending → Change setting load s node s.begun.nodes
  | wrapped {target directive source} : node.phase = .pending →
      setting.requestedLayout node = some (target, directive) → s.begun.wrapsItself target = false →
      load target = .ok source → Change setting load s node (s.begun.wrap node target source).nodes
  | passed {hit} : node.phase = .scanning → setting.scanner.next? node.source node.index = some hit →
      Change setting load s node (s.passed node hit).nodes
  | spliced {hit argument source} : node.phase = .scanning →
      setting.scanner.next? node.source node.index = some hit →
      (s.passed node hit).includesItself (node.includeTarget argument) = false →
      load (node.includeTarget argument) = .ok source →
      Change setting load s node ((s.passed node hit).splice node (node.includeTarget argument) source).nodes
  | again : node.phase = .finished → Change setting load s node s.nodes

/-- What a turn does to the nodes is one of six changes, because what is sent and reported leaves the nodes as they
are. -/
theorem Setting.Turn.change {setting : Setting} {load : Loader} {s later : State} {node : Node}
    (turn : setting.Turn load s node later) : setting.Change load s node later.nodes := by
  cases turn with
  | skip | tail =>
    rw [State.nodes_finish, State.nodes_emit, State.current_emit]
    exact .through
  | bare pending | layoutCircle pending | layoutUnreadable pending => exact .begun pending
  | layout pending _ requested straight loaded => exact .wrapped pending requested straight loaded
  | decided scanning found | slotPlaced scanning found | slot scanning found => exact .passed scanning found
  | data scanning found | slotKept scanning found | spliceCircle scanning found
  | spliceUnreadable scanning found =>
    rw [State.nodes_emit]
    exact .passed scanning found
  | splice scanning found _ straight loaded => exact .spliced scanning found straight loaded
  | again finished =>
    rw [State.nodes_complete]
    exact .again finished

/-- Where a move leads once the loader has answered. -/
def Move.result (load : Loader) (s : State) : Move → State
  | .step next => next
  | .load target answer => answer (load target)
  | .stop => s

namespace Setting
variable {setting : Setting} {load : Loader} {s : State} {node : Node}

/-- The next moment is the result of the move that the setting chooses, once the loader has answered. -/
theorem next_eq : setting.next load s = (setting.move s).result load s := by
  rw [next]
  cases setting.move s <;> rfl

/-- The first move of a node is a turn, whether the node is skipped, has no layout, or asks for one that is used or
not used. -/
theorem turn_begin (pending : node.phase = .pending) :
    setting.Turn load s node ((setting.begin s node).result load s) := by
  unfold begin
  split
  next skips => exact .skip pending skips
  next kept =>
    have skips := Bool.eq_false_iff.mpr kept
    split
    next requested => exact .bare pending skips requested
    next target directive requested =>
      dsimp only
      split
      next circle => exact .layoutCircle pending skips requested circle
      next other =>
        have straight := Bool.eq_false_iff.mpr other
        cases loaded : load target with
        | error message =>
          simp only [Move.result, loaded]
          exact .layoutUnreadable pending skips requested straight loaded
        | ok source =>
          simp only [Move.result, loaded]
          exact .layout pending skips requested straight loaded

/-- An include directive is passed in a turn, whether its target is used or not. -/
theorem turn_inclusion {hit : Hit} {argument : String} (scanning : node.phase = .scanning)
    (found : setting.scanner.next? node.source node.index = some hit)
    (directive : hit.directive = .inclusion argument) :
    setting.Turn load s node
      ((inclusion (s.passed node hit) node argument (hit.text node.source)).result load s) := by
  unfold inclusion
  dsimp only
  split
  next circle => exact .spliceCircle scanning found directive circle
  next other =>
    have straight := Bool.eq_false_iff.mpr other
    cases loaded : load (node.includeTarget argument) with
    | error message =>
      have answer : load (Path.includeTarget argument node.dirname node.root) = .error message := loaded
      simp only [Move.result, answer]
      exact .spliceUnreadable scanning found directive straight loaded
    | ok source =>
      have answer : load (Path.includeTarget argument node.dirname node.root) = .ok source := loaded
      simp only [Move.result, answer]
      exact .splice scanning found directive straight loaded

/-- A slot directive is passed in a turn, whether the node at work is a layout or not. -/
theorem turn_slot {hit : Hit} (scanning : node.phase = .scanning)
    (found : setting.scanner.next? node.source node.index = some hit) (directive : hit.directive = .slot) :
    setting.Turn load s node
      ((slot (s.passed node hit) node (hit.text node.source)).result load s) := by
  unfold slot
  split
  next bare => exact .slotKept scanning found directive bare
  next inner wraps =>
    split
    next placed => exact .slotPlaced scanning found directive wraps placed
    next waiting => exact .slot scanning found directive wraps (Bool.eq_false_iff.mpr waiting)

theorem turn_advance (scanning : node.phase = .scanning) :
    setting.Turn load s node ((setting.advance s node).result load s) := by
  unfold advance
  split
  next none => exact .tail scanning none
  next hit found =>
    cases directive : hit.directive with
    | data key => exact .data scanning found directive
    | slot => exact turn_slot scanning found directive
    | inclusion argument => exact turn_inclusion scanning found directive
    | layout target => exact .decided scanning found (.inr ⟨target, directive⟩)
    | noLayout => exact .decided scanning found (.inl directive)

/-- Every move is one of the turns, so that an invariant of all moves is a matter of going through the turns once. -/
theorem turn_next (going : s.ended = false) (atWork : s.nodes[s.current]? = some node) :
    setting.Turn load s node (setting.next load s) := by
  rw [next_eq, move, going, atWork]
  simp only [Bool.false_eq_true, if_false]
  cases phase : node.phase with
  | pending => exact turn_begin phase
  | scanning => exact turn_advance phase
  | finished => exact .again phase

theorem next_of_ended (ended : s.ended = true) : setting.next load s = s := by
  rw [next_eq, move, ended]
  rfl

theorem after_of_ended (ended : s.ended = true) (n : Nat) : setting.after load n s = s := by
  cases n with
  | zero => rfl
  | succ n => rw [after, if_pos ended]

theorem after_next (going : s.ended = false) (n : Nat) :
    setting.after load (n + 1) s = setting.after load n (setting.next load s) := by
  rw [after, if_neg (by rw [going]; decide)]

/-- The last of some moves can be split off, which is how invariants are carried along. -/
theorem after_succ (n : Nat) : setting.after load (n + 1) s = setting.next load (setting.after load n s) := by
  induction n generalizing s with
  | zero =>
    cases ended : s.ended with
    | true => rw [after_of_ended ended, after_of_ended ended, next_of_ended ended]
    | false => rw [after_next ended, after, after]
  | succ n ih =>
    cases ended : s.ended with
    | true => rw [after_of_ended ended, after_of_ended ended, next_of_ended ended]
    | false => rw [after_next ended, ih, ← after_next ended]

end Setting

end Templating
