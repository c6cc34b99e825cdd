import Templating.Proofs.Machine.Links

namespace Templating

/-- The target and the message of a failed call that an error reports. -/
def ResolveError.failure? (e : ResolveError) : Option (Path × String) :=
  match e.cause with
  | .circle => none
  | .unreadable message => some (e.target, message)

/-- The failed calls that a run reports, in order. -/
def Run.failures (r : Run) : List (Path × String) := r.errors.filterMap ResolveError.failure?

/-- The target of a call that fails, with the message. -/
def Loader.failure? (load : Loader) (target : Path) : Option (Path × String) :=
  match load target with
  | .ok _ => none
  | .error message => some (target, message)

/-- What is asked for before an error is reported: nothing before a circle, and its target before a failed
call. -/
def ResolveError.call (e : ResolveError) : Run :=
  match e.cause with
  | .circle => .empty
  | .unreadable _ => .asked e.target

theorem ResolveError.events_call (e : ResolveError) : (e.call ++ Run.error e).events = [.error e] := by
  unfold ResolveError.call
  split <;> rfl

/-- Why a target is not used: it is one of the sources on a chain, or the loader has no text for it. -/
def ResolveError.Justified (e : ResolveError) (load : Loader) (srcs : List Path) : Prop :=
  match e.cause with
  | .circle => e.target ∈ srcs
  | .unreadable message => load e.target = .error message

/-- Calls and what becomes of them: the failed ones are reported in order, and each of the others makes a
node. -/
structure Run.Settles (r : Run) (load : Loader) (created : Nat) : Prop where
  failures : r.failures = r.loads.filterMap load.failure?
  created : created = (r.loads.filter fun target => (load target).isOk).length

namespace Run.Settles
variable {a b : Run} {load : Loader} {n m : Nat}

theorem of_quiet (quiet : a.Quiet) : a.Settles load 0 := by
  constructor
  · rw [Run.failures, quiet.loads, quiet.errors]
    rfl
  · rw [quiet.loads]
    rfl

/-- Two runs that settle their calls do so when one comes behind the other, and the nodes they make add up. -/
theorem append (first : a.Settles load n) (second : b.Settles load m) : (a ++ b).Settles load (n + m) where
  failures := by
    have before := first.failures
    have after := second.failures
    simp only [Run.failures] at before after
    simp only [Run.failures, errors_append, loads_append, List.filterMap_append, before, after]
  created := by
    simp only [loads_append, List.filter_append, List.length_append, ← first.created, ← second.created]

theorem text (text : String) (origin : Role) : (Run.text text origin).Settles load 0 :=
  of_quiet (.text text origin)

theorem loaded {target : Path} {source : String} (loaded : load target = .ok source) :
    (Run.asked target).Settles load 1 := by
  have answered : load.failure? target = none := by rw [Loader.failure?, loaded]
  have loads : (Run.asked target).loads = [target] := rfl
  constructor
  · rw [loads, List.filterMap_cons_none answered]
    rfl
  · rw [loads, List.filter_cons_of_pos (by rw [loaded]; rfl)]
    rfl

/-- A target that is not used settles with no node made: it is reported, behind the call if there has been one. -/
theorem refused {e : ResolveError} {srcs : List Path} (justified : e.Justified load srcs) :
    (e.call ++ Run.error e).Settles load 0 := by
  obtain ⟨cause, src, target, directive⟩ := e
  cases cause with
  | circle => exact ⟨rfl, rfl⟩
  | unreadable message =>
    have failed : load target = .error message := justified
    have failure : load.failure? target = some (target, message) := by rw [Loader.failure?, failed]
    have loads : (Run.asked target ++ .error ⟨.unreadable message, src, target, directive⟩).loads =
        [target] := rfl
    constructor
    · rw [ResolveError.call, loads, List.filterMap_cons_some failure]
      rfl
    · rw [ResolveError.call, loads, List.filter_cons_of_neg (by rw [failed]; exact nofun)]
      rfl

end Run.Settles

namespace Setting

/-- The move at an include directive whose target is not used: an error, and then the directive as it
is. -/
structure KeepsInclusion (setting : Setting) (load : Loader) (s : State) (node : Node) (hit : Hit)
    (e : ResolveError) (later : State) : Prop where
  scanning : node.phase = .scanning
  found : setting.scanner.next? node.source node.index = some hit
  target : ∃ argument, hit.directive = .inclusion argument ∧ e.target = node.includeTarget argument
  src : e.src = node.src
  directive : e.directive = some (hit.text node.source)
  cause : ∃ srcs, Trail s.nodes Node.parent (some s.current) srcs ∧ e.Justified load srcs
  output : later.output = s.output ++
    (.text (Text.slice node.source node.index hit.start) node.role ++ (e.call ++ .error e) ++
      .text (hit.text node.source) node.role)

/-- The first move of a node whose layout is not used: an error, and no text. -/
structure RefusesLayout (setting : Setting) (load : Loader) (s : State) (node : Node) (e : ResolveError)
    (later : State) : Prop where
  pending : node.phase = .pending
  requested : setting.requestedLayout node = some (e.target, e.directive)
  src : e.src = node.src
  cause : ∃ srcs, Trail s.nodes Node.slot (some s.current) srcs ∧ e.Justified load srcs
  output : later.output = s.output ++ (e.call ++ .error e)
  begun : ∃ n, later.nodes[s.current]? = some n ∧ n.phase = .scanning ∧ n.layout = none

/-- What becomes of a move: it asks for nothing and reports nothing, or a text that it asks for makes a
node, or a target is not used. -/
inductive Outcome (setting : Setting) (load : Loader) (s : State) (node : Node) (later : State) : Prop
  | quiet {piece : Run} : later.output = s.output ++ piece → piece.Quiet →
      later.nodes.size = s.nodes.size → Outcome setting load s node later
  | loaded {target source} (gap : String) : load target = .ok source →
      later.output = s.output ++ (.text gap node.role ++ .asked target) →
      later.nodes.size = s.nodes.size + 1 → Outcome setting load s node later
  | kept {hit e} : setting.KeepsInclusion load s node hit e later →
      later.nodes.size = s.nodes.size → Outcome setting load s node later
  | refused {e} : setting.RefusesLayout load s node e later → later.nodes.size = s.nodes.size →
      Outcome setting load s node later

variable {setting : Setting} {load : Loader} {s later : State} {node : Node}

/-- Whatever becomes of a turn, what it puts out settles: its failed calls are reported in order, and the nodes it
makes are as many as its calls that get a text. -/
theorem Outcome.settles (outcome : setting.Outcome load s node later) :
    ∃ piece created, later.output = s.output ++ piece ∧ later.nodes.size = s.nodes.size + created ∧
      piece.Settles load created := by
  cases outcome with
  | quiet output quiet size => exact ⟨_, 0, output, size, .of_quiet quiet⟩
  | loaded gap loaded output size =>
    refine ⟨_, 1, output, size, ?_⟩
    have settles := (Run.Settles.text gap node.role).append (.loaded loaded)
    rwa [Nat.zero_add] at settles
  | kept keeps size =>
    obtain ⟨srcs, _, justified⟩ := keeps.cause
    exact ⟨_, 0, keeps.output, size, ((Run.Settles.text ..).append (.refused justified)).append (.text ..)⟩
  | refused refuses size =>
    obtain ⟨srcs, _, justified⟩ := refuses.cause
    exact ⟨_, 0, refuses.output, size, .refused justified⟩

/-- Handing control back puts out nothing or the end, but no error, and asks for nothing. -/
theorem exists_output_complete (s : State) (node : Node) :
    ∃ piece : Run, (s.complete node).output = s.output ++ piece ∧ piece.Quiet := by
  unfold State.complete
  split
  · exact ⟨.empty, (Run.append_empty _).symm, .empty⟩
  · exact ⟨.empty, (Run.append_empty _).symm, .empty⟩
  · refine ⟨⟨[.finish], []⟩, ?_, .finish⟩
    simp only [State.output, Run.append_eq, Array.toList_push, List.append_nil]

theorem Outcome.finish (setting : Setting) (load : Loader) (s : State) (node : Node) (text : String) :
    setting.Outcome load s node ((s.emit text node.role).finish node) := by
  obtain ⟨piece, output, quiet⟩ := exists_output_complete
    ((s.emit text node.role).modify fun n => { n with index := Text.size n.source, phase := .finished }) node
  rw [State.output_modify, State.output_emit, Run.append_assoc] at output
  refine .quiet output ((Run.Quiet.text text node.role).append quiet) ?_
  rw [State.nodes_finish, State.nodes_emit, Array.size_modify]

theorem size_begun (s : State) : s.begun.nodes.size = s.nodes.size := by
  rw [State.nodes_begun, Array.size_modify]

theorem size_passed (s : State) (node : Node) (hit : Hit) : (s.passed node hit).nodes.size = s.nodes.size := by
  rw [State.nodes_passed, Array.size_modify]

theorem Outcome.passed (setting : Setting) (load : Loader) (s : State) (node : Node) (hit : Hit) (text : String)
    (output : later.output = (s.passed node hit).output ++ .text text node.role)
    (nodes : later.nodes = (s.passed node hit).nodes) : setting.Outcome load s node later := by
  rw [State.output_passed, Run.append_assoc] at output
  exact .quiet output ((Run.Quiet.text _ node.role).append (.text text node.role)) (by rw [nodes, size_passed])

-- The cursor of the node at work has moved when the chain is looked at, which changes no chain.
theorem onChain_modify_iff {nodes : Array Node} {link : Node → Option NodeId} {c : NodeId} {srcs : List Path}
    {f : Node → Node} {path : Path} (trail : Trail nodes link (some c) srcs)
    (older : ∀ {i j : NodeId} {n : Node}, nodes[i]? = some n → link n = some j → j < i)
    (same : ∀ n, (f n).src = n.src ∧ link (f n) = link n) :
    State.onChain (nodes.modify c f) link path (nodes.modify c f).size c = true ↔ path ∈ srcs := by
  have moved : Trail (nodes.modify c f) link (some c) srcs := by
    refine trail.extend fun {i n} there => ⟨_, getElem?_modify_of_some there, ?_⟩
    split
    · exact same n
    · exact ⟨rfl, rfl⟩
  refine moved.onChain_size_iff fun {i j n} there toOlder => ?_
  obtain ⟨m, before, rfl⟩ := getElem?_modify_some there
  refine older before ?_
  split at toOlder
  · rwa [← (same m).2]
  · exact toOlder

/-- The test for a circle of inclusions, made behind a hit, looks at the sources of the node at work and of all nodes
that it is included in. -/
theorem exists_includers (linked : Linked s.nodes) (atWork : s.nodes[s.current]? = some node) (hit : Hit) :
    ∃ srcs, Trail s.nodes Node.parent (some s.current) srcs ∧
      ∀ path, (s.passed node hit).includesItself path = true ↔ path ∈ srcs := by
  obtain ⟨srcs, trail, _⟩ := linked.parents_distinct atWork
  refine ⟨srcs, trail, fun path => ?_⟩
  rw [State.includesItself, State.nodes_passed, State.current_passed]
  exact onChain_modify_iff trail linked.parent_older fun n => ⟨rfl, rfl⟩

/-- The test for a circle of layouts, made at the beginning of a node, looks at the sources of the node at work and of
all nodes inside it. -/
theorem exists_wrapped (linked : Linked s.nodes) (atWork : s.nodes[s.current]? = some node) :
    ∃ srcs, Trail s.nodes Node.slot (some s.current) srcs ∧
      ∀ path, s.begun.wrapsItself path = true ↔ path ∈ srcs := by
  obtain ⟨srcs, trail, _⟩ := linked.slots_distinct atWork
  refine ⟨srcs, trail, fun path => ?_⟩
  rw [State.wrapsItself, State.nodes_begun, State.current_begun]
  exact onChain_modify_iff trail linked.slot_older fun n => ⟨rfl, rfl⟩

/-- A node that asks for a layout which is not used is begun without one, for either of the two causes. -/
theorem Outcome.of_refused {target : Path} {directive : Option String} {srcs : List Path} (cause : Cause)
    (linked : Linked s.nodes) (atWork : s.nodes[s.current]? = some node) (pending : node.phase = .pending)
    (requested : setting.requestedLayout node = some (target, directive))
    (trail : Trail s.nodes Node.slot (some s.current) srcs)
    (justified : (ResolveError.mk cause node.src target directive).Justified load srcs)
    (nodes : later.nodes = s.begun.nodes)
    (output : later.output = s.output ++ ((ResolveError.mk cause node.src target directive).call ++
      .error ⟨cause, node.src, target, directive⟩)) :
    setting.Outcome load s node later := by
  refine .refused ⟨pending, requested, rfl, ⟨srcs, trail, justified⟩, output, ?_⟩ (by rw [nodes, size_begun])
  rw [nodes]
  exact ⟨_, State.begun_at atWork, rfl, (linked.sound atWork).pending_layout pending⟩

/-- An include directive whose target is not used is sent as it stands behind the report, for either of the two
causes. -/
theorem Outcome.of_kept {hit : Hit} {argument : String} {srcs : List Path} (cause : Cause)
    (scanning : node.phase = .scanning) (found : setting.scanner.next? node.source node.index = some hit)
    (directive : hit.directive = .inclusion argument)
    (trail : Trail s.nodes Node.parent (some s.current) srcs)
    (justified : (ResolveError.mk cause node.src (node.includeTarget argument)
      (some (hit.text node.source))).Justified load srcs)
    (nodes : later.nodes = (s.passed node hit).nodes)
    (output : later.output = (s.passed node hit).output ++ ((ResolveError.mk cause node.src
      (node.includeTarget argument) (some (hit.text node.source))).call ++
        .error ⟨cause, node.src, node.includeTarget argument, some (hit.text node.source)⟩) ++
      .text (hit.text node.source) node.role) :
    setting.Outcome load s node later := by
  rw [State.output_passed, Run.append_assoc, Run.append_assoc, ← Run.append_assoc (.text _ _)] at output
  exact .kept ⟨scanning, found, ⟨argument, directive, rfl⟩, rfl, rfl, ⟨srcs, trail, justified⟩, output⟩
    (by rw [nodes, size_passed])

/-- Every turn has one of the outcomes. The links are needed for the circles only, where the chain has to be followed
to its end. -/
theorem Turn.outcome (turn : setting.Turn load s node later) (linked : Linked s.nodes)
    (atWork : s.nodes[s.current]? = some node) : setting.Outcome load s node later := by
  obtain ⟨inner, slots, wraps⟩ := exists_wrapped linked atWork
  have passing {hit : Hit} (output : later.output = (s.passed node hit).output)
      (nodes : later.nodes = (s.passed node hit).nodes) : setting.Outcome load s node later :=
    .passed setting load s node hit "" (output.trans (Run.append_empty _).symm) nodes
  cases turn with
  | skip => exact .finish ..
  | bare => exact .quiet (Run.append_empty _).symm .empty (size_begun s)
  | @layoutCircle target directive pending _ requested circle =>
    exact .of_refused .circle linked atWork pending requested slots ((wraps target).mp circle) rfl
      (State.output_report ..)
  | @layoutUnreadable target directive message pending _ requested _ loaded =>
    refine .of_refused (.unreadable message) linked atWork pending requested slots loaded rfl ?_
    rw [State.output_report, State.output_asked, Run.append_assoc]
    rfl
  | layout _ _ _ _ loaded =>
    refine .loaded "" loaded State.output_wrap ?_
    rw [State.nodes_wrap, wrapped, Array.size_push, Array.size_modify, size_begun]
  | tail => exact .finish ..
  | data => exact .passed _ _ _ _ _ _ (State.output_emit ..) (State.nodes_emit ..)
  | decided => exact passing rfl rfl
  | slotKept => exact .passed _ _ _ _ _ _ (State.output_emit ..) (State.nodes_emit ..)
  | slotPlaced => exact passing rfl rfl
  | slot => exact passing rfl rfl
  | @spliceCircle hit argument scanning found directive circle =>
    obtain ⟨srcs, trail, includes⟩ := exists_includers linked atWork hit
    refine .of_kept .circle scanning found directive trail ((includes _).mp circle) (State.nodes_emit ..) ?_
    rw [State.output_emit, State.output_report]
    rfl
  | @spliceUnreadable hit argument message scanning found directive _ loaded =>
    obtain ⟨srcs, trail, _⟩ := exists_includers linked atWork hit
    refine .of_kept (.unreadable message) scanning found directive trail loaded (State.nodes_emit ..) ?_
    rw [State.output_emit, State.output_report, State.output_asked, Run.append_assoc _ (.asked _)]
    rfl
  | @splice hit _ _ _ _ _ _ loaded =>
    refine .loaded _ loaded (by rw [State.output_splice, State.output_passed, Run.append_assoc]) ?_
    rw [State.splice, State.enter]
    exact (Array.size_push _).trans (congrArg (· + 1) (size_passed s node hit))
  | again =>
    obtain ⟨piece, output, quiet⟩ := exists_output_complete s node
    exact .quiet output quiet (by rw [State.nodes_complete])

end Setting

end Templating
