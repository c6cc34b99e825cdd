import Templating.Proofs.Machine.Turn

namespace Templating

/-- A text at work and the place in it that is next. -/
structure Frame where
  /-- The sources of the texts that include it. -/
  includers : List Path
  filling : Filling
  node : Node
  start : Nat

/-- Who has control and who gets it back, the next first. There are no nodes and no links here: a text at work carries
what it has to know of the texts around it, and those that wait are kept in a list. -/
inductive Control
  /-- The layouts are sought: the outermost node so far, and those inside it, the nearest first. -/
  | outer (inner : List Node) (node : Node)
  /-- An included text is to begin. -/
  | entered (frame : Frame) (waiting : List Frame)
  | scanning (frame : Frame) (waiting : List Frame)
  | done

namespace Control

/-- Who has control once a text is through. -/
def resume : List Frame → Control
  | [] => .done
  | frame :: waiting => .scanning frame waiting

/-- What comes out when a text is through: the end, if nothing waits for it. -/
def closing : List Frame → Run
  | [] => ⟨[.finish], []⟩
  | _ :: _ => .empty

variable (setting : Setting) (load : Loader)

/-- The step at an include directive. `next` is the frame behind the directive. -/
def splice (next : Frame) (argument text : String) (waiting : List Frame) : Run × Control :=
  let node := next.node
  let path := node.includeTarget argument
  let kept := Run.text text node.role
  if node.src = path ∨ path ∈ next.includers then
    (.error ⟨.circle, node.src, path, some text⟩ ++ kept, .scanning next waiting)
  else
    match load path with
    | .error message =>
      (.asked path ++ .error ⟨.unreadable message, node.src, path, some text⟩ ++ kept,
        .scanning next waiting)
    | .ok source =>
      (.asked path, .entered ⟨node.src :: next.includers, .nothing,
        .new path node.root source .included, 0⟩ (next :: waiting))

/-- The step at a slot. `next` is the frame behind the directive. -/
def slot (next : Frame) (text : String) (waiting : List Frame) : Run × Control :=
  match next.filling with
  | .nothing => (.text text next.node.role, .scanning next waiting)
  | .placed => (.empty, .scanning next waiting)
  | .wrapped inner more =>
    (.empty, .scanning ⟨[], .ofList more, inner, 0⟩ ({ next with filling := .placed } :: waiting))

/-- The step at a hit. `next` is the frame behind it. -/
def pass (next : Frame) (hit : Hit) (waiting : List Frame) : Run × Control :=
  let text := hit.text next.node.source
  match hit.directive with
  | .data key => (.text ((setting.value? key).getD text) next.node.role, .scanning next waiting)
  | .layout _ | .noLayout => (.empty, .scanning next waiting)
  | .slot => slot next text waiting
  | .inclusion argument => splice load next argument text waiting

/-- What comes out of one step, and where it leads. -/
def step : Control → Run × Control
  | .done => (.empty, .done)
  | .outer inner node =>
    if setting.scanner.skips node.source then (.text node.source node.role ++ closing [], .done)
    else
      let bare := Control.scanning ⟨[], .ofList inner, node, 0⟩ []
      match setting.requestedLayout node with
      | none => (.empty, bare)
      | some (target, directive) =>
        if (node :: inner).any (·.src == target) then
          (.error ⟨.circle, node.src, target, directive⟩, bare)
        else
          match load target with
          | .error message =>
            (.asked target ++ .error ⟨.unreadable message, node.src, target, directive⟩, bare)
          | .ok source => (.asked target, .outer (node :: inner) (.new target node.root source .layout))
  | .entered frame waiting =>
    let node := frame.node
    if setting.scanner.skips node.source then
      (.text node.source node.role ++ closing waiting, resume waiting)
    else (.empty, .scanning frame waiting)
  | .scanning frame waiting =>
    let node := frame.node
    match setting.scanner.next? node.source frame.start with
    | none =>
      (.text (Text.slice node.source frame.start (Text.size node.source)) node.role ++ closing waiting,
        resume waiting)
    | some hit =>
      let (here, control) := pass setting load { frame with start := hit.stop } hit waiting
      (.text (Text.slice node.source frame.start hit.start) node.role ++ here, control)

section Steps
variable {setting load} {frame next : Frame} {waiting : List Frame} {inner : List Node} {node : Node}
  {target : Path} {directive : Option String} {argument text message source : String}

theorem step_outer_skip (skips : setting.scanner.skips node.source = true) :
    (outer inner node).step setting load = (.text node.source node.role ++ closing [], .done) :=
  if_pos skips

theorem step_outer_bare (kept : setting.scanner.skips node.source = false)
    (requested : setting.requestedLayout node = none) :
    (outer inner node).step setting load = (.empty, .scanning ⟨[], .ofList inner, node, 0⟩ []) := by
  simp only [step, kept, requested, Bool.false_eq_true, if_false]

/-- A layout that is among the nodes inside already is reported once. Nothing is loaded for it, and the scan begins at
the node that asked for it. -/
theorem step_outer_circle (kept : setting.scanner.skips node.source = false)
    (requested : setting.requestedLayout node = some (target, directive))
    (circle : (node :: inner).any (·.src == target) = true) :
    (outer inner node).step setting load =
      (.error ⟨.circle, node.src, target, directive⟩, .scanning ⟨[], .ofList inner, node, 0⟩ []) := by
  simp only [step, kept, requested, circle, Bool.false_eq_true, if_false, if_true]

/-- A layout that cannot be read is asked for and reported, and the scan begins at the node that asked for it, as if
it had asked for none. -/
theorem step_outer_unreadable (kept : setting.scanner.skips node.source = false)
    (requested : setting.requestedLayout node = some (target, directive))
    (straight : (node :: inner).any (·.src == target) = false) (loaded : load target = .error message) :
    (outer inner node).step setting load =
      (.asked target ++ .error ⟨.unreadable message, node.src, target, directive⟩,
        .scanning ⟨[], .ofList inner, node, 0⟩ []) := by
  simp only [step, kept, requested, straight, loaded, Bool.false_eq_true, if_false]

/-- A layout that can be read becomes the outermost node. No text comes out yet, whatever the layout holds. -/
theorem step_outer_wrap (kept : setting.scanner.skips node.source = false)
    (requested : setting.requestedLayout node = some (target, directive))
    (straight : (node :: inner).any (·.src == target) = false) (loaded : load target = .ok source) :
    (outer inner node).step setting load =
      (.asked target, .outer (node :: inner) (.new target node.root source .layout)) := by
  simp only [step, kept, requested, straight, loaded, Bool.false_eq_true, if_false]

/-- An included text with a skip directive comes out as it is, and control goes back at once to the text that includes
it. -/
theorem step_entered_skip (skips : setting.scanner.skips frame.node.source = true) :
    (entered frame waiting).step setting load =
      (.text frame.node.source frame.node.role ++ closing waiting, resume waiting) :=
  if_pos skips

theorem step_entered_scan (kept : setting.scanner.skips frame.node.source = false) :
    (entered frame waiting).step setting load = (.empty, .scanning frame waiting) := by
  simp only [step, kept, Bool.false_eq_true, if_false]

theorem step_scanning {hit : Hit} {here : Run} {control : Control}
    (found : setting.scanner.next? frame.node.source frame.start = some hit)
    (passed : pass setting load { frame with start := hit.stop } hit waiting = (here, control)) :
    (scanning frame waiting).step setting load =
      (.text (Text.slice frame.node.source frame.start hit.start) frame.node.role ++ here, control) := by
  simp only [step, found, passed]

/-- Where no directive is left, the rest of the text comes out and control goes to the frame that waits next. With
none waiting, the end comes out. -/
theorem step_tail (nothing : setting.scanner.next? frame.node.source frame.start = none) :
    (scanning frame waiting).step setting load =
      (.text (Text.slice frame.node.source frame.start (Text.size frame.node.source)) frame.node.role ++
        closing waiting, resume waiting) := by
  simp only [step, nothing]

theorem pass_data {hit : Hit} {key : String} (directive : hit.directive = .data key) :
    pass setting load next hit waiting =
      (.text ((setting.value? key).getD (hit.text next.node.source)) next.node.role, .scanning next waiting) := by
  simp only [pass, directive]

theorem pass_decided {hit : Hit}
    (directive : hit.directive = .noLayout ∨ ∃ target, hit.directive = .layout target) :
    pass setting load next hit waiting = (.empty, .scanning next waiting) := by
  rcases directive with directive | ⟨target, directive⟩ <;> simp only [pass, directive]

/-- A slot directive does what the filling of the text at work says; neither the loader nor the data values play a
part. -/
theorem pass_slot {hit : Hit} (directive : hit.directive = .slot) :
    pass setting load next hit waiting = slot next (hit.text next.node.source) waiting := by
  simp only [pass, directive]

theorem pass_inclusion {hit : Hit} (directive : hit.directive = .inclusion argument) :
    pass setting load next hit waiting = splice load next argument (hit.text next.node.source) waiting := by
  simp only [pass, directive]

/-- An include directive is left in the text, behind a report, if its target is the text at work or one of those that
include it. The loader is not asked. -/
theorem splice_circle
    (circle : next.node.src = next.node.includeTarget argument ∨
      next.node.includeTarget argument ∈ next.includers) :
    splice load next argument text waiting =
      (.error ⟨.circle, next.node.src, next.node.includeTarget argument, some text⟩ ++
        .text text next.node.role, .scanning next waiting) :=
  if_pos circle

/-- An include directive whose target cannot be read is left in the text, behind a report with the message of the
loader. -/
theorem splice_unreadable
    (straight : ¬(next.node.src = next.node.includeTarget argument ∨
      next.node.includeTarget argument ∈ next.includers))
    (loaded : load (next.node.includeTarget argument) = .error message) :
    splice load next argument text waiting =
      (.asked (next.node.includeTarget argument) ++
        .error ⟨.unreadable message, next.node.src, next.node.includeTarget argument, some text⟩ ++
        .text text next.node.role, .scanning next waiting) := by
  simp only [splice, if_neg straight, loaded]

/-- An included text gets control at its start with the chain of its includer before it. The includer waits behind the
directive, which does not come out. -/
theorem splice_enter
    (straight : ¬(next.node.src = next.node.includeTarget argument ∨
      next.node.includeTarget argument ∈ next.includers))
    (loaded : load (next.node.includeTarget argument) = .ok source) :
    splice load next argument text waiting =
      (.asked (next.node.includeTarget argument), .entered ⟨next.node.src :: next.includers, .nothing,
        .new (next.node.includeTarget argument) next.node.root source .included, 0⟩ (next :: waiting)) := by
  simp only [splice, if_neg straight, loaded]

end Steps

/-- What passing a hit may do. `next` is the frame behind the hit. -/
inductive Passing (setting : Setting) (load : Loader) (next : Frame) (hit : Hit) (waiting : List Frame) :
    Run → Control → Prop
  | data {key} : hit.directive = .data key →
      Passing setting load next hit waiting
        (.text ((setting.value? key).getD (hit.text next.node.source)) next.node.role) (.scanning next waiting)
  | decided : (hit.directive = .noLayout ∨ ∃ target, hit.directive = .layout target) →
      Passing setting load next hit waiting .empty (.scanning next waiting)
  | slotKept : hit.directive = .slot → next.filling = .nothing →
      Passing setting load next hit waiting (.text (hit.text next.node.source) next.node.role)
        (.scanning next waiting)
  | slotPlaced : hit.directive = .slot → next.filling = .placed →
      Passing setting load next hit waiting .empty (.scanning next waiting)
  | slot {inner more} : hit.directive = .slot → next.filling = .wrapped inner more →
      Passing setting load next hit waiting .empty
        (.scanning ⟨[], .ofList more, inner, 0⟩ ({ next with filling := .placed } :: waiting))
  | spliceCircle {argument} : hit.directive = .inclusion argument →
      (next.node.src = next.node.includeTarget argument ∨ next.node.includeTarget argument ∈ next.includers) →
      Passing setting load next hit waiting
        (.error ⟨.circle, next.node.src, next.node.includeTarget argument, some (hit.text next.node.source)⟩ ++
          .text (hit.text next.node.source) next.node.role)
        (.scanning next waiting)
  | spliceUnreadable {argument message} : hit.directive = .inclusion argument →
      ¬(next.node.src = next.node.includeTarget argument ∨ next.node.includeTarget argument ∈ next.includers) →
      load (next.node.includeTarget argument) = .error message →
      Passing setting load next hit waiting
        (.asked (next.node.includeTarget argument) ++
          .error ⟨.unreadable message, next.node.src, next.node.includeTarget argument,
            some (hit.text next.node.source)⟩ ++ .text (hit.text next.node.source) next.node.role)
        (.scanning next waiting)
  | splice {argument source} : hit.directive = .inclusion argument →
      ¬(next.node.src = next.node.includeTarget argument ∨ next.node.includeTarget argument ∈ next.includers) →
      load (next.node.includeTarget argument) = .ok source →
      Passing setting load next hit waiting (.asked (next.node.includeTarget argument))
        (.entered ⟨next.node.src :: next.includers, .nothing,
          .new (next.node.includeTarget argument) next.node.root source .included, 0⟩ (next :: waiting))

/-- What a step may do. -/
inductive Stepping (setting : Setting) (load : Loader) : Control → Run → Control → Prop
  | outerSkip {inner node} : setting.scanner.skips node.source = true →
      Stepping setting load (.outer inner node) (.text node.source node.role ++ closing []) .done
  | bare {inner node} : setting.scanner.skips node.source = false → setting.requestedLayout node = none →
      Stepping setting load (.outer inner node) .empty (.scanning ⟨[], .ofList inner, node, 0⟩ [])
  | layoutCircle {inner node target directive} : setting.scanner.skips node.source = false →
      setting.requestedLayout node = some (target, directive) → (node :: inner).any (·.src == target) = true →
      Stepping setting load (.outer inner node) (.error ⟨.circle, node.src, target, directive⟩)
        (.scanning ⟨[], .ofList inner, node, 0⟩ [])
  | layoutUnreadable {inner node target directive message} : setting.scanner.skips node.source = false →
      setting.requestedLayout node = some (target, directive) → (node :: inner).any (·.src == target) = false →
      load target = .error message →
      Stepping setting load (.outer inner node)
        (.asked target ++ .error ⟨.unreadable message, node.src, target, directive⟩)
        (.scanning ⟨[], .ofList inner, node, 0⟩ [])
  | layout {inner node target directive source} : setting.scanner.skips node.source = false →
      setting.requestedLayout node = some (target, directive) → (node :: inner).any (·.src == target) = false →
      load target = .ok source →
      Stepping setting load (.outer inner node) (.asked target)
        (.outer (node :: inner) (.new target node.root source .layout))
  | enteredSkip {frame waiting} : setting.scanner.skips frame.node.source = true →
      Stepping setting load (.entered frame waiting)
        (.text frame.node.source frame.node.role ++ closing waiting) (resume waiting)
  | enteredScan {frame waiting} : setting.scanner.skips frame.node.source = false →
      Stepping setting load (.entered frame waiting) .empty (.scanning frame waiting)
  | tail {frame waiting} : setting.scanner.next? frame.node.source frame.start = none →
      Stepping setting load (.scanning frame waiting)
        (.text (Text.slice frame.node.source frame.start (Text.size frame.node.source)) frame.node.role ++
          closing waiting)
        (resume waiting)
  | hit {frame waiting hit here next} : setting.scanner.next? frame.node.source frame.start = some hit →
      Passing setting load { frame with start := hit.stop } hit waiting here next →
      Stepping setting load (.scanning frame waiting)
        (.text (Text.slice frame.node.source frame.start hit.start) frame.node.role ++ here) next
  | done : Stepping setting load .done .empty .done

section Relations
variable {setting load} {control after : Control} {next : Frame} {hit : Hit} {waiting : List Frame} {piece : Run}

/-- What passing a hit does is determined by what it may do, so that the cases of the relation exclude each other. -/
theorem Passing.pass_eq (passing : Passing setting load next hit waiting piece after) :
    pass setting load next hit waiting = (piece, after) := by
  cases passing with
  | data directive => exact pass_data directive
  | decided directive => exact pass_decided directive
  | slotKept directive offer | slotPlaced directive offer | slot directive offer =>
    rw [pass_slot directive, Control.slot, offer]
  | spliceCircle directive circle => exact (pass_inclusion directive).trans (splice_circle circle)
  | spliceUnreadable directive straight loaded =>
    exact (pass_inclusion directive).trans (splice_unreadable straight loaded)
  | splice directive straight loaded => exact (pass_inclusion directive).trans (splice_enter straight loaded)

/-- A step does what the relation allows it to do. Together with the next two theorems the relation is the graph of
the step function. -/
theorem Stepping.step_eq (stepping : Stepping setting load control piece after) :
    control.step setting load = (piece, after) := by
  cases stepping with
  | outerSkip skips => exact step_outer_skip skips
  | bare kept requested => exact step_outer_bare kept requested
  | layoutCircle kept requested circle => exact step_outer_circle kept requested circle
  | layoutUnreadable kept requested straight loaded => exact step_outer_unreadable kept requested straight loaded
  | layout kept requested straight loaded => exact step_outer_wrap kept requested straight loaded
  | enteredSkip skips => exact step_entered_skip skips
  | enteredScan kept => exact step_entered_scan kept
  | tail none => exact step_tail none
  | hit found passing => exact step_scanning found passing.pass_eq
  | done => rfl

variable (setting load next hit waiting) in
/-- The cases of the relation leave nothing out: every hit can be passed in one of them, whatever the directive and
the loader are. -/
theorem exists_passing : ∃ piece after, Passing setting load next hit waiting piece after := by
  cases directive : hit.directive with
  | data key => exact ⟨_, _, .data directive⟩
  | layout target => exact ⟨_, _, .decided (.inr ⟨target, directive⟩)⟩
  | noLayout => exact ⟨_, _, .decided (.inl directive)⟩
  | slot =>
    cases offer : next.filling with
    | nothing => exact ⟨_, _, .slotKept directive offer⟩
    | placed => exact ⟨_, _, .slotPlaced directive offer⟩
    | wrapped inner more => exact ⟨_, _, .slot directive offer⟩
  | inclusion argument =>
    by_cases circle : next.node.src = next.node.includeTarget argument ∨
        next.node.includeTarget argument ∈ next.includers
    · exact ⟨_, _, .spliceCircle directive circle⟩
    · cases loaded : load (next.node.includeTarget argument) with
      | error message => exact ⟨_, _, .spliceUnreadable directive circle loaded⟩
      | ok source => exact ⟨_, _, .splice directive circle loaded⟩

variable (setting load control) in
/-- The relation is total. Neither the setting nor the loader is assumed to be in any way well-behaved. -/
theorem exists_stepping : ∃ piece after, Stepping setting load control piece after := by
  cases control with
  | outer inner node =>
    cases skips : setting.scanner.skips node.source with
    | true => exact ⟨_, _, .outerSkip skips⟩
    | false =>
      cases requested : setting.requestedLayout node with
      | none => exact ⟨_, _, .bare skips requested⟩
      | some request =>
        obtain ⟨target, directive⟩ := request
        cases circle : (node :: inner).any (·.src == target) with
        | true => exact ⟨_, _, .layoutCircle skips requested circle⟩
        | false =>
          cases loaded : load target with
          | error message => exact ⟨_, _, .layoutUnreadable skips requested circle loaded⟩
          | ok source => exact ⟨_, _, .layout skips requested circle loaded⟩
  | entered frame waiting =>
    cases skips : setting.scanner.skips frame.node.source with
    | true => exact ⟨_, _, .enteredSkip skips⟩
    | false => exact ⟨_, _, .enteredScan skips⟩
  | scanning frame waiting =>
    cases found : setting.scanner.next? frame.node.source frame.start with
    | none => exact ⟨_, _, .tail found⟩
    | some hit =>
      obtain ⟨here, after, passing⟩ := exists_passing setting load { frame with start := hit.stop } hit waiting
      exact ⟨_, _, .hit found passing⟩
  | done => exact ⟨_, _, .done⟩

variable (setting load control) in
/-- Every step is one of those listed, so that an invariant of all steps is a matter of going through the cases once.
-/
theorem stepping_step : Stepping setting load control (control.step setting load).1 (control.step setting load).2 := by
  obtain ⟨piece, after, stepping⟩ := exists_stepping setting load control
  rwa [stepping.step_eq]

end Relations

/-- What comes out of a number of steps, and where they lead. -/
def run : Nat → Control → Run × Control
  | 0, control => (.empty, control)
  | n + 1, control =>
    let (piece, next) := control.step setting load
    let (rest, last) := run n next
    (piece ++ rest, last)

variable {setting load}

theorem run_succ (n : Nat) (control : Control) :
    control.run setting load (n + 1) =
      ((control.step setting load).1 ++ ((control.step setting load).2.run setting load n).1,
        ((control.step setting load).2.run setting load n).2) := rfl

theorem run_one (control : Control) : control.run setting load 1 = control.step setting load := by
  rw [run_succ, run, Run.append_empty]

theorem run_done (n : Nat) : done.run setting load n = (.empty, .done) := by
  induction n with
  | zero => rfl
  | succ n ih =>
    rw [run_succ, step, ih]
    rfl

/-- A number of steps can be taken in two parts: what the second part puts out comes behind what the first did, and it
goes on from where the first has led. -/
theorem run_add (n m : Nat) (control : Control) :
    control.run setting load (n + m) =
      ((control.run setting load n).1 ++ ((control.run setting load n).2.run setting load m).1,
        ((control.run setting load n).2.run setting load m).2) := by
  induction n generalizing control with
  | zero => rw [Nat.zero_add]; rfl
  | succ n ih => rw [Nat.succ_add, run_succ, ih, run_succ, Run.append_assoc]

/-- The last of some steps can be split off, which is how invariants of a run are carried along. -/
theorem run_succ_last (n : Nat) (control : Control) :
    control.run setting load (n + 1) =
      ((control.run setting load n).1 ++ ((control.run setting load n).2.step setting load).1,
        ((control.run setting load n).2.step setting load).2) := by
  rw [run_add, run_succ]
  simp only [run, Run.append_empty]

/-- Once nothing is left to do, further steps neither put anything out nor lead anywhere else. -/
theorem run_of_done {n m : Nat} {control : Control} (ended : (control.run setting load n).2 = .done)
    (later : n ≤ m) : control.run setting load m = control.run setting load n := by
  obtain ⟨k, rfl⟩ := Nat.exists_eq_add_of_le later
  rw [run_add, ended, run_done, Run.append_empty, ← ended]

/-- Two numbers of steps that both come to the end have put out the same, so that a finished run does not depend on
how long it was allowed to go on. -/
theorem run_unique {control : Control} {n m : Nat} {a b : Run} (ran : control.run setting load n = (a, .done))
    (ran' : control.run setting load m = (b, .done)) : a = b := by
  have first := run_of_done (congrArg Prod.snd ran) (Nat.le_max_left n m)
  have second := run_of_done (congrArg Prod.snd ran') (Nat.le_max_right n m)
  rw [ran] at first
  rw [ran'] at second
  exact congrArg Prod.fst (first.symm.trans second)

end Control

end Templating
