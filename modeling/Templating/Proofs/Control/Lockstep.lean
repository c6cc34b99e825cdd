import Templating.Proofs.Control.HandOver

namespace Templating

/-- A moment that stands for what a step leads to, with the output of the step behind what was there. -/
structure Matches (before : Run) (later : State) (result : Run × Control) : Prop where
  represents : Represents later result.2
  output : later.output = before ++ result.1

/-- What a moment stands for depends on its nodes, on the one at work and on whether the end was reached; what has
been put out does not count. -/
theorem Represents.congr {s later : State} {control : Control} (represents : Represents s control)
    (nodes : later.nodes = s.nodes) (current : later.current = s.current) (ended : later.ended = s.ended) :
    Represents later control := by
  cases represents with
  | outer going pending outside situated =>
    exact .outer (ended.trans going) pending outside (by rwa [nodes, current])
  | entered going pending included situated =>
    exact .entered (ended.trans going) pending included (by rwa [nodes, current])
  | scanning going scanning situated => exact .scanning (ended.trans going) scanning (by rwa [nodes, current])
  | done reached => exact .done (ended.trans reached)

namespace Matches
variable {before run : Run} {s : State} {control : Control}

theorem emit (found : Matches before s (run, control)) (text : String) (origin : Role) :
    Matches before (s.emit text origin) (run ++ .text text origin, control) where
  represents := found.represents.congr (State.nodes_emit ..) (State.current_emit ..) (State.ended_emit ..)
  output := by rw [State.output_emit, found.output, Run.append_assoc]

theorem report (found : Matches before s (run, control)) (e : ResolveError) :
    Matches before (s.report e) (run ++ .error e, control) where
  represents := found.represents.congr rfl rfl rfl
  output := by rw [State.output_report, found.output, Run.append_assoc]

theorem asked (found : Matches before s (run, control)) (target : Path) :
    Matches before (s.asked target) (run ++ .asked target, control) where
  represents := found.represents.congr rfl rfl rfl
  output := by rw [State.output_asked, found.output, Run.append_assoc]

/-- To match a step it is enough to match one of the cases that it may be. -/
theorem of_stepping {setting : Setting} {load : Loader} {later : State} {after : Control}
    (stepping : Control.Stepping setting load control run after) (found : Matches before later (run, after)) :
    Matches before later (control.step setting load) := by
  rwa [stepping.step_eq]

/-- A move to a hit and past it does what the step does, if the rest of it does: the text before the hit comes out
first in both. -/
theorem of_passing {setting : Setting} {load : Loader} {later : State} {hit : Hit} {n : Node}
    {includers : List Path} {filling : Filling} {waiting : List Frame}
    (found : setting.scanner.next? n.source n.index = some hit)
    (passing : Control.Passing setting load ⟨includers, filling, n.fresh, hit.stop⟩ hit waiting run control)
    (rest : Matches (s.passed n hit).output later (run, control)) :
    Matches s.output later
      ((Control.scanning ⟨includers, filling, n.fresh, n.index⟩ waiting).step setting load) := by
  refine of_stepping (.hit found passing) ⟨rest.represents, ?_⟩
  rw [rest.output, State.output_passed, Run.append_assoc]
  rfl

end Matches

namespace Represents
variable {s : State} {control : Control}

/-- The end is reached when nothing is left to do in the stack, and never before. -/
theorem ended_iff (represents : Represents s control) : s.ended = true ↔ control = .done := by
  cases represents with
  | outer going _ _ _ => exact iff_of_false (by rw [going]; decide) nofun
  | entered going _ _ _ => exact iff_of_false (by rw [going]; decide) nofun
  | scanning going _ _ => exact iff_of_false (by rw [going]; decide) nofun
  | done reached => exact iff_of_true reached rfl

theorem matches_self (represents : Represents s control) : Matches s.output s (.empty, control) :=
  ⟨represents, (Run.append_empty _).symm⟩

/-- Before the end there is a node at work, and it is not through. So a move always finds something to do. -/
theorem exists_atWork (represents : Represents s control) (going : s.ended = false) :
    ∃ n, s.nodes[s.current]? = some n ∧ n.phase ≠ .finished := by
  cases represents with
  | outer _ pending _ situated => exact ⟨_, situated.here, by rw [pending]; decide⟩
  | entered _ pending _ situated => exact ⟨_, situated.here, by rw [pending]; decide⟩
  | scanning _ scanning situated => exact ⟨_, situated.here, by rw [scanning]; decide⟩
  | done reached =>
    rw [going] at reached
    cases reached

end Represents

namespace Situated
open Setting
variable {setting : Setting} {load : Loader} {s later : State} {n : Node} {includers : List Path}
  {filling : Filling} {waiting : List Frame}

/-- A node that is through gives control to the frame that waits for it, found along the links of the node: its
layout, else the node that includes it. -/
theorem finish (situated : Situated s.nodes s.current n includers filling waiting) (linked : Linked s.nodes)
    (going : s.ended = false) :
    Matches s.output (s.finish n) (Control.closing waiting, Control.resume waiting) := by
  let through : Node → Node := fun n => { n with index := Text.size n.source, phase := .finished }
  have grown : Grown s.nodes (s.nodes.modify s.current through) s.current := .modify _ fun _ => rfl
  have here : (s.nodes.modify s.current through)[s.current]? = some (through n) := by
    rw [getElem?_modify_of_some situated.here, if_pos rfl]
  cases situated.returns with
  | outermost same bare alone =>
    cases Option.some.inj (same.symm.trans situated.here)
    rw [State.finish, State.complete_outermost bare alone]
    refine ⟨.done rfl, ?_⟩
    simp only [State.output, Control.closing, Run.append_eq, Array.toList_push, List.append_nil]
    rfl
  | @layout _ _ l m waiting same link there scanning returns =>
    cases Option.some.inj (same.symm.trans situated.here)
    rw [State.finish, State.complete_layout link]
    obtain ⟨_, again, slot, role, newer⟩ := linked.layout_at situated.here link
    cases Option.some.inj (again.symm.trans there)
    have lower := linked.rank_layout situated.here link there
    have parent : m.parent = none := (linked.sound there).parent_none (by rw [role]; decide)
    refine ⟨.scanning going scanning ⟨grown.others there (Nat.ne_of_gt newer), ?_, ?_, ?_⟩, ?_⟩
    · rw [parent]
      exact .stop
    · -- The slot of the layout names the node that is now through.
      rw [slot]
      exact .placed here ((linked.sound situated.here).outside_of_layout link) rfl
    · exact returns.grown linked grown situated.here there (Int.le_of_lt lower)
    · exact (Run.append_empty _).symm
  | @includer _ _ p m _ _ waiting same link there scanning trail fills returns =>
    cases Option.some.inj (same.symm.trans situated.here)
    have included := (linked.sound situated.here).included link
    rw [State.finish, State.complete_parent ((linked.sound situated.here).included_layout included) link]
    have lower := linked.rank_parent (m := m) situated.here link
    have apart := Nat.ne_of_lt (linked.parent_older situated.here link)
    refine ⟨.scanning going scanning ⟨grown.others there apart, trail.grown grown, ?_, ?_⟩, ?_⟩
    · exact fills.grown linked grown there (.inr ⟨n, situated.here, included⟩)
    · exact returns.grown linked grown situated.here there (Int.le_of_lt lower)
    · exact (Run.append_empty _).symm

/-- The same with a last piece of text that comes out before control is given back. -/
theorem matches_finish (situated : Situated s.nodes s.current n includers filling waiting)
    (linked : Linked s.nodes) (going : s.ended = false) (text : String) :
    Matches s.output ((s.emit text n.role).finish n)
      (.text text n.role ++ Control.closing waiting, Control.resume waiting) := by
  have emitted : Situated (s.emit text n.role).nodes (s.emit text n.role).current n includers filling waiting := by
    rwa [State.nodes_emit, State.current_emit]
  have finished := emitted.finish (by rwa [State.nodes_emit]) (by rwa [State.ended_emit])
  exact ⟨finished.represents, by rw [finished.output, State.output_emit, Run.append_assoc]⟩

/-- A node that was to begin stands for a text that is scanned from its first character on. -/
theorem represents_begun (situated : Situated s.nodes s.current n includers filling waiting)
    (linked : Linked s.nodes) (going : s.ended = false) (pending : n.phase = .pending) :
    Represents s.begun (.scanning ⟨includers, filling, n.fresh, 0⟩ waiting) := by
  rw [← (linked.sound situated.here).pending_index pending]
  exact .scanning (n := { n with phase := .scanning }) going rfl (situated.begun linked)

/-- Behind a hit the node stands for the same text with the hit passed, and the frames that wait are the same. -/
theorem represents_passed (situated : Situated s.nodes s.current n includers filling waiting)
    (linked : Linked s.nodes) (going : s.ended = false) (scanning : n.phase = .scanning) (hit : Hit) :
    Represents (s.passed n hit) (.scanning ⟨includers, filling, n.fresh, hit.stop⟩ waiting) :=
  .scanning (n := { n with index := hit.stop }) (by rwa [State.ended_passed]) scanning
    (situated.passed linked hit)

/-- The turn of a page or a layout that has not begun: it skips, asks for a layout and may get one, or begins to be
scanned. Each case is the step of the stack for the outermost node. -/
theorem matches_outer {inner : List Node} (situated : Situated s.nodes s.current n [] (.ofList inner) [])
    (linked : Linked s.nodes) (going : s.ended = false) (pending : n.phase = .pending)
    (outside : n.role ≠ .included) (turn : setting.Turn load s n later) :
    Matches s.output later ((Control.outer inner n.fresh).step setting load) := by
  have begun := situated.represents_begun linked going pending
  have linkedBegun := linked_begun linked situated.here
  cases turn with
  | skip _ skips => exact .of_stepping (.outerSkip skips) (situated.matches_finish linked going n.source)
  | bare _ kept requested => exact .of_stepping (.bare kept requested) begun.matches_self
  | @layoutCircle target directive _ kept requested circle =>
    rw [(situated.begun linked).wrapsItself_eq linkedBegun] at circle
    exact .of_stepping (.layoutCircle kept requested circle)
      (begun.matches_self.report ⟨.circle, n.src, target, directive⟩)
  | @layoutUnreadable target directive message _ kept requested straight loaded =>
    rw [(situated.begun linked).wrapsItself_eq linkedBegun] at straight
    exact .of_stepping (.layoutUnreadable kept requested straight loaded)
      ((begun.matches_self.asked target).report ⟨.unreadable message, n.src, target, directive⟩)
  | @layout target directive source _ kept requested straight loaded =>
    rw [(situated.begun linked).wrapsItself_eq linkedBegun] at straight
    have atStart : n.index = 0 := (linked.sound situated.here).pending_index pending
    exact .of_stepping (.layout kept requested straight loaded)
      ⟨(situated.begun linked).wrap linkedBegun going rfl atStart outside target source, State.output_wrap⟩
  | tail scanning | data scanning | decided scanning | slotKept scanning | slotPlaced scanning | slot scanning
  | spliceCircle scanning | spliceUnreadable scanning | splice scanning =>
    rw [pending] at scanning
    cases scanning
  | again finished =>
    rw [pending] at finished
    cases finished

/-- The turn of an included text that has not begun: it skips, or begins to be scanned. -/
theorem matches_entered (situated : Situated s.nodes s.current n includers .nothing waiting)
    (linked : Linked s.nodes) (going : s.ended = false) (pending : n.phase = .pending)
    (included : n.role = .included) (turn : setting.Turn load s n later) :
    Matches s.output later ((Control.entered ⟨includers, .nothing, n.fresh, 0⟩ waiting).step setting load) := by
  cases turn with
  | skip _ skips => exact .of_stepping (.enteredSkip skips) (situated.matches_finish linked going n.source)
  | bare _ kept requested =>
    exact .of_stepping (.enteredScan kept) (situated.represents_begun linked going pending).matches_self
  | layoutCircle _ _ requested | layoutUnreadable _ _ requested | layout _ _ requested =>
    rw [Setting.requestedLayout, if_pos included] at requested
    cases requested
  | tail scanning | data scanning | decided scanning | slotKept scanning | slotPlaced scanning | slot scanning
  | spliceCircle scanning | spliceUnreadable scanning | splice scanning =>
    rw [pending] at scanning
    cases scanning
  | again finished =>
    rw [pending] at finished
    cases finished

/-- The turn of a node that is scanned: it passes a hit, or comes to its end. The cases of the turn are those of the
step. -/
theorem matches_scanning (situated : Situated s.nodes s.current n includers filling waiting)
    (linked : Linked s.nodes) (going : s.ended = false) (scanning : n.phase = .scanning)
    (turn : setting.Turn load s n later) :
    Matches s.output later
      ((Control.scanning ⟨includers, filling, n.fresh, n.index⟩ waiting).step setting load) := by
  have goes (hit : Hit) : (s.passed n hit).ended = false := by rwa [State.ended_passed]
  have behind (hit : Hit) := (situated.represents_passed linked going scanning hit).matches_self
  cases turn with
  | tail _ none => exact .of_stepping (.tail none) (situated.matches_finish linked going _)
  | @data hit key _ found directive => exact .of_passing found (.data directive) ((behind hit).emit _ _)
  | @decided hit _ found directive => exact .of_passing found (.decided directive) (behind hit)
  | @slotKept hit _ found directive bare =>
    have fills := situated.fills
    rw [bare] at fills
    cases fills with
    | waiting waits =>
      cases waits
      exact .of_passing found (.slotKept directive rfl) ((behind hit).emit _ _)
  | @slotPlaced hit w _ found directive wraps placed =>
    have fills : Fills (s.passed n hit).nodes n.slot filling := (situated.passed linked hit).fills
    rw [wraps] at fills
    rcases fills.of_slot with ⟨rfl, _⟩ | ⟨_, _, _, waits⟩
    · exact .of_passing found (.slotPlaced directive rfl) (behind hit)
    · rw [waits] at placed
      cases placed
  | @slot hit w _ found directive wraps waits =>
    have passed := situated.passed linked hit
    have fills : Fills (s.passed n hit).nodes n.slot filling := passed.fills
    rw [wraps] at fills
    rcases fills.of_slot with ⟨_, placed⟩ | ⟨inner, more, rfl, _⟩
    · rw [waits] at placed
      cases placed
    · have linkedPassed := linked_passed linked situated.here scanning found
      exact .of_passing found (.slot directive rfl)
        ⟨passed.goto linkedPassed (goes hit) scanning wraps rfl, (Run.append_empty _).symm⟩
  | @spliceCircle hit argument _ found directive circle =>
    have linkedPassed := linked_passed linked situated.here scanning found
    rw [(situated.passed linked hit).includesItself_iff linkedPassed] at circle
    exact .of_passing found (.spliceCircle directive circle) (((behind hit).report _).emit _ _)
  | @spliceUnreadable hit argument message _ found directive straight loaded =>
    have linkedPassed := linked_passed linked situated.here scanning found
    rw [← Bool.not_eq_true, (situated.passed linked hit).includesItself_iff linkedPassed] at straight
    exact .of_passing found (.spliceUnreadable directive straight loaded)
      ((((behind hit).asked _).report _).emit _ _)
  | @splice hit argument source _ found directive straight loaded =>
    have passed := situated.passed linked hit
    have linkedPassed := linked_passed linked situated.here scanning found
    rw [← Bool.not_eq_true, passed.includesItself_iff linkedPassed] at straight
    exact .of_passing found (.splice directive straight loaded)
      ⟨passed.splice linkedPassed (goes hit) scanning _ source, State.output_splice⟩
  | skip pending | bare pending | layoutCircle pending | layoutUnreadable pending | layout pending =>
    rw [scanning] at pending
    cases pending
  | again finished =>
    rw [scanning] at finished
    cases finished

end Situated

/-- Every move does what the step does: it puts out the same and leads to a moment that stands for the next stack. All
that is needed of the nodes is that they are linked in order. -/
theorem Represents.matches_next {s : State} {control : Control} (represents : Represents s control)
    (linked : Linked s.nodes) (setting : Setting) (load : Loader) :
    Matches s.output (setting.next load s) (control.step setting load) := by
  cases represents with
  | outer going pending outside situated =>
    exact situated.matches_outer linked going pending outside (Setting.turn_next going situated.here)
  | entered going pending included situated =>
    exact situated.matches_entered linked going pending included (Setting.turn_next going situated.here)
  | scanning going scanning situated =>
    exact situated.matches_scanning linked going scanning (Setting.turn_next going situated.here)
  | done reached =>
    rw [Setting.next_of_ended reached]
    exact (Represents.done reached).matches_self

/-- The nodes stay linked in order from one move to the next, provided that the default layout is in canonical form.
-/
theorem Represents.linked_next {s : State} {control : Control} (represents : Represents s control)
    (linked : Linked s.nodes) {setting : Setting} (canonical : setting.Canonical) (load : Loader) :
    Linked (setting.next load s).nodes := by
  cases going : s.ended with
  | true => rwa [Setting.next_of_ended going]
  | false =>
    obtain ⟨n, atWork, _⟩ := represents.exists_atWork going
    have turn : setting.Turn load s n _ := Setting.turn_next going atWork
    exact turn.change.linked canonical linked atWork

end Templating
