import Templating.Proofs.Control.Basic

namespace Templating

/-- An event that may come before the end. -/
def Event.Proper : Event → Prop
  | .data text _ => text ≠ ""
  | .error _ => True
  | .finish => False

/-- A run that has not come to the end: it consists of pieces that are not empty and of errors. -/
def Run.Proper (r : Run) : Prop := ∀ e ∈ r.events, e.Proper

namespace Run.Proper
variable {a b : Run}

theorem empty : Run.empty.Proper := nofun

theorem append (first : a.Proper) (second : b.Proper) : (a ++ b).Proper := by
  intro e member
  rcases List.mem_append.mp member with member | member
  · exact first e member
  · exact second e member

/-- A text that is put out as a piece is no event at all if it is empty, so that no piece is. -/
theorem text (text : String) (origin : Role) : (Run.text text origin).Proper := by
  intro e member
  rw [Run.text, Event.ofText?] at member
  split at member
  · cases member
  next filled =>
    cases List.mem_singleton.mp member
    exact filled

theorem error (e : ResolveError) : (Run.error e).Proper := by
  intro _ member
  cases List.mem_singleton.mp member
  exact trivial

theorem asked (target : Path) : (Run.asked target).Proper := nofun

end Run.Proper

namespace Control

/-- What comes out, and where it leads: the end comes out last, when nothing is left to do, and never
before. -/
inductive Closes : Run × Control → Prop
  | going {r control} : r.Proper → control ≠ done → Closes (r, control)
  | closed {r} : r.Proper → Closes (r ++ ⟨[.finish], []⟩, done)

variable {setting : Setting} {load : Loader} {before control : Control} {frame : Frame} {hit : Hit}
  {waiting : List Frame} {r : Run}

theorem Closes.prepend {result : Run × Control} (first : r.Proper) (closes : Closes result) :
    Closes (r ++ result.1, result.2) := by
  cases closes with
  | going proper other => exact .going (first.append proper) other
  | closed proper =>
    rw [← Run.append_assoc]
    exact .closed (first.append proper)

theorem closes_resume (waiting : List Frame) (first : r.Proper) :
    Closes (r ++ closing waiting, resume waiting) := by
  cases waiting with
  | nil => exact .closed first
  | cons frame waiting => exact .going (first.append .empty) nofun

/-- Passing a hit puts out no end and never takes the last control away, whatever the directive is. -/
theorem Passing.proper (passing : Passing setting load frame hit waiting r control) : r.Proper ∧ control ≠ .done := by
  cases passing with
  | data | slotKept => exact ⟨.text _ _, nofun⟩
  | decided | slotPlaced | slot => exact ⟨.empty, nofun⟩
  | spliceCircle => exact ⟨(Run.Proper.error _).append (.text _ _), nofun⟩
  | spliceUnreadable => exact ⟨((Run.Proper.asked _).append (.error _)).append (.text _ _), nofun⟩
  | splice => exact ⟨.asked _, nofun⟩

/-- A step from anywhere but the end puts out the end exactly if it leads there, and then as the last event. -/
theorem Stepping.closes (stepping : Stepping setting load before r control) (going : before ≠ .done) :
    Closes (r, control) := by
  cases stepping with
  | outerSkip => exact .closed (.text _ _)
  | bare | enteredScan => exact .going .empty nofun
  | layoutCircle => exact .going (.error _) nofun
  | layoutUnreadable => exact .going ((Run.Proper.asked _).append (.error _)) nofun
  | layout => exact .going (.asked _) nofun
  | enteredSkip | tail => exact closes_resume _ (.text _ _)
  | hit _ passing =>
    obtain ⟨proper, other⟩ := passing.proper
    exact .going ((Run.Proper.text _ _).append proper) other
  | done => exact absurd rfl going

/-- Any number of steps puts out the end at most once and last, and only together with giving up control for good. No
assumption is made on the loader, which may well keep the run going forever. -/
theorem closes_run (going : control ≠ done) (n : Nat) : Closes (control.run setting load n) := by
  induction n with
  | zero => exact .going .empty going
  | succ n ih =>
    rw [run_succ_last]
    generalize control.run setting load n = result at ih
    cases ih with
    | going proper other => exact ((stepping_step ..).closes other).prepend proper
    | closed proper =>
      rw [step, Run.append_empty]
      exact .closed proper

end Control

end Templating
