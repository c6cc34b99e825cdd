import Templating.Proofs.Control.Basic

namespace Templating

def Cause.muted : Cause → Cause
  | .circle => .circle
  | .unreadable _ => .unreadable ""

def ResolveError.muted (e : ResolveError) : ResolveError := { e with cause := e.cause.muted }

def Event.muted : Event → Event
  | .error e => .error e.muted
  | e => e

def Run.muted (r : Run) : Run := ⟨r.events.map Event.muted, r.loads⟩

/-- The loader with the same answers, but nothing to say about a failure. -/
def Loader.muted (load : Loader) : Loader := fun p =>
  match load p with
  | .ok text => .ok text
  | .error _ => .error ""

namespace Loader
variable {load load' : Loader} {p : Path} {text message : String}

theorem muted_of_ok (loaded : load p = .ok text) : load.muted p = .ok text := by rw [muted, loaded]

theorem muted_of_error (failed : load p = .error message) : load.muted p = .error "" := by rw [muted, failed]

/-- Loaders that read the same text at a path, if any, are the same there without their messages, also where both fail
for different reasons. -/
theorem muted_congr (alike : ∀ text, load' p = .ok text ↔ load p = .ok text) : load'.muted p = load.muted p := by
  cases loaded : load p with
  | ok text => rw [muted_of_ok loaded, muted_of_ok ((alike text).mpr loaded)]
  | error message =>
    cases loaded' : load' p with
    | ok text =>
      rw [(alike text).mp loaded'] at loaded
      cases loaded
    | error message' => rw [muted_of_error loaded, muted_of_error loaded']

end Loader

namespace Run

theorem muted_append (a b : Run) : (a ++ b).muted = a.muted ++ b.muted := by
  rw [muted, events_append, List.map_append]
  rfl

theorem muted_text (text : String) (origin : Role) : (Run.text text origin).muted = .text text origin := by
  unfold Run.text Event.ofText?
  split <;> rfl

end Run

namespace Control
variable {setting : Setting} {load : Loader} {control after : Control} {frame : Frame} {hit : Hit}
  {waiting : List Frame} {piece : Run}

/-- The same step, without the messages. -/
def muted (result : Run × Control) : Run × Control := (result.1.muted, result.2)

theorem muted_closing (waiting : List Frame) : (closing waiting).muted = closing waiting := by cases waiting <;> rfl

/-- With a loader that says nothing about failures a hit is passed in the same way, and the reports come out without
messages. -/
theorem Passing.muted (passing : Passing setting load frame hit waiting piece after) :
    Passing setting load.muted frame hit waiting piece.muted after := by
  cases passing with
  | data directive =>
    rw [Run.muted_text]
    exact .data directive
  | decided directive => exact .decided directive
  | slotKept directive offer =>
    rw [Run.muted_text]
    exact .slotKept directive offer
  | slotPlaced directive offer => exact .slotPlaced directive offer
  | slot directive offer => exact .slot directive offer
  | spliceCircle directive circle =>
    rw [Run.muted_append, Run.muted_text]
    exact .spliceCircle directive circle
  | spliceUnreadable directive straight loaded =>
    rw [Run.muted_append, Run.muted_append, Run.muted_text]
    exact .spliceUnreadable directive straight (Loader.muted_of_error loaded)
  | splice directive straight loaded => exact .splice directive straight (Loader.muted_of_ok loaded)

/-- The same for a whole step: no step looks at a message, so that the case it belongs to does not change. -/
theorem Stepping.muted (stepping : Stepping setting load control piece after) :
    Stepping setting load.muted control piece.muted after := by
  cases stepping with
  | outerSkip skips =>
    rw [Run.muted_append, Run.muted_text, muted_closing]
    exact .outerSkip skips
  | bare kept requested => exact .bare kept requested
  | layoutCircle kept requested circle => exact .layoutCircle kept requested circle
  | layoutUnreadable kept requested straight loaded =>
    exact .layoutUnreadable kept requested straight (Loader.muted_of_error loaded)
  | layout kept requested straight loaded =>
    exact .layout kept requested straight (Loader.muted_of_ok loaded)
  | enteredSkip skips =>
    rw [Run.muted_append, Run.muted_text, muted_closing]
    exact .enteredSkip skips
  | enteredScan kept => exact .enteredScan kept
  | tail none =>
    rw [Run.muted_append, Run.muted_text, muted_closing]
    exact .tail none
  | hit found passing =>
    rw [Run.muted_append, Run.muted_text]
    exact .hit found passing.muted
  | done => exact .done

/-- Leaving the messages out of the answers is the same as leaving them out of what a step puts out; where the step
leads is not affected. -/
theorem step_muted (setting : Setting) (load : Loader) (control : Control) :
    control.step setting load.muted = muted (control.step setting load) :=
  (stepping_step setting load control).muted.step_eq

/-- What a loader says about its failures is reported and has no other effect, through any number of steps. -/
theorem run_muted (setting : Setting) (load : Loader) (n : Nat) (control : Control) :
    control.run setting load.muted n = muted (control.run setting load n) := by
  induction n generalizing control with
  | zero => rfl
  | succ n ih =>
    rw [run_succ, step_muted, ih, run_succ, muted, muted, muted, Run.muted_append]

end Control

end Templating
