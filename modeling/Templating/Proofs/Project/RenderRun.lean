import Templating.Proofs.Project.BuildRun

namespace Templating
open Workspace

/-- What is told of an event: its line if events are asked for, and a message if it is an error. -/
def Event.tell (base : Path) (events : Bool) (e : Event) : World.Action Unit :=
  let report :=
    match e with
    | .error e => log (e.logged base)
    | _ => pure ()
  if events then print (e.line ++ "\n") >>= fun _ => report else report

def Event.lines (events : List Event) : String := String.join (events.map fun e => e.line ++ "\n")

/-- What becomes of the text of a page. -/
def Project.deliver (output : Option Path) (events : Bool) (text : String) : World.Action Unit :=
  match output with
  | some file => writeOutput file text
  | none => if events then pure () else print text

/-- Rendering is to load the project, compose the page, tell its events and deliver its text. -/
theorem Project.render_eq (file input : Path) (output : Option Path) (events : Bool) :
    (render file input output events : World.Action Unit) = (do
      let project ← load file
      let composer ← project.composerOrFail
      let run ← composeFile composer (← absolute input)
      run.events.forM (Event.tell composer.options.root events)
      deliver output events (Rendering.ofEvents run.events).text) := rfl

namespace World
variable {w v u w' : World} {file input : Path} {output : Option Path} {events : Bool} {p : Project} {c : Composer}
  {d : Document} {e : Failure}

/-- The workspace once some events are told. -/
def told (w : World) (base : Path) (events : Bool) (sent : List Event) : World :=
  { w with
    printed := w.printed ++ if events then Event.lines sent else ""
    logged := w.logged ++ (sent.filterMap Event.error?).map (·.logged base) }

theorem told_nil (w : World) (base : Path) (events : Bool) : w.told base events [] = w := by
  have nothing : (if events then Event.lines [] else "") = "" := ite_self ""
  rw [told, nothing, String.append_empty, List.filterMap_nil, List.map_nil, List.append_nil]

theorem told_append (w : World) (base : Path) (events : Bool) (before after : List Event) :
    w.told base events (before ++ after) = (w.told base events before).told base events after := by
  unfold told Event.lines
  rw [List.filterMap_append, List.map_append, List.map_append, String.join_append, List.append_assoc]
  cases events with
  | true => rw [if_pos rfl, if_pos rfl, if_pos rfl, String.append_assoc]
  | false => simp only [Bool.false_eq_true, if_false, String.append_empty]

theorem told_false (w : World) (base : Path) (sent : List Event) :
    w.told base false sent = { w with logged := w.logged ++ (sent.filterMap Event.error?).map (·.logged base) } := by
  have nothing : w.printed ++ "" = w.printed := String.append_empty
  rw [told, if_neg Bool.false_ne_true, nothing]

theorem run_tell (w : World) (base : Path) (events : Bool) (e : Event) :
    (e.tell base events).run w = .ok () (w.told base events [e]) := by
  have line : Event.lines [e] = e.line ++ "\n" := by
    rw [Event.lines, List.map_singleton, String.join_cons, String.join_nil, String.append_empty]
  have silent (w : World) : { w with logged := w.logged ++ [] } = w := by rw [List.append_nil]
  have mute (w : World) : { w with printed := w.printed ++ "" } = w := by rw [String.append_empty]
  cases events with
  | true =>
    unfold told
    rw [line]
    cases e with
    | error e => rfl
    | data | finish => exact congrArg (EStateM.Result.ok ()) (silent _).symm
  | false =>
    cases e with
    | error e => exact congrArg (EStateM.Result.ok ()) (mute _).symm
    | data | finish => exact congrArg (EStateM.Result.ok ()) ((mute _).trans (silent _)).symm

/-- All events are told in order: their lines are printed if they are asked for, and errors are logged in either case.
-/
theorem run_tells (w : World) (base : Path) (events : Bool) (sent : List Event) :
    (sent.forM (Event.tell base events)).run w = .ok () (w.told base events sent) := by
  induction sent generalizing w with
  | nil => exact congrArg _ (told_nil w base events).symm
  | cons e sent ih =>
    change (e.tell base events >>= fun _ => sent.forM (Event.tell base events)).run w = _
    rw [EStateM.run_bind, run_tell]
    dsimp only
    rw [ih, ← told_append, List.singleton_append]

/-- Where the project cannot be loaded, rendering fails with that error and does nothing else. -/
theorem run_render_unloaded (failed : (Project.load file : Action Project).run w = .error e v) (input : Path)
    (output : Option Path) (events : Bool) : w.run (.render file input output events) = (.error e, v) := by
  have ended : (Command.run (.render file input output events) : Action Unit).run w = .error e v := by
    change (Project.render file input output events : Action Unit).run w = _
    unfold Project.render
    rw [EStateM.run_bind, failed]
  rw [World.run, ended]

/-- A page that can be opened is told event by event, and then its text is delivered. -/
theorem run_render (loaded : (Project.load file : Action Project).run w = .ok p v) (new : p.composer = .ok c)
    (opened : c.load v.load (v.whole input) = .ok d) :
    (Command.run (.render file input output events) : Action Unit).run w =
      (Project.deliver output events (Rendering.ofEvents (d.run v.load v.texts).events).text).run
        (v.told c.options.root events (d.run v.load v.texts).events) := by
  have composed : (composeFile c (v.whole input) : Action Run).run v = .ok (d.run v.load v.texts) v :=
    run_composeFile_ok.mpr ⟨d, opened, rfl, rfl⟩
  have stands := ((keeps_load file).ok loaded).stands (stands_of_run_load loaded)
  change (Project.render file input output events : Action Unit).run w = _
  rw [Project.render_eq, EStateM.run_bind, loaded]
  dsimp only
  rw [EStateM.run_bind, run_composerOrFail new]
  dsimp only
  rw [EStateM.run_bind, run_absolute stands]
  dsimp only
  rw [EStateM.run_bind, composed]
  dsimp only
  rw [EStateM.run_bind, run_tells]

end World

end Templating
