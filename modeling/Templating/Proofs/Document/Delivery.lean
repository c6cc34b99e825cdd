import Templating.EventQueue
import Templating.Proofs.Document.Course

namespace Templating

/-- The text that an event carries, if it carries one. -/
def Event.text? : Event → Option String
  | .data text _ => some text
  | .error _ | .finish => none

/-- The texts of some events put together, and their errors in order. -/
def Rendering.whole (events : List Event) : Rendering :=
  ⟨String.join (events.filterMap Event.text?), events.filterMap Event.error?⟩

def Rendering.append (a b : Rendering) : Rendering := ⟨a.text ++ b.text, a.errors ++ b.errors⟩

instance : Append Rendering := ⟨Rendering.append⟩

namespace Rendering
variable {events before : List Event}

theorem whole_append (before events : List Event) : whole (before ++ events) = whole before ++ whole events := by
  change _ = Rendering.mk _ _
  rw [whole, List.filterMap_append, List.filterMap_append, String.join_append]
  rfl

theorem ofEvents_cons_data (text : String) (origin : Role) (events : List Event) :
    ofEvents (.data text origin :: events) = whole [.data text origin] ++ ofEvents events := by
  change _ = Rendering.mk (String.join [text] ++ _) ([] ++ _)
  rw [String.join_cons, String.join_nil, String.append_empty, List.nil_append]
  rfl

theorem ofEvents_cons_error (e : ResolveError) (events : List Event) :
    ofEvents (.error e :: events) = whole [.error e] ++ ofEvents events := by
  change _ = Rendering.mk (String.join [] ++ _) ([e] ++ _)
  rw [String.join_nil, String.empty_append, List.singleton_append]
  rfl

theorem ofEvents_eq (events : List Event) : ofEvents events = whole (events.takeWhile (· != .finish)) := by
  induction events with
  | nil => rfl
  | cons e events ih =>
    cases e with
    | data text origin => rw [ofEvents_cons_data, ih, ← whole_append]; rfl
    | error e => rw [ofEvents_cons_error, ih, ← whole_append]; rfl
    | finish => rfl

/-- Nothing is left out where nothing comes behind an end. Events without any end are rendered as a whole, too. -/
theorem ofEvents_of_finish_last (last : ∀ before after, events = before ++ .finish :: after → after = []) :
    ofEvents events = whole events := by
  induction events with
  | nil => rfl
  | cons e events ih =>
    have rest := ih fun before after split => last (e :: before) after (congrArg (e :: ·) split)
    cases e with
    | data text origin => rw [ofEvents_cons_data, rest, ← whole_append]; rfl
    | error e => rw [ofEvents_cons_error, rest, ← whole_append]; rfl
    | finish => rw [last [] events rfl]; rfl

end Rendering

namespace EventQueue

/-- What a run and its reader may do with a queue. A reader that waits receives once there is something,
so that waiting is no use of its own. -/
inductive Use
  | data (text : String) (origin : Role)
  | error (error : ResolveError)
  | finish
  | receive
  /-- The reader leaves. -/
  | drop
deriving DecidableEq

/-- The event that a use sends; an empty piece of text is none. -/
def Use.event? : Use → Option Event
  | .data text origin => Event.ofText? text origin
  | .error e => some (.error e)
  | .finish => some .finish
  | .receive | .drop => none

/-- The events that are sent, in order. -/
def sent (uses : List Use) : List Event := uses.filterMap Use.event?

def Received.event? : Received → Option Event
  | .event e => some e
  | .empty | .dropped => none

/-- What a use hands out to the reader, and the queue behind it. -/
def use (q : EventQueue) : Use → Option Event × EventQueue
  | .data text origin => (none, q.sendText text origin)
  | .error e => (none, q.send (.error e))
  | .finish => (none, q.send .finish)
  | .receive => (q.receive.1.event?, q.receive.2)
  | .drop => (none, q.drop)

/-- What uses one after another hand out to the reader, and the queue behind them. -/
def run (q : EventQueue) : List Use → List Event × EventQueue
  | [] => ([], q)
  | u :: uses => ((q.use u).1.toList ++ ((q.use u).2.run uses).1, ((q.use u).2.run uses).2)

/-- The queue that the reader has left. -/
def abandoned : EventQueue := ⟨[], false⟩

section Uses
variable {q : EventQueue} {u : Use} {uses : List Use}

/-- Uses can be taken in two parts: the second goes on with the queue that the first has left. -/
theorem run_append (q : EventQueue) (before after : List Use) :
    q.run (before ++ after) =
      ((q.run before).1 ++ ((q.run before).2.run after).1, ((q.run before).2.run after).2) := by
  induction before generalizing q with
  | nil => rfl
  | cons u before ih => rw [List.cons_append, run, run, ih, List.append_assoc]

/-- A piece of text is sent as an event, but an empty one is not sent at all. -/
theorem sendText_eq (q : EventQueue) (text : String) (origin : Role) :
    q.sendText text origin = (Event.ofText? text origin).elim q q.send := by
  unfold sendText
  cases Event.ofText? text origin <;> rfl

theorem send_of_listening (listening : q.listening = true) (e : Event) :
    q.send e = ⟨q.pending ++ [e], true⟩ := by
  rw [send, if_pos listening, listening]

/-- While the reader is there, a use loses nothing, repeats nothing and keeps the order: what waits and is sent is
what is handed out and waits. -/
theorem use_of_listening (listening : q.listening = true) (stays : u ≠ .drop) :
    (q.use u).2.listening = true ∧
      q.pending ++ u.event?.toList = (q.use u).1.toList ++ (q.use u).2.pending := by
  cases u with
  | data text origin =>
    rw [use, sendText_eq, Use.event?]
    cases Event.ofText? text origin with
    | none => exact ⟨listening, List.append_nil _⟩
    | some e => rw [Option.elim_some, send_of_listening listening]; exact ⟨rfl, rfl⟩
  | error e => rw [use, send_of_listening listening]; exact ⟨rfl, rfl⟩
  | finish => rw [use, send_of_listening listening]; exact ⟨rfl, rfl⟩
  | receive =>
    unfold use receive
    rw [if_pos listening]
    cases waiting : q.pending with
    | nil => exact ⟨listening, by rw [waiting]; rfl⟩
    | cons e rest => exact ⟨listening, List.append_nil _⟩
  | drop => exact absurd rfl stays

/-- The same for any number of uses among which the reader does not leave. By induction on the uses. -/
theorem run_of_listening (listening : q.listening = true) (stays : .drop ∉ uses) :
    (q.run uses).2.listening = true ∧ q.pending ++ sent uses = (q.run uses).1 ++ (q.run uses).2.pending := by
  induction uses generalizing q with
  | nil => exact ⟨listening, List.append_nil _⟩
  | cons u uses ih =>
    obtain ⟨other, stays⟩ := not_or.mp (mt List.mem_cons.mpr stays)
    obtain ⟨still, first⟩ := use_of_listening listening (Ne.symm other)
    obtain ⟨last, rest⟩ := ih still stays
    have split : sent (u :: uses) = u.event?.toList ++ sent uses := by
      rw [sent, List.filterMap_cons]
      cases u.event? <;> rfl
    refine ⟨last, ?_⟩
    rw [run, split, ← List.append_assoc, first, List.append_assoc, rest, List.append_assoc]

theorem run_abandoned (uses : List Use) : abandoned.run uses = ([], abandoned) := by
  induction uses with
  | nil => rfl
  | cons u uses ih =>
    have step : abandoned.use u = (none, abandoned) := by
      cases u with
      | data text origin =>
        rw [use, sendText_eq]
        cases Event.ofText? text origin <;> rfl
      | error | finish | receive | drop => rfl
    rw [run, step, ih]
    rfl

end Uses

/-- What holds of everything that a run and its reader may do with a queue that is new. -/
structure Faithful (uses : List Use) : Prop where
  /-- What has been received, followed by what still waits, is what has been sent. -/
  delivered : .drop ∉ uses → (new.run uses).1 ++ (new.run uses).2.pending = sent uses
  /-- What waits before the first end is collected, and nothing behind it. -/
  collected : .drop ∉ uses →
    (new.run uses).2.collect? = some (.whole ((new.run uses).2.pending.takeWhile (· != .finish)))
  /-- The reader has received what was sent before it left but for what waited then; whatever comes later
  is taken and discarded. -/
  discarded : ∀ before after, uses = before ++ .drop :: after → .drop ∉ before →
    (new.run uses).1 ++ (new.run before).2.pending = sent before ∧ (new.run uses).2 = abandoned ∧
      (new.run uses).2.collect? = none
  /-- When a whole document is sent, all of its text and errors arrive: some are received, and the others
  are collected. -/
  whole : ∀ {c : Composer} {src : Path} {source : String} {d : Document} {load : Loader} {n : Nat} {r : Run},
    c.document src source = .ok d → d.run? load n = some r → .drop ∉ uses → sent uses = r.events →
      ∃ rest, (new.run uses).2.collect? = some rest ∧
        Rendering.whole (new.run uses).1 ++ rest = Rendering.whole r.events

end EventQueue

/-- The events of a document that has come to its end close with that end, and no event comes behind one. -/
theorem Document.Made.finish_last {d : Document} {load : Loader} {n : Nat} {r : Run} (made : d.Made)
    (ran : d.run? load n = some r) {before after : List Event} (split : r.events = before ++ .finish :: after) :
    after = [] := by
  obtain ⟨ended, output⟩ := run?_eq_some_iff.mp ran
  rcases (closes made n : (d.moment load n).ended = false ∧ _ ∨ _) with ⟨going, _⟩ | ⟨_, front, whole, proper⟩
  · rw [moment, ended] at going
    cases going
  have events : front.events ++ [.finish] = before ++ .finish :: after := by
    rw [← split, ← output]
    exact (congrArg Run.events whole).symm
  rcases List.append_eq_append_iff.mp events with ⟨gap, rfl, behind⟩ | ⟨gap, inside, behind⟩
  · cases gap with
    | nil => exact (List.cons.inj behind).2.symm
    | cons e gap =>
      have length := congrArg List.length behind
      simp at length
  · cases gap with
    | nil => exact (List.cons.inj behind).2
    | cons e gap =>
      cases (List.cons.inj behind).1
      exact (proper .finish (by rw [inside]; simp)).elim

/-- Between a run and its reader nothing is lost, repeated or put into another order, in whatever way the two take
turns. A reader that leaves keeps what it has received, and the run is not held up. -/
theorem EventQueue.loses_nothing (uses : List Use) : Faithful uses := by
  have fresh : new.listening = true := rfl
  have delivered (stays : .drop ∉ uses) : (new.run uses).1 ++ (new.run uses).2.pending = sent uses :=
    (run_of_listening fresh stays).2.symm
  have collecting (stays : .drop ∉ uses) :
      (new.run uses).2.collect? = some (.ofEvents (new.run uses).2.pending) :=
    if_pos (run_of_listening fresh stays).1
  refine ⟨delivered, fun stays => ?_, ?_, ?_⟩
  · rw [collecting stays, Rendering.ofEvents_eq]
  · rintro before after rfl stays
    have left : (new.run before).2.run (.drop :: after) = ([], abandoned) := run_abandoned after
    rw [run_append, left, List.append_nil]
    exact ⟨(run_of_listening fresh stays).2.symm, rfl, rfl⟩
  · intro c src source d load n r made ran stays whole
    have parts := (delivered stays).trans whole
    -- An end that waits is the end of the whole document, so what is collected stops short of nothing.
    have last : ∀ before after, (new.run uses).2.pending = before ++ .finish :: after → after = [] := by
      intro before after split
      have behind : r.events = ((new.run uses).1 ++ before) ++ .finish :: after := by
        rw [← parts, split, List.append_assoc]
      exact (c.made made).finish_last ran behind
    refine ⟨_, collecting stays, ?_⟩
    rw [Rendering.ofEvents_of_finish_last last, ← Rendering.whole_append, parts]

/-- A page in two pieces: one is received, the other is collected, and an empty one is not sent. -/
theorem EventQueue.loses_nothing_plain :
    ∃ d, Composer.plain.document ⟨"page.html"⟩ "a <!-- include(part.html) -->" = .ok d ∧
      d.run? (fun _ => .ok "part") 9 =
        some ⟨[.data "a " .root, .data "part" .included, .finish], [⟨"site/part.html"⟩]⟩ ∧
      (∃ rest, (new.run [.data "a " .root, .receive, .data "" .root, .data "part" .included, .finish]).2.collect? =
          some rest ∧ Rendering.mk "a " [] ++ rest = ⟨"a part", []⟩) ∧
      (new.run [.data "a " .root, .drop, .finish]).2 = abandoned := by
  have made : Composer.plain.document ⟨"page.html"⟩ "a <!-- include(part.html) -->" = .ok _ := if_neg (by decide)
  refine ⟨_, made, ?ran, (loses_nothing _).whole made ?ran (by decide) (by decide), ?_⟩
  case ran => decide +kernel
  exact ((loses_nothing _).discarded [.data "a " .root] [.finish] rfl (by decide)).2.1

end Templating
