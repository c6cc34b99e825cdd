import Templating.Event

namespace Templating

/-- The queue between a run and its reader. Sending never fails: once the reader has left, what is sent is discarded.
-/
structure EventQueue where
  /-- The events sent and not yet received, oldest first. -/
  pending : List Event
  /-- Whether the reader is still there. -/
  listening : Bool

namespace EventQueue

def new : EventQueue := ⟨[], true⟩

def send (q : EventQueue) (e : Event) : EventQueue :=
  if q.listening then { q with pending := q.pending ++ [e] } else q

/-- Sends a piece of text, unless it is empty. -/
def sendText (q : EventQueue) (text : String) (origin : Role) : EventQueue :=
  match Event.ofText? text origin with
  | some e => q.send e
  | none => q

/-- What the reader finds without waiting. -/
inductive Received
  | event (event : Event)
  | empty
  | dropped

def receive (q : EventQueue) : Received × EventQueue :=
  if q.listening then
    match q.pending with
    | [] => (.empty, q)
    | e :: rest => (.event e, { q with pending := rest })
  else (.dropped, q)

/-- The reader leaves; what it has not received is lost. -/
def drop (_q : EventQueue) : EventQueue := ⟨[], false⟩

/-- The reader takes everything up to the end, if it is still there. -/
def collect? (q : EventQueue) : Option Rendering :=
  if q.listening then some (Rendering.ofEvents q.pending) else none

end EventQueue

end Templating
