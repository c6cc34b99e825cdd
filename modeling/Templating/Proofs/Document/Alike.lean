import Templating.Proofs.Control.Muted
import Templating.Proofs.Control.Rooted
import Templating.Proofs.Document.Answers
import Templating.Proofs.Document.Loading

namespace Templating

/-- What is rendered of events without messages is the same text, and the errors without their messages. -/
theorem Rendering.ofEvents_muted (events : List Event) :
    ofEvents (events.map Event.muted) =
      ⟨(ofEvents events).text, (ofEvents events).errors.map ResolveError.muted⟩ := by
  induction events with
  | nil => rfl
  | cons e events ih =>
    rw [List.map_cons]
    cases e with
    | data text origin =>
      change Rendering.mk (text ++ (ofEvents (events.map Event.muted)).text) _ = _
      rw [ih]
      rfl
    | error e =>
      change Rendering.mk _ (e.muted :: (ofEvents (events.map Event.muted)).errors) = _
      rw [ih]
      rfl
    | finish => rfl

/-- Runs that are the same but for messages render the same text, with as many errors in the same order. -/
theorem Rendering.ofEvents_of_muted {a b : Run} (same : a.muted = b.muted) :
    (ofEvents a.events).text = (ofEvents b.events).text ∧
      (ofEvents a.events).errors.length = (ofEvents b.events).errors.length := by
  have events : a.events.map Event.muted = b.events.map Event.muted := congrArg Run.events same
  have renderings := congrArg ofEvents events
  rw [ofEvents_muted, ofEvents_muted, Rendering.mk.injEq] at renderings
  have lengths := congrArg List.length renderings.2
  rw [List.length_map, List.length_map] at lengths
  exact ⟨renderings.1, lengths⟩

namespace Document
variable {d : Document} {load load' : Loader} {n : Nat} {r : Run}

/-- A run with a loader that says nothing about failures is the run without its messages, and there is one exactly if
there is the other. -/
theorem Made.run?_muted (made : d.Made) :
    d.run? load.muted n = some r ↔ ∃ whole, d.run? load n = some whole ∧ r = whole.muted := by
  rw [made.run?_iff, Control.run_muted]
  constructor
  · intro ran
    obtain ⟨piece, last⟩ := Prod.mk.inj ran
    exact ⟨_, made.run?_iff.mpr (Prod.ext rfl last), piece.symm⟩
  · rintro ⟨whole, ran, rfl⟩
    rw [made.run?_iff.mp ran]
    rfl

/-- All that a run asks for is asked for at its last moment; nothing is forgotten on the way. -/
theorem loads_of_run? (ran : d.run? load n = some r) : (d.moment load n).loads.toList = r.loads := by
  rw [← (run?_eq_some_iff.mp ran).2]
  rfl

/-- A run is the same with any loader that answers in the same way what the run asks for. What it would say about
other paths does not matter. -/
theorem run?_congr (ran : d.run? load n = some r) (same : ∀ p ∈ r.loads, load' p = load p) : d.run? load' n = some r := by
  have asked := loads_of_run? ran
  have agrees := ((depends_on_answers d load load' n).1 fun p member => same p ?_).2
  · rw [agrees, ran]
  · rwa [← asked, Array.mem_toList_iff]

/-- Where two loaders read the same texts at the targets asked for, a run is the same but for the messages. They may
disagree about why a target cannot be read. -/
theorem Made.exists_run?_alike (made : d.Made) (ran : d.run? load n = some r)
    (alike : ∀ p ∈ r.loads, ∀ text, load' p = .ok text ↔ load p = .ok text) :
    ∃ r', d.run? load' n = some r' ∧ r'.muted = r.muted := by
  have quiet := made.run?_muted.mpr ⟨r, ran, rfl⟩
  have quiet' := run?_congr quiet fun p member => Loader.muted_congr (alike p member)
  obtain ⟨r', ran', same⟩ := made.run?_muted.mp quiet'
  exact ⟨r', ran', same.symm⟩

/-- Two complete runs are the same, however many moves they were allowed. -/
theorem Made.run?_unique (made : d.Made) {m : Nat} {r' : Run} (ran : d.run? load n = some r)
    (ran' : d.run? load m = some r') : r = r' :=
  Control.run_unique (made.run?_iff.mp ran) (made.run?_iff.mp ran')

/-- The document lies below a root directory that is given from the root. -/
structure Rooted (d : Document) : Prop where
  page : d.page.Rooted
  layout : ∀ target, d.setting.defaultLayout = some target → target.Absolute

/-- From such a document on, all that any number of steps asks for is a path from the root in canonical form. -/
theorem Rooted.run (rooted : d.Rooted) (refuses : load.RefusesRoot) (n : Nat) :
    ((Control.outer [] d.page).run d.setting load n).1.Absolute ∧
      ((Control.outer [] d.page).run d.setting load n).2.Rooted := by
  induction n with
  | zero => exact ⟨Run.absolute_of_unasked rfl, List.forall_mem_singleton.mpr rooted.page⟩
  | succ n ih =>
    obtain ⟨asked, next⟩ := (Control.stepping_step ..).rooted refuses rooted.layout ih.2
    rw [Control.run_succ_last]
    exact ⟨ih.1.append asked, next⟩

/-- A complete run asks for such paths only, provided that the root of the file system is no text. -/
theorem Rooted.absolute_of_run? (rooted : d.Rooted) (made : d.Made) (refuses : load.RefusesRoot)
    (ran : d.run? load n = some r) : r.Absolute := by
  have asked := (rooted.run refuses n).1
  rwa [made.run?_iff.mp ran] at asked

end Document

/-- A document that is loaded from a root directory given from the root lies below it. The path that it is loaded from
may be relative. -/
theorem Composer.rooted_of_load {c : Composer} {load : Loader} {src : Path} {d : Document}
    (rooted : c.options.root.isRooted = true) (refuses : load.RefusesRoot) (loaded : c.load load src = .ok d) :
    d.Made ∧ d.Rooted := by
  unfold Composer.load at loaded
  split at loaded
  next => cases loaded
  next =>
    have resolved : (c.resolve src).isRooted = true := isRooted_resolve (.inr rooted)
    split at loaded
    next text found =>
      obtain ⟨page, layout⟩ := c.document_eq loaded
      have made := c.made loaded
      have root : d.page.root = c.options.root := by rw [page, Node.new]
      have again : c.resolve (c.resolve src) = c.resolve src :=
        resolve_resolve_iff.mpr (.inr (by rw [Path.join_of_isRooted rooted]))
      have src' : d.page.src = c.resolve src := by rw [page, Node.new, again]
      refine ⟨made, ⟨by rw [root, rooted], Path.isRooted_parent? (by rw [src', resolved]) made.src fun top => ?_⟩, ?_⟩
      · rw [← src', top] at found
        exact refuses text found
      · intro target chosen
        rw [layout] at chosen
        obtain ⟨path, _, rfl⟩ := Option.map_eq_some_iff.mp chosen
        exact Path.absolute_normalize_join (by rw [root, rooted]) _
    next => cases loaded

end Templating
