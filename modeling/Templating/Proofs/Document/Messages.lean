import Templating.Proofs.Document.Alike
import Templating.Proofs.Document.Delivery
import Templating.Proofs.Document.Reports

namespace Templating

/-- The same error, as the second loader makes it known: its message is another one only if it is about one of the
targets that are asked for, and the loaders differ there. -/
def ResolveError.Retold (e e' : ResolveError) (load load' : Loader) (asked : List Path) : Prop :=
  e' = e ∨ e'.muted = e.muted ∧ e.target ∈ asked ∧ load' e.target ≠ load e.target

/-- A failed call is reported with what the loader says. -/
def ResolveError.Answered (e : ResolveError) (load : Loader) (asked : List Path) : Prop :=
  ∀ message, e.cause = .unreadable message → e.target ∈ asked ∧ load e.target = .error message

namespace ResolveError
variable {e e' : ResolveError} {errors errors' : List ResolveError} {load load' : Loader} {asked asked' : List Path}

/-- Two errors that are the same but for messages, each of them with the message of its loader, differ only where the
loaders do. -/
theorem retold_of_muted (same : e'.muted = e.muted) (answered : e.Answered load asked)
    (answered' : e'.Answered load' asked') : e.Retold e' load load' asked := by
  obtain ⟨cause, src, target, directive⟩ := e
  obtain ⟨cause', src', target', directive'⟩ := e'
  rw [muted, muted, mk.injEq] at same
  obtain ⟨causes, rfl, rfl, rfl⟩ := same
  cases cause with
  | circle =>
    cases cause' with
    | circle => exact .inl rfl
    | unreadable _ => cases causes
  | unreadable message =>
    cases cause' with
    | circle => cases causes
    | unreadable message' =>
      obtain ⟨member, failed⟩ := answered message rfl
      obtain ⟨_, failed'⟩ := answered' message' rfl
      by_cases same : load' target' = load target'
      · cases failed'.symm.trans (same.trans failed)
        exact .inl rfl
      · exact .inr ⟨rfl, member, same⟩

theorem forall₂_retold (same : errors'.map muted = errors.map muted) (answered : ∀ e ∈ errors, e.Answered load asked)
    (answered' : ∀ e ∈ errors', e.Answered load' asked') :
    List.Forall₂ (fun e e' => Retold e e' load load' asked) errors errors' := by
  induction errors generalizing errors' with
  | nil =>
    rw [List.map_eq_nil_iff.mp same]
    exact .nil
  | cons e errors ih =>
    obtain ⟨e', rest, rfl, first, others⟩ := List.map_eq_cons_iff.mp same
    obtain ⟨here, behind⟩ := List.forall_mem_cons.mp answered
    obtain ⟨here', behind'⟩ := List.forall_mem_cons.mp answered'
    exact .cons (retold_of_muted first here here') (ih others behind behind')

end ResolveError

namespace Document.Made
variable {d : Document} {load load' : Loader} {n n' : Nat} {r r' : Run}

theorem rendered_errors (made : d.Made) (ran : d.run? load n = some r) : (Rendering.ofEvents r.events).errors = r.errors := by
  rw [Rendering.ofEvents_of_finish_last fun _ _ => made.finish_last ran]
  rfl

/-- A report of a failed call names a target that the run has asked for, with what the loader says about it. -/
theorem answered (made : d.Made) (ran : d.run? load n = some r) : ∀ e ∈ r.errors, e.Answered load r.loads := by
  intro e member message cause
  obtain ⟨created, _, settles⟩ := made.settles load n
  have output := (run?_eq_some_iff.mp ran).2
  have reported : (e.target, message) ∈ r.failures :=
    List.mem_filterMap.mpr ⟨e, member, by rw [ResolveError.failure?, cause]⟩
  have failures : r.failures = r.loads.filterMap load.failure? := by
    rw [← output]
    exact settles.failures
  rw [failures] at reported
  obtain ⟨target, asked, failed⟩ := List.mem_filterMap.mp reported
  unfold Loader.failure? at failed
  split at failed
  next => cases failed
  next said =>
    cases failed
    exact ⟨asked, said⟩

/-- Runs that are the same but for messages report the same errors in the same order, each with the messages of its
own loader. -/
theorem forall₂_errors (made : d.Made) (ran : d.run? load n = some r) (ran' : d.run? load' n' = some r')
    (same : r'.muted = r.muted) :
    List.Forall₂ (fun e e' => ResolveError.Retold e e' load load' r.loads) (Rendering.ofEvents r.events).errors
      (Rendering.ofEvents r'.events).errors := by
  have events : r'.events.map Event.muted = r.events.map Event.muted := congrArg Run.events same
  have renderings := congrArg Rendering.ofEvents events
  rw [Rendering.ofEvents_muted, Rendering.ofEvents_muted, Rendering.mk.injEq] at renderings
  have reported := made.answered ran
  have reported' := made.answered ran'
  rw [← made.rendered_errors ran] at reported
  rw [← made.rendered_errors ran'] at reported'
  exact ResolveError.forall₂_retold renderings.2 reported reported'

end Document.Made

end Templating
