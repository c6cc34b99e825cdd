import Templating.Proofs.Control.Basic

namespace Templating

/-- The text for the data directive that is next in the source of a node, if one is. -/
def Setting.substituted (setting : Setting) (node : Node) (start : Nat) : Run :=
  match setting.scanner.next? node.source start with
  | none => .empty
  | some hit =>
    match hit.directive with
    | .data key => .text ((setting.value? key).getD (hit.text node.source)) node.role
    | .inclusion _ | .layout _ | .noLayout | .slot => .empty

section Substituted
variable {setting : Setting} {node : Node} {start : Nat} {hit : Hit}

theorem Setting.substituted_end (found : setting.scanner.next? node.source start = none) :
    setting.substituted node start = .empty := by
  simp only [Setting.substituted, found]

theorem Setting.substituted_data {key : String} (found : setting.scanner.next? node.source start = some hit)
    (directive : hit.directive = .data key) :
    setting.substituted node start = .text ((setting.value? key).getD (hit.text node.source)) node.role := by
  simp only [Setting.substituted, found, directive]

theorem Setting.substituted_other (found : setting.scanner.next? node.source start = some hit)
    (other : ∀ key, hit.directive ≠ .data key) : setting.substituted node start = .empty := by
  cases directive : hit.directive with
  | data key => exact absurd directive (other key)
  | inclusion | layout | noLayout | slot => simp only [Setting.substituted, found, directive]

end Substituted

namespace Control

/-- What a step puts out for a data directive. -/
def substituted (setting : Setting) : Control → Run
  | .scanning frame _ => setting.substituted frame.node frame.start
  | .outer _ _ | .entered _ _ | .done => .empty

/-- Two results that lead to the same place, and of what comes out only the end may differ. -/
def SameBefore (last last' : Run) (result result' : Run × Control) : Prop :=
  result'.2 = result.2 ∧ ∃ rest : Run, result.1 = rest ++ last ∧ result'.1 = rest ++ last'

theorem SameBefore.refl (result : Run × Control) : SameBefore .empty .empty result result :=
  ⟨rfl, result.1, (Run.append_empty _).symm, (Run.append_empty _).symm⟩

variable {setting : Setting} {load : Loader} {frame : Frame} {waiting : List Frame}

theorem SameBefore.prepend {last last' : Run} {result result' : Run × Control} (piece : Run)
    (same : SameBefore last last' result result') :
    SameBefore last last' (piece ++ result.1, result.2) (piece ++ result'.1, result'.2) := by
  obtain ⟨control, rest, output, output'⟩ := same
  exact ⟨control, piece ++ rest, by rw [output, Run.append_assoc], by rw [output', Run.append_assoc]⟩

-- The text for a data directive is all that a hit takes from the values.
/-- Passing a hit under other data values leads to the same place. What it puts out differs at most in the text for a
data directive, which is the last piece. -/
theorem pass_other_values (load : Loader) (frame : Frame) (waiting : List Frame)
    (values : List (String × String)) {start : Nat} {hit : Hit}
    (found : setting.scanner.next? frame.node.source start = some hit) :
    SameBefore (setting.substituted frame.node start)
      ({ setting with values := values }.substituted frame.node start)
      (pass setting load frame hit waiting)
      (pass { setting with values := values } load frame hit waiting) := by
  have found' : ({ setting with values := values } : Setting).scanner.next? frame.node.source start =
      some hit := found
  by_cases data : ∃ key, hit.directive = .data key
  · obtain ⟨key, directive⟩ := data
    rw [Setting.substituted_data found directive, Setting.substituted_data found' directive,
      pass_data directive, pass_data directive]
    exact ⟨rfl, .empty, rfl, rfl⟩
  · have other := not_exists.mp data
    rw [Setting.substituted_other found other, Setting.substituted_other found' other]
    cases directive : hit.directive with
    | data key => exact absurd directive (other key)
    | layout target =>
      rw [pass_decided (.inr ⟨target, directive⟩), pass_decided (.inr ⟨target, directive⟩)]
      exact .refl _
    | noLayout =>
      rw [pass_decided (.inl directive), pass_decided (.inl directive)]
      exact .refl _
    | slot =>
      rw [pass_slot directive, pass_slot directive]
      exact .refl _
    | inclusion argument =>
      rw [pass_inclusion directive, pass_inclusion directive]
      exact .refl _

/-- A scanned text puts out the same before the next directive, and the same for it unless it is a data directive. -/
theorem step_scanning_other_values (values : List (String × String)) :
    SameBefore (setting.substituted frame.node frame.start)
      ({ setting with values := values }.substituted frame.node frame.start)
      ((scanning frame waiting).step setting load)
      ((scanning frame waiting).step { setting with values := values } load) := by
  cases found : setting.scanner.next? frame.node.source frame.start with
  | none =>
    have found' : ({ setting with values := values } : Setting).scanner.next? frame.node.source
        frame.start = none := found
    rw [Setting.substituted_end found, Setting.substituted_end found', step_tail found, step_tail found']
    exact .refl _
  | some hit =>
    have found' : ({ setting with values := values } : Setting).scanner.next? frame.node.source
        frame.start = some hit := found
    rw [step_scanning found (Prod.eta _).symm, step_scanning found' (Prod.eta _).symm]
    exact (pass_other_values load { frame with start := hit.stop } waiting values found).prepend _

/-- A step under other values leads to the same place, and what it puts out for a data directive comes last;
everything before is the same event by event. -/
theorem step_other_values (values : List (String × String)) (control : Control) :
    SameBefore (control.substituted setting) (control.substituted { setting with values := values })
      (control.step setting load) (control.step { setting with values := values } load) := by
  cases control with
  | outer inner node => exact .refl _
  | entered frame waiting => exact .refl _
  | scanning frame waiting => exact step_scanning_other_values values
  | done => exact .refl _

/-- Any number of steps leads to the same place under any values. The values can neither change who has control nor
what is asked for. -/
theorem run_other_values (values : List (String × String)) (control : Control) (n : Nat) :
    (control.run { setting with values := values } load n).2 = (control.run setting load n).2 := by
  induction n with
  | zero => rfl
  | succ n ih =>
    rw [run_succ_last, run_succ_last, ih]
    exact (step_other_values values _).1

end Control

end Templating
