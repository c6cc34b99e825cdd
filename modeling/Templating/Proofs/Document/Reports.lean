import Templating.Proofs.Document.Course
import Templating.Proofs.Machine.Outcome

namespace Templating

section Split
variable {sent piece before after : List Event} {e e' : ResolveError}

/-- An error in two lists of events together is in the first or in the second, with what stands around it there. -/
theorem split_error (split : sent ++ piece = before ++ .error e :: after) :
    (∃ rest, sent = before ++ .error e :: rest ∧ after = rest ++ piece) ∨
      ∃ between, before = sent ++ between ∧ piece = between ++ .error e :: after := by
  rcases List.append_eq_append_iff.mp split with ⟨between, front, back⟩ | ⟨inside, front, back⟩
  · exact .inr ⟨between, front, back⟩
  · cases inside with
    | nil => exact .inr ⟨[], by rw [front, List.append_nil, List.append_nil], back.symm⟩
    | cons first rest =>
      rw [List.cons_append, List.cons.injEq] at back
      obtain ⟨rfl, behind⟩ := back
      exact .inl ⟨rest, front, behind⟩

theorem not_split_of_errors (quiet : sent.filterMap Event.error? = []) :
    sent ≠ before ++ .error e :: after := by
  rintro rfl
  have reported : e ∈ (before ++ Event.error e :: after).filterMap Event.error? :=
    List.mem_filterMap.mpr ⟨.error e, by simp, rfl⟩
  rw [quiet] at reported
  cases reported

/-- Between pieces without errors there is one error to be found, and only at its place. -/
theorem eq_of_only_error {gap tail : List Event} (front : gap.filterMap Event.error? = [])
    (back : tail.filterMap Event.error? = []) (split : gap ++ .error e' :: tail = before ++ .error e :: after) :
    before = gap ∧ e = e' ∧ after = tail := by
  rcases split_error split with ⟨rest, inFront, _⟩ | ⟨between, rfl, behind⟩
  · exact absurd inFront (not_split_of_errors front)
  · cases between with
    | nil =>
      rw [List.nil_append, List.cons.injEq, Event.error.injEq] at behind
      exact ⟨List.append_nil gap, behind.1.symm, behind.2.symm⟩
    | cons first more =>
      rw [List.cons_append, List.cons.injEq] at behind
      exact absurd behind.2 (not_split_of_errors back)

end Split

namespace Document

/-- An error among the events was sent by a move at an include directive, which then sent the directive,
or by the first move of a node, which has no layout from then on. -/
inductive Reported (d : Document) (load : Loader) (n : Nat) (before : List Event) (e : ResolveError) :
    (after : List Event) → Prop
  | inclusion {k node hit rest} : k < n →
      (d.moment load k).nodes[(d.moment load k).current]? = some node →
      d.setting.KeepsInclusion load (d.moment load k) node hit e (d.moment load (k + 1)) →
      (d.moment load (k + 1)).sent.toList =
        before ++ [.error e, .data (hit.text node.source) node.role] →
      Reported d load n before e (.data (hit.text node.source) node.role :: rest)
  | layout {k node after} : k < n →
      (d.moment load k).nodes[(d.moment load k).current]? = some node →
      d.setting.RefusesLayout load (d.moment load k) node e (d.moment load (k + 1)) →
      (d.moment load k).sent.toList = before → (d.moment load (k + 1)).sent.toList = before ++ [.error e] →
      (∀ m, k < m → ∃ bare, (d.moment load m).nodes[(d.moment load k).current]? = some bare ∧
        bare.layout = none ∧ bare.layoutTarget = none) →
      Reported d load n before e after

/-- No failure is silent, and none is made up. -/
structure Accounted (d : Document) (load : Loader) : Prop where
  failures : ∀ n, (d.moment load n).output.failures = (d.moment load n).loads.toList.filterMap load.failure?
  created : ∀ n, (d.moment load n).nodes.size =
    1 + ((d.moment load n).loads.toList.filter fun target => (load target).isOk).length
  reported : ∀ n before e after, (d.moment load n).sent.toList = before ++ .error e :: after →
    d.Reported load n before e after

variable {d : Document} {load : Loader} {n : Nat}

theorem Reported.later {before after : List Event} {e : ResolveError}
    (reported : d.Reported load n before e after) (rest : List Event) :
    d.Reported load (n + 1) before e (after ++ rest) := by
  cases reported with
  | inclusion earlier atWork keeps sent => exact .inclusion (Nat.lt_succ_of_lt earlier) atWork keeps sent
  | layout earlier atWork refuses gap sent bare =>
    exact .layout (Nat.lt_succ_of_lt earlier) atWork refuses gap sent bare

/-- Before the end every move has an outcome: it reports an include directive and keeps it, reports a layout and does
without it, makes a node for what was read, or reports nothing. -/
theorem Made.outcome (made : d.Made) (going : (d.moment load n).ended = false) :
    ∃ node, (d.moment load n).nodes[(d.moment load n).current]? = some node ∧
      d.setting.Outcome load (d.moment load n) node (d.moment load (n + 1)) := by
  obtain ⟨node, atWork, _, turn⟩ := made.turn going
  exact ⟨node, atWork, turn.outcome (made.linked load n) atWork⟩

/-- At every moment there are as many nodes as texts were read, with the page, and the failures among the calls are
those that were reported. -/
theorem Made.settles (made : d.Made) (load : Loader) (n : Nat) :
    ∃ created, (d.moment load n).nodes.size = 1 + created ∧ (d.moment load n).output.Settles load created := by
  induction n with
  | zero => exact ⟨0, rfl, .of_quiet .empty⟩
  | succ n ih =>
    obtain ⟨created, size, settles⟩ := ih
    cases going : (d.moment load n).ended with
    | true =>
      rw [moment_succ_of_ended going]
      exact ⟨created, size, settles⟩
    | false =>
      obtain ⟨node, _, outcome⟩ := made.outcome going
      obtain ⟨piece, more, output, grown, settled⟩ := outcome.settles
      refine ⟨created + more, ?_, ?_⟩
      · rw [grown, size, Nat.add_assoc]
      · rw [output]
        exact settles.append settled

/-- A node that has its layout, or does without one, is not given another later on. -/
theorem Made.keepsLayouts (made : d.Made) {m : Nat} (later : n ≤ m) :
    KeepsLayouts (d.moment load n).nodes (d.moment load m).nodes :=
  made.along .refl .trans (fun atWork turn => turn.change.keepsLayouts atWork) later

/-- A node whose layout was refused stays without one at all later moments, and has no target for one. -/
theorem Made.bare_of_refuses (made : d.Made) {k m : Nat} {node : Node} {e : ResolveError}
    (refuses : d.setting.RefusesLayout load (d.moment load k) node e (d.moment load (k + 1))) (later : k < m) :
    ∃ bare, (d.moment load m).nodes[(d.moment load k).current]? = some bare ∧
      bare.layout = none ∧ bare.layoutTarget = none := by
  obtain ⟨begun, there, scanning, alone⟩ := refuses.begun
  obtain ⟨bare, last, _, same⟩ := (made.keepsLayouts later).kept there (by rw [scanning]; decide)
  have bareLayout : bare.layout = none := same.trans alone
  exact ⟨bare, last, bareLayout, ((made.linked load m).sound last).layoutTarget_none bareLayout⟩

/-- An error that a move sends is one that the move is there to report, and it stands where the move puts it among the
events. -/
theorem Made.reported_succ (made : d.Made) {node : Node} {before after : List Event} {e : ResolveError}
    (atWork : (d.moment load n).nodes[(d.moment load n).current]? = some node)
    (outcome : d.setting.Outcome load (d.moment load n) node (d.moment load (n + 1)))
    {between : List Event} (front : before = (d.moment load n).sent.toList ++ between)
    (sent : (d.moment load (n + 1)).sent.toList = before ++ .error e :: after) :
    d.Reported load (n + 1) before e after := by
  -- The error is in the piece that the move has sent.
  have piece {r : Run} (output : (d.moment load (n + 1)).output = (d.moment load n).output ++ r) :
      r.events = between ++ .error e :: after := by
    have events : (d.moment load (n + 1)).sent.toList = (d.moment load n).sent.toList ++ r.events :=
      congrArg Run.events output
    rw [events, front, List.append_assoc] at sent
    exact List.append_cancel_left sent
  cases outcome with
  | quiet output quiet _ => exact absurd (piece output) (not_split_of_errors quiet.errors)
  | @loaded target _ gap _ output _ =>
    have quiet : (Run.text gap node.role ++ Run.asked target).errors = [] := by
      rw [Run.errors_append, Run.errors_text]
      rfl
    exact absurd (piece output) (not_split_of_errors quiet)
  | @kept hit e' keeps _ =>
    have boundary := ((made.linked load n).sound atWork).boundary
    have filled := d.setting.scanner.text_ne_of_next? boundary keeps.found
    have split := piece keeps.output
    rw [Run.events_append, Run.events_append, e'.events_call, Run.events_text filled, List.append_assoc] at split
    have text : [Event.data (hit.text node.source) node.role].filterMap Event.error? = [] := rfl
    obtain ⟨_, rfl, rfl⟩ := eq_of_only_error (Run.errors_text _ node.role) text split
    exact .inclusion (Nat.lt_succ_self n) atWork keeps sent
  | @refused e' refuses _ =>
    have split := piece refuses.output
    rw [e'.events_call] at split
    have silent : ([] : List Event).filterMap Event.error? = [] := rfl
    obtain ⟨rfl, rfl, rfl⟩ := eq_of_only_error silent silent split
    rw [List.append_nil] at front
    exact .layout (Nat.lt_succ_self n) atWork refuses front.symm sent fun m later =>
      made.bare_of_refuses refuses later

/-- Every error among the events is reported by a move. By induction on the moments, since an error is in what was
sent before or in what the last move sends. -/
theorem Made.reported (made : d.Made) {before after : List Event} {e : ResolveError}
    (sent : (d.moment load n).sent.toList = before ++ .error e :: after) :
    d.Reported load n before e after := by
  induction n generalizing after with
  | zero => exact absurd sent (not_split_of_errors rfl)
  | succ n ih =>
    cases going : (d.moment load n).ended with
    | true =>
      have earlier := sent
      rw [moment_succ_of_ended going] at earlier
      have reported := (ih earlier).later []
      rwa [List.append_nil] at reported
    | false =>
      obtain ⟨node, atWork, outcome⟩ := made.outcome going
      obtain ⟨piece, _, output, _, _⟩ := outcome.settles
      have events : (d.moment load (n + 1)).sent.toList = (d.moment load n).sent.toList ++ piece.events :=
        congrArg Run.events output
      -- Either the error was there before, or the last move has sent it.
      rcases split_error (events.symm.trans sent) with ⟨rest, earlier, rfl⟩ | ⟨between, front, _⟩
      · exact (ih earlier).later _
      · exact made.reported_succ atWork outcome front sent

end Document

/-- What a run reports and what becomes of its calls are the same, with any loader and at every moment: no failure is
silent, and none is made up. -/
theorem Composer.accounted {c : Composer} {src : Path} {source : String} {d : Document}
    (made : c.document src source = .ok d) (load : Loader) : d.Accounted load := by
  have made := c.made made
  refine ⟨fun n => ?_, fun n => ?_, fun n before e after sent => made.reported sent⟩
  · obtain ⟨_, _, settles⟩ := made.settles load n
    exact settles.failures
  · obtain ⟨created, size, settles⟩ := made.settles load n
    rw [size, settles.created]
    rfl

theorem Composer.accounted_plain :
    ∃ d, plain.document ⟨"a.html"⟩ "<!-- include(a.html) --><!-- include(b.html) -->" = .ok d ∧
      d.run? (fun _ => .error "gone") 9 =
        some ⟨[.error ⟨.circle, ⟨"site/a.html"⟩, ⟨"site/a.html"⟩, some "<!-- include(a.html) -->"⟩,
          .data "<!-- include(a.html) -->" .root,
          .error ⟨.unreadable "gone", ⟨"site/a.html"⟩, ⟨"site/b.html"⟩, some "<!-- include(b.html) -->"⟩,
          .data "<!-- include(b.html) -->" .root, .finish], [⟨"site/b.html"⟩]⟩ ∧
      d.Accounted (fun _ => .error "gone") := by
  have made : plain.document ⟨"a.html"⟩ "<!-- include(a.html) --><!-- include(b.html) -->" = .ok _ :=
    if_neg (by decide)
  exact ⟨_, made, by decide +kernel, accounted made _⟩

end Templating
