import Templating.Proofs.Control.Events
import Templating.Proofs.Document.Runs
import Templating.Proofs.Machine.Phases

namespace Templating

namespace Document
variable {d : Document} {load : Loader}

/-- A moment of the work on a document. -/
def moment (d : Document) (load : Loader) (n : Nat) : State := d.setting.after load n (.start d.page)

/-- The node is at work at a moment before the end, and nothing is decided yet. -/
def BeginsAt (d : Document) (load : Loader) (i : NodeId) (n : Nat) : Prop :=
  (d.moment load n).ended = false ∧ (d.moment load n).current = i ∧
    ∃ node, (d.moment load n).nodes[i]? = some node ∧ node.phase = .pending

/-- The node is at work at a moment before the end, and through at the next. -/
def CompletesAt (d : Document) (load : Loader) (i : NodeId) (n : Nat) : Prop :=
  (d.moment load n).ended = false ∧ (d.moment load n).current = i ∧
    ∃ node, (d.moment load (n + 1)).nodes[i]? = some node ∧ node.phase = .finished

/-- What holds all along the work on a document. -/
structure Orderly (d : Document) (load : Loader) : Prop where
  /-- A node that is through never gets control. -/
  unfinished : ∀ n, (d.moment load n).ended = false →
    ∃ node, (d.moment load n).nodes[(d.moment load n).current]? = some node ∧ node.phase ≠ .finished
  begins_once : ∀ i n m, d.BeginsAt load i n → d.BeginsAt load i m → n = m
  completes_once : ∀ i n m, d.CompletesAt load i n → d.CompletesAt load i m → n = m
  proper : ∀ n, (d.moment load n).ended = false → ∀ e ∈ (d.moment load n).sent.toList, e.Proper
  finish_last : ∀ n, (d.moment load n).ended = true →
    ∃ events, (d.moment load n).sent.toList = events ++ [.finish] ∧ ∀ e ∈ events, e.Proper

theorem moment_succ (n : Nat) : d.moment load (n + 1) = d.setting.next load (d.moment load n) :=
  Setting.after_succ n

theorem moment_succ_of_ended {n : Nat} (ended : (d.moment load n).ended = true) :
    d.moment load (n + 1) = d.moment load n := by
  rw [moment_succ, Setting.next_of_ended ended]

/-- At every moment the links between the nodes are in order, whatever the loader answers. -/
theorem Made.linked (made : d.Made) (load : Loader) (n : Nat) : Linked (d.moment load n).nodes :=
  (made.follows load n).1

/-- Before the end there is a node at work that is not through, and the next moment is what one of its turns leads to.
-/
theorem Made.turn (made : d.Made) {n : Nat} (going : (d.moment load n).ended = false) :
    ∃ node, (d.moment load n).nodes[(d.moment load n).current]? = some node ∧ node.phase ≠ .finished ∧
      d.setting.Turn load (d.moment load n) node (d.moment load (n + 1)) := by
  obtain ⟨node, atWork, unfinished⟩ := (made.follows load n).2.represents.exists_atWork going
  rw [moment_succ]
  exact ⟨node, atWork, unfinished, Setting.turn_next going atWork⟩

/-- What every turn does to the nodes, all moves together do. So a relation that holds of each turn and is reflexive
and transitive holds from any moment to any later one. -/
theorem Made.along (made : d.Made) {related : Array Node → Array Node → Prop}
    (refl : ∀ nodes, related nodes nodes)
    (trans : ∀ {nodes middle later}, related nodes middle → related middle later → related nodes later)
    (step : ∀ {s later : State} {node : Node}, s.nodes[s.current]? = some node →
      d.setting.Turn load s node later → related s.nodes later.nodes) {n m : Nat} (later : n ≤ m) :
    related (d.moment load n).nodes (d.moment load m).nodes := by
  induction later with
  | refl => exact refl _
  | @step m _ ih =>
    refine trans ih ?_
    cases going : (d.moment load m).ended with
    | true =>
      rw [moment_succ_of_ended going]
      exact refl _
    | false =>
      obtain ⟨node, atWork, _, turn⟩ := made.turn going
      exact step atWork turn

/-- The phases of the nodes only go on, from one moment to any later one. -/
theorem Made.onward (made : d.Made) {n m : Nat} (later : n ≤ m) :
    Onward (d.moment load n).nodes (d.moment load m).nodes :=
  made.along .refl .trans (fun atWork turn => turn.change.onward atWork) later

-- A node that has begun or is through stays so, and a later move at it would need an earlier phase.
/-- A node that is begun at a moment is not begun again, because its phase has gone on. -/
theorem Made.not_begins_later (made : d.Made) {i : NodeId} {n m : Nat} (begins : d.BeginsAt load i n)
    (later : n < m) : ¬d.BeginsAt load i m := by
  rintro ⟨_, _, node, there, pending⟩
  obtain ⟨going, rfl, first, here, start⟩ := begins
  obtain ⟨node', atWork, _, turn⟩ := made.turn going
  cases Option.some.inj (atWork.symm.trans here)
  obtain ⟨begun, next, forward⟩ := turn.change.begins atWork start
  obtain ⟨last, again, onward⟩ := (made.onward later).kept next
  cases Option.some.inj (again.symm.trans there)
  rw [pending] at onward
  exact absurd (Nat.le_trans forward onward) (by decide)

/-- A node that has come to its end is not at work again, and so does not come to its end a second time. -/
theorem Made.not_completes_later (made : d.Made) {i : NodeId} {n m : Nat}
    (completes : d.CompletesAt load i n) (later : n < m) : ¬d.CompletesAt load i m := by
  rintro ⟨going, rfl, _⟩
  obtain ⟨_, _, node, there, finished⟩ := completes
  obtain ⟨last, atWork, unfinished, _⟩ := made.turn going
  obtain ⟨same, again, onward⟩ := (made.onward later).kept there
  cases Option.some.inj (again.symm.trans atWork)
  rw [finished] at onward
  cases phase : last.phase with
  | finished => exact unfinished phase
  | pending | scanning =>
    rw [phase] at onward
    exact absurd onward (by decide)

/-- Before the end no end has been sent, and at the end it has been sent once and last. -/
theorem Made.closes (made : d.Made) (n : Nat) :
    ((d.moment load n).ended = false ∧ (d.moment load n).output.Proper) ∨
      ((d.moment load n).ended = true ∧
        ∃ r : Run, (d.moment load n).output = r ++ ⟨[.finish], []⟩ ∧ r.Proper) := by
  obtain ⟨_, represents, output⟩ := made.follows load n
  have going : Control.outer [] d.page ≠ .done := nofun
  have closes : Control.Closes ((Control.outer [] d.page).run d.setting load n) := Control.closes_run going n
  have ended := represents.ended_iff
  generalize (Control.outer [] d.page).run d.setting load n = result at closes output ended
  cases closes with
  | going proper other =>
    refine .inl ⟨Bool.eq_false_iff.mpr fun reached => other (ended.mp reached), ?_⟩
    rw [moment, output]
    exact proper
  | closed proper => exact .inr ⟨ended.mpr rfl, _, output, proper⟩

end Document

/-- The work on a document takes an orderly course, with any loader: control is never at a node that is through, each
node is begun and is through at most once, no empty piece is sent, and the end comes once and last. -/
theorem Composer.orderly {c : Composer} {src : Path} {source : String} {d : Document}
    (made : c.document src source = .ok d) (load : Loader) : d.Orderly load := by
  have made := c.made made
  refine ⟨fun n going => ?_, fun i n m first second => ?_, fun i n m first second => ?_, fun n going => ?_,
    fun n reached => ?_⟩
  · obtain ⟨node, atWork, unfinished, _⟩ := made.turn going
    exact ⟨node, atWork, unfinished⟩
  · rcases Nat.lt_trichotomy n m with before | same | after
    · exact absurd second (made.not_begins_later first before)
    · exact same
    · exact absurd first (made.not_begins_later second after)
  · rcases Nat.lt_trichotomy n m with before | same | after
    · exact absurd second (made.not_completes_later first before)
    · exact same
    · exact absurd first (made.not_completes_later second after)
  · rcases made.closes n with ⟨_, proper⟩ | ⟨reached, _⟩
    · exact proper
    · rw [going] at reached
      cases reached
  · rcases made.closes n with ⟨going, _⟩ | ⟨_, r, output, proper⟩
    · rw [going] at reached
      cases reached
    · exact ⟨r.events, congrArg Run.events output, proper⟩

theorem Composer.orderly_plain :
    ∃ d, plain.document ⟨"page.html"⟩ "a <!-- include(part.html) -->" = .ok d ∧
      (d.moment (fun _ => .ok "part") 9).ended = true ∧ d.Orderly (fun _ => .ok "part") := by
  have made : plain.document ⟨"page.html"⟩ "a <!-- include(part.html) -->" = .ok _ := if_neg (by decide)
  exact ⟨_, made, by decide +kernel, orderly made _⟩

end Templating
