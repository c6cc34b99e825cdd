import Templating.Proofs.Document.Course

namespace Templating

/-- What comes out on the answer to a call: nothing on a text, and a report before what is kept of the
directive if there is none. -/
def Run.reaction (src target : Path) (directive : Option String) (kept : Run) : Except String String → Run
  | .ok _ => .empty
  | .error message => .error ⟨.unreadable message, src, target, directive⟩ ++ kept

/-- What a move that asks for a target does before the answer, and what it does on every answer. -/
structure State.Call (s : State) (target : Path) (answer : Except String String → State) (gap : Run) :
    Prop where
  quiet : gap.Quiet
  output : ∃ src directive kept, kept.Quiet ∧ ∀ reply : Except String String,
    (answer reply).output = s.output ++ gap ++ .asked target ++ .reaction src target directive kept reply

/-- A move asks for what it says, and for nothing else. -/
def Move.Asking (s : State) : Move → Prop
  | .step next => next.loads = s.loads
  | .load target answer => ∃ gap, s.Call target answer gap
  | .stop => True

namespace State
variable (s : State) (text : String) (origin : Role) (node : Node)

@[simp] theorem loads_emit : (s.emit text origin).loads = s.loads := by unfold emit; split <;> rfl

@[simp] theorem loads_complete : (s.complete node).loads = s.loads := by unfold complete; split <;> rfl

@[simp] theorem loads_finish : (s.finish node).loads = s.loads := loads_complete _ node

@[simp] theorem loads_passed (hit : Hit) : (s.passed node hit).loads = s.loads := loads_emit ..

end State

namespace Setting
variable (setting : Setting) (s : State) (node : Node)

/-- Beginning a node asks for its layout at most. The answer decides between a report and a new node around it. -/
theorem asking_begin : (setting.begin s node).Asking s := by
  unfold begin
  split
  · exact (State.loads_finish _ _).trans (State.loads_emit ..)
  · split
    · rfl
    next target directive _ =>
      dsimp only
      split
      · rfl
      · refine ⟨.empty, .empty, node.src, directive, .empty, .empty, fun reply => ?_⟩
        rw [Run.append_empty]
        cases reply with
        | ok source =>
          rw [Run.reaction, Run.append_empty]
          exact s.begun.output_wrap
        | error message =>
          rw [Run.reaction, Run.append_empty, State.output_report, State.output_asked, State.output_modify]

/-- Passing an include directive asks for its target at most, after the text before the directive. -/
theorem asking_inclusion (hit : Hit) (argument : String) :
    (inclusion (s.passed node hit) node argument (hit.text node.source)).Asking s := by
  unfold inclusion
  dsimp only
  split
  · exact (State.loads_emit ..).trans (State.loads_passed ..)
  · refine ⟨.text (Text.slice node.source node.index hit.start) node.role, .text .., node.src,
      some (hit.text node.source), .text (hit.text node.source) node.role, .text .., fun reply => ?_⟩
    cases reply with
    | ok source =>
      rw [Run.reaction, Run.append_empty, ← State.output_passed]
      exact State.output_splice
    | error message =>
      rw [Run.reaction, ← State.output_passed, ← Run.append_assoc, State.output_emit, State.output_report,
        State.output_asked]

theorem asking_slot (hit : Hit) : (slot (s.passed node hit) node (hit.text node.source)).Asking s := by
  unfold slot
  split
  · exact (State.loads_emit ..).trans (State.loads_passed ..)
  · split <;> exact State.loads_passed ..

theorem asking_advance : (setting.advance s node).Asking s := by
  unfold advance
  split
  · exact (State.loads_finish _ _).trans (State.loads_emit ..)
  next hit _ =>
    cases hit.directive with
    | data key => exact (State.loads_emit ..).trans (State.loads_passed ..)
    | slot => exact asking_slot s node hit
    | inclusion argument => exact asking_inclusion s node hit argument
    | layout target => exact State.loads_passed ..
    | noLayout => exact State.loads_passed ..

/-- Every move asks for one target at most and says which before it knows the answer. This is all that the proofs
below need to know of a move. -/
theorem asking_move : (setting.move s).Asking s := by
  unfold move
  split
  · trivial
  · split
    · trivial
    next node _ =>
      split
      · exact setting.asking_begin s node
      · exact setting.asking_advance s node
      · exact State.loads_complete s node

end Setting

theorem State.Call.loads {s : State} {target : Path} {answer : Except String String → State} {gap : Run}
    (call : s.Call target answer gap) (reply : Except String String) :
    (answer reply).loads = s.loads.push target := by
  obtain ⟨src, directive, kept, silent, output⟩ := call.output
  have loads : (answer reply).loads.toList = s.loads.toList ++ gap.loads ++ [target] ++
      (Run.reaction src target directive kept reply).loads := congrArg Run.loads (output reply)
  have reaction : (Run.reaction src target directive kept reply).loads = [] := by
    cases reply with
    | ok source => rfl
    | error message => exact silent.loads
  rw [call.quiet.loads, reaction, List.append_nil, List.append_nil, ← Array.toList_push] at loads
  exact Array.toList_inj.mp loads

namespace Document
variable {d : Document} {load load' : Loader} {n k : Nat} {target : Path}

/-- The run asks for a target, and its next moment depends on the answer. -/
def Asks (d : Document) (load : Loader) (n : Nat) (target : Path) : Prop :=
  ∃ answer, d.setting.move (d.moment load n) = .load target answer

/-- The run is the same with two loaders until a call that they answer differently, which is the first
one. Both send the same before the answer comes. -/
structure PartsAt (d : Document) (load load' : Loader) (n : Nat) (target : Path) : Prop where
  same : ∀ k ≤ n, d.moment load' k = d.moment load k
  alike : ∀ path ∈ (d.moment load n).loads, load' path = load path
  asks : d.Asks load n target
  differ : load' target ≠ load target
  output : ∃ gap src directive kept, gap.Quiet ∧ kept.Quiet ∧
    (d.moment load (n + 1)).output =
      (d.moment load n).output ++ gap ++ .asked target ++ .reaction src target directive kept (load target) ∧
    (d.moment load' (n + 1)).output =
      (d.moment load n).output ++ gap ++ .asked target ++ .reaction src target directive kept (load' target)

section Call
variable {answer : Except String String → State}

/-- The moment after a call is what the move makes of the answer, and depends on the loader in no other way. -/
theorem moment_of_call (moves : d.setting.move (d.moment load n) = .load target answer) :
    d.moment load (n + 1) = answer (load target) := by
  rw [moment_succ, Setting.next, moves]

/-- A move that asks for a target sends nothing before the answer but a piece of text. -/
theorem exists_call (moves : d.setting.move (d.moment load n) = .load target answer) :
    ∃ gap, (d.moment load n).Call target answer gap := by
  have asking := d.setting.asking_move (d.moment load n)
  rwa [moves] at asking

theorem loads_of_call (moves : d.setting.move (d.moment load n) = .load target answer) :
    (d.moment load (n + 1)).loads = (d.moment load n).loads.push target := by
  obtain ⟨gap, call⟩ := exists_call moves
  rw [moment_of_call moves, call.loads]

end Call

/-- A move asks for at most one target, whatever the loader is, so that the calls of a run are in an order. -/
theorem loads_succ (d : Document) (load : Loader) (n : Nat) :
    (d.moment load (n + 1)).loads = (d.moment load n).loads ∨
      ∃ target, d.Asks load n target ∧
        (d.moment load (n + 1)).loads = (d.moment load n).loads.push target := by
  have asking := d.setting.asking_move (d.moment load n)
  cases moves : d.setting.move (d.moment load n) with
  | stop =>
    rw [moment_succ, Setting.next, moves]
    exact .inl rfl
  | step next =>
    rw [moves] at asking
    rw [moment_succ, Setting.next, moves]
    exact .inl asking
  | load target answer => exact .inr ⟨target, ⟨answer, moves⟩, loads_of_call moves⟩

/-- What has been asked for at a moment is among the calls of all later moments. -/
theorem mem_loads_of_le {path : Path} (later : k ≤ n) (asked : path ∈ (d.moment load k).loads) :
    path ∈ (d.moment load n).loads := by
  induction later with
  | refl => exact asked
  | @step n _ ih =>
    rcases d.loads_succ load n with same | ⟨target, _, grown⟩
    · rwa [same]
    · rw [grown]
      exact Array.mem_push_of_mem target ih

/-- The next moment is the same with a loader that gives the same answer, if one is asked for, and in any case if none
is. -/
theorem moment_succ_eq (same : d.moment load' n = d.moment load n)
    (alike : ∀ target, d.Asks load n target → load' target = load target) :
    d.moment load' (n + 1) = d.moment load (n + 1) := by
  rw [moment_succ, moment_succ, same, Setting.next, Setting.next]
  cases moves : d.setting.move (d.moment load n) with
  | stop => rfl
  | step next => rfl
  | load target answer => exact congrArg answer (alike target ⟨answer, moves⟩)

/-- Where two runs are the same up to a call and the answers to it differ, they part there, and what both have sent
before the answer is the same. -/
theorem PartsAt.of_differ (same : ∀ k ≤ n, d.moment load' k = d.moment load k)
    (alike : ∀ path ∈ (d.moment load n).loads, load' path = load path) (asks : d.Asks load n target)
    (differ : load' target ≠ load target) : d.PartsAt load load' n target := by
  refine ⟨same, alike, asks, differ, ?_⟩
  obtain ⟨answer, moves⟩ := asks
  have moves' : d.setting.move (d.moment load' n) = .load target answer := by
    rw [same n (Nat.le_refl n), moves]
  obtain ⟨gap, quiet, src, directive, kept, silent, output⟩ := exists_call moves
  rw [moment_of_call moves, moment_of_call moves']
  exact ⟨gap, src, directive, kept, quiet, silent, output _, output _⟩

/-- Up to any moment, two runs are the same and all their calls are answered alike, or they have parted at a call. By
induction on the moments. -/
theorem same_or_parts (d : Document) (load load' : Loader) (n : Nat) :
    ((∀ k ≤ n, d.moment load' k = d.moment load k) ∧
        ∀ path ∈ (d.moment load n).loads, load' path = load path) ∨
      ∃ k < n, ∃ target, d.PartsAt load load' k target := by
  induction n with
  | zero =>
    refine .inl ⟨fun k bound => ?_, fun path asked => ?_⟩
    · cases Nat.le_zero.mp bound
      rfl
    · exact absurd asked (Array.not_mem_empty path)
  | succ n ih =>
    -- Once the runs have parted they have done so for good; until then the next call decides.
    rcases ih with ⟨same, alike⟩ | ⟨k, before, target, parts⟩
    · by_cases differs : ∃ target, d.Asks load n target ∧ load' target ≠ load target
      · obtain ⟨target, asks, differ⟩ := differs
        exact .inr ⟨n, Nat.lt_succ_self n, target, .of_differ same alike asks differ⟩
      · have answers : ∀ target, d.Asks load n target → load' target = load target := by
          intro target asks
          by_contra differ
          exact differs ⟨target, asks, differ⟩
        have next := moment_succ_eq (same n (Nat.le_refl n)) answers
        refine .inl ⟨fun k bound => ?_, fun path asked => ?_⟩
        · rcases Nat.le_succ_iff.mp bound with bound | rfl
          · exact same k bound
          · exact next
        · rcases d.loads_succ load n with kept | ⟨target, asks, grown⟩
          · exact alike path (kept ▸ asked)
          · rw [grown] at asked
            rcases Array.mem_push.mp asked with asked | rfl
            · exact alike path asked
            · exact answers path asks
    · exact .inr ⟨k, Nat.lt_succ_of_lt before, target, parts⟩

/-- A run depends on the loader by its answers only: where they agree on all targets asked for, the runs are the same,
and otherwise they are the same until the first of the calls that are answered differently. The loaders may disagree
in any way about other paths. -/
theorem depends_on_answers (d : Document) (load load' : Loader) (n : Nat) :
    ((∀ path ∈ (d.moment load n).loads, load' path = load path) →
        (∀ k ≤ n, d.moment load' k = d.moment load k) ∧ d.run? load' n = d.run? load n) ∧
      ((∃ path ∈ (d.moment load n).loads, load' path ≠ load path) →
        ∃ k < n, ∃ target, d.PartsAt load load' k target) := by
  constructor
  · intro alike
    rcases d.same_or_parts load load' n with ⟨same, _⟩ | ⟨k, before, target, parts⟩
    · refine ⟨same, ?_⟩
      have last : d.setting.after load' n (.start d.page) = d.setting.after load n (.start d.page) :=
        same n (Nat.le_refl n)
      rw [run?, run?, last]
    · obtain ⟨answer, moves⟩ := parts.asks
      have asked : target ∈ (d.moment load (k + 1)).loads := by
        rw [loads_of_call moves]
        exact Array.mem_push_self
      exact absurd (alike target (mem_loads_of_le before asked)) parts.differ
  · rintro ⟨path, asked, differ⟩
    rcases d.same_or_parts load load' n with ⟨_, alike⟩ | parts
    · exact absurd (alike path asked) differ
    · exact parts

/-- Other files do not matter, and a call that fails instead is where the runs part. -/
theorem depends_on_answers_plain :
    ∃ d, Composer.plain.document ⟨"page.html"⟩ "a <!-- include(part.html) -->" = .ok d ∧
      (d.moment (fun _ => .ok "part") 9).loads = #[⟨"site/part.html"⟩] ∧
      d.run? (fun path => if path.text = "site/part.html" then .ok "part" else .error "missing") 9 =
        d.run? (fun _ => .ok "part") 9 ∧
      ∃ k < 9, ∃ target, d.PartsAt (fun _ => .ok "part") (fun _ => .error "missing") k target := by
  have made : Composer.plain.document ⟨"page.html"⟩ "a <!-- include(part.html) -->" = .ok _ := if_neg (by decide)
  refine ⟨_, made, by decide +kernel, ?_⟩
  generalize opened : Document.mk _ _ = d
  have loads : (d.moment (fun _ => .ok "part") 9).loads = #[⟨"site/part.html"⟩] := by
    rw [← opened]
    decide +kernel
  refine ⟨((depends_on_answers d _ _ 9).1 fun path asked => ?_).2,
    (depends_on_answers d _ _ 9).2 ⟨⟨"site/part.html"⟩, ?_, nofun⟩⟩
  · rw [loads] at asked
    cases Array.mem_singleton.mp asked
    rfl
  · rw [loads]
    exact Array.mem_singleton.mpr rfl

end Document

end Templating
