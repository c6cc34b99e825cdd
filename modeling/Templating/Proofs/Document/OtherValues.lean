import Templating.Proofs.Control.Substitution
import Templating.Proofs.Document.Course
import Templating.Proofs.Document.Values

namespace Templating

/-- The text for the data directive that the node at work has next, if it has one. -/
def Setting.substitutedAt (setting : Setting) (s : State) : Run :=
  match s.nodes[s.current]? with
  | none => .empty
  | some node =>
    if s.ended = false ∧ node.phase = .scanning then setting.substituted node node.index else .empty

-- A data directive gives text and nothing else.
theorem Setting.substituted_quiet (setting : Setting) (node : Node) (start : Nat) :
    (setting.substituted node start).Quiet := by
  cases found : setting.scanner.next? node.source start with
  | none =>
    rw [Setting.substituted_end found]
    exact .empty
  | some hit =>
    by_cases data : ∃ key, hit.directive = .data key
    · obtain ⟨key, directive⟩ := data
      rw [Setting.substituted_data found directive]
      exact .text ..
    · rw [Setting.substituted_other found (not_exists.mp data)]
      exact .empty

theorem Setting.substitutedAt_quiet (setting : Setting) (s : State) : (setting.substitutedAt s).Quiet := by
  unfold Setting.substitutedAt
  split
  · exact .empty
  · split
    · exact setting.substituted_quiet ..
    · exact .empty

/-- The stack and the nodes have the same data directive next, if any, and the same text for it. -/
theorem Represents.substituted_eq {s : State} {control : Control} (represents : Represents s control)
    (setting : Setting) : control.substituted setting = setting.substitutedAt s := by
  unfold Setting.substitutedAt
  cases represents with
  | outer _ pending _ situated =>
    rw [situated.here]
    exact (if_neg fun both => absurd (pending.symm.trans both.2) (by decide)).symm
  | entered _ pending _ situated =>
    rw [situated.here]
    exact (if_neg fun both => absurd (pending.symm.trans both.2) (by decide)).symm
  | scanning going scanning situated =>
    rw [situated.here]
    exact (if_pos ⟨going, scanning⟩).symm
  | done ended =>
    cases s.nodes[s.current]? with
    | none => rfl
    | some node => exact (if_neg fun both => absurd (ended.symm.trans both.1) (by decide)).symm

namespace Document

/-- The events that a move sends. -/
def sentBy (d : Document) (load : Loader) (n : Nat) : List Event :=
  (d.moment load (n + 1)).sent.toList.drop (d.moment load n).sent.size

/-- The event that a move sends for a data directive, if it gets to one and there is text for it. -/
def substitutedBy (d : Document) (load : Loader) (n : Nat) : List Event :=
  (d.setting.substitutedAt (d.moment load n)).events

/-- The events that a move sends before the one for a data directive. -/
def keptBy (d : Document) (load : Loader) (n : Nat) : List Event :=
  (d.sentBy load n).take ((d.sentBy load n).length - (d.substitutedBy load n).length)

/-- The events of a number of moves without those for data directives. -/
def kept (d : Document) (load : Loader) : Nat → List Event
  | 0 => []
  | n + 1 => d.kept load n ++ d.keptBy load n

/-- Two documents whose runs are the same but for the text for data directives. -/
structure SameBesideValues (d d' : Document) (load : Loader) : Prop where
  ended : ∀ n, (d'.moment load n).ended = (d.moment load n).ended
  loads : ∀ n, (d'.moment load n).loads = (d.moment load n).loads
  errors : ∀ n, (d'.moment load n).output.errors = (d.moment load n).output.errors
  kept : ∀ n, d'.kept load n = d.kept load n
  /-- What is left out of the events is the text for data directives. -/
  pieces : ∀ n, (d.moment load (n + 1)).sent.toList =
    (d.moment load n).sent.toList ++ (d.keptBy load n ++ d.substitutedBy load n)
  pieces' : ∀ n, (d'.moment load (n + 1)).sent.toList =
    (d'.moment load n).sent.toList ++ (d'.keptBy load n ++ d'.substitutedBy load n)

/-- The document with other values. -/
def withValues (d : Document) (values : List (String × String)) : Document :=
  { d with setting := { d.setting with values := values } }

variable {d : Document} {load : Loader}

/-- Other values do not change anything that makes a document well-made: its page and its layouts are the same. -/
theorem Made.withValues (made : d.Made) (values : List (String × String)) : (d.withValues values).Made :=
  ⟨made.layouts, made.src, made.fresh⟩

/-- What a move sends besides the text for a data directive is found by leaving that text out at the end. -/
theorem keptBy_eq {n : Nat} {rest : Run}
    (output : (d.moment load (n + 1)).output =
      (d.moment load n).output ++ (rest ++ d.setting.substitutedAt (d.moment load n))) :
    d.keptBy load n = rest.events := by
  have events : (d.moment load (n + 1)).sent.toList =
      (d.moment load n).sent.toList ++ (rest.events ++ d.substitutedBy load n) :=
    congrArg Run.events output
  have sent : d.sentBy load n = rest.events ++ d.substitutedBy load n := by
    rw [sentBy, events, ← Array.length_toList, List.drop_left]
  rw [keptBy, sent, List.length_append, Nat.add_sub_cancel, List.take_left]

/-- Under other values the same stack stands for a moment, so that the runs stay side by side. -/
theorem Made.represents_withValues (made : d.Made) (values : List (String × String)) (load : Loader)
    (n : Nat) : ∃ control, Represents (d.moment load n) control ∧
      Represents ((d.withValues values).moment load n) control := by
  have places : ((Control.outer [] d.page).run (d.withValues values).setting load n).2 =
      ((Control.outer [] d.page).run d.setting load n).2 := Control.run_other_values values _ n
  have represents' := ((made.withValues values).follows load n).2.represents
  exact ⟨_, (made.follows load n).2.represents, places ▸ represents'⟩

theorem Made.ended_withValues (made : d.Made) (values : List (String × String)) (load : Loader) (n : Nat) :
    ((d.withValues values).moment load n).ended = (d.moment load n).ended := by
  obtain ⟨control, represents, represents'⟩ := made.represents_withValues values load n
  exact Bool.eq_iff_iff.mpr (represents'.ended_iff.trans represents.ended_iff.symm)

/-- A move sends the same under other values, and then its own text for a data directive. If that text is empty,
nothing is sent for it. -/
theorem Made.exists_pieces (made : d.Made) (values : List (String × String)) (load : Loader) (n : Nat) :
    ∃ rest : Run,
      (d.moment load (n + 1)).output =
        (d.moment load n).output ++ (rest ++ d.setting.substitutedAt (d.moment load n)) ∧
      ((d.withValues values).moment load (n + 1)).output =
        ((d.withValues values).moment load n).output ++
          (rest ++ (d.withValues values).setting.substitutedAt ((d.withValues values).moment load n)) := by
  obtain ⟨control, represents, represents'⟩ := made.represents_withValues values load n
  obtain ⟨_, rest, piece, piece'⟩ : Control.SameBefore (control.substituted d.setting)
      (control.substituted (d.withValues values).setting) (control.step d.setting load)
      (control.step (d.withValues values).setting load) :=
    Control.step_other_values values control
  rw [represents.substituted_eq] at piece
  rw [represents'.substituted_eq] at piece'
  refine ⟨rest, ?_, ?_⟩
  · rw [moment_succ, ← piece]
    exact (represents.matches_next (made.linked load n) d.setting load).output
  · rw [moment_succ, ← piece']
    have linked := (made.withValues values).linked load n
    exact (represents'.matches_next linked (d.withValues values).setting load).output

/-- The run of a document under any other values differs from its own in the text for data directives alone. -/
theorem Made.same_withValues (made : d.Made) (values : List (String × String)) (load : Loader) :
    d.SameBesideValues (d.withValues values) load := by
  have outputs (n : Nat) :
      ((d.withValues values).moment load n).output.loads = (d.moment load n).output.loads ∧
        ((d.withValues values).moment load n).output.errors = (d.moment load n).output.errors := by
    induction n with
    | zero => exact ⟨rfl, rfl⟩
    | succ n ih =>
      obtain ⟨rest, output, output'⟩ := made.exists_pieces values load n
      have quiet := d.setting.substitutedAt_quiet (d.moment load n)
      have quiet' := (d.withValues values).setting.substitutedAt_quiet ((d.withValues values).moment load n)
      rw [output, output']
      simp only [Run.loads_append, Run.errors_append, quiet.loads, quiet.errors, quiet'.loads,
        quiet'.errors, ih, and_self]
  refine ⟨made.ended_withValues values load, fun n => Array.toList_inj.mp (outputs n).1,
    fun n => (outputs n).2, fun n => ?_, fun n => ?_, fun n => ?_⟩
  · induction n with
    | zero => rfl
    | succ n ih =>
      obtain ⟨rest, output, output'⟩ := made.exists_pieces values load n
      rw [kept, kept, ih, keptBy_eq output, keptBy_eq output']
  · obtain ⟨rest, output, _⟩ := made.exists_pieces values load n
    rw [keptBy_eq output]
    exact congrArg Run.events output
  · obtain ⟨rest, _, output'⟩ := made.exists_pieces values load n
    rw [keptBy_eq output']
    exact congrArg Run.events output'

end Document

namespace Composer

/-- Options that differ in nothing but the values of the data keys make documents whose runs differ in nothing but the
text for data directives. Values that spell directives are no exception, since no value is scanned. -/
theorem same_beside_values (o : Options) (data : OrderedMap DataValue) (keys : data.keys = o.data.keys) :
    (∃ e, Composer.new o = .error e ∧ Composer.new { o with data := data } = .error e) ∨
      ∃ c c', Composer.new o = .ok c ∧ Composer.new { o with data := data } = .ok c' ∧
        ∀ src source,
          (∃ e, c.document src source = .error e ∧ c'.document src source = .error e) ∨
            ∃ d d', c.document src source = .ok d ∧ c'.document src source = .ok d' ∧
              ∀ load, d.SameBesideValues d' load := by
  unfold Composer.new
  dsimp only
  rw [keys]
  cases Scanner.new o.tags o.data.keys with
  | error e => exact .inl ⟨_, rfl, rfl⟩
  | ok scanner =>
    refine .inr ⟨⟨o, scanner⟩, ⟨{ o with data := data }, scanner⟩, rfl, rfl, fun src source => ?_⟩
    by_cases empty : src.text = ""
    · exact .inl ⟨.missingPath, if_pos empty, if_pos empty⟩
    · have opened : (Composer.mk o scanner).document src source = .ok _ := if_neg empty
      have opened' : (Composer.mk { o with data := data } scanner).document src source = .ok _ := if_neg empty
      exact .inr ⟨_, _, opened, opened', fun load =>
        (Composer.made opened).same_withValues _ load⟩

/-- A value that spells an include directive comes out as it is. -/
theorem same_beside_values_directive :
    ∃ c c' d d', Composer.new (valued "name" "x") = .ok c ∧
      Composer.new { valued "name" "x" with data := [("name", .text "<!-- include(b.html) -->")] } = .ok c' ∧
      c.document ⟨"p.html"⟩ "a {{name}}" = .ok d ∧
      c'.document ⟨"p.html"⟩ "a {{name}}" = .ok d' ∧
      d.SameBesideValues d' (fun _ => .ok "part") ∧
      d'.kept (fun _ => .ok "part") 3 = [.data "a " .root, .finish] ∧
      d'.run? (fun _ => .ok "part") 3 =
        some ⟨[.data "a " .root, .data "<!-- include(b.html) -->" .root, .finish], []⟩ := by
  have form : scanKeys .default ["name"] = ["name"] := by decide +kernel
  have new := new_valued "name" "name" "x" form
  have new' := new_valued "name" "name" "<!-- include(b.html) -->" form
  rcases same_beside_values (valued "name" "x") [("name", .text "<!-- include(b.html) -->")] rfl with
    ⟨e, failed, _⟩ | ⟨c, c', made, made', documents⟩
  · cases failed.symm.trans new
  · cases made.symm.trans new
    cases made'.symm.trans new'
    rcases documents ⟨"p.html"⟩ "a {{name}}" with ⟨e, failed, _⟩ | ⟨d, d', opened, opened', same⟩
    · cases failed.symm.trans (if_neg (by decide) : _ = Except.ok _)
    · refine ⟨_, _, d, d', made, made', opened, opened', same _, ?_⟩
      cases opened'.symm.trans (if_neg (by decide) : _ = Except.ok _)
      exact ⟨by decide +kernel, by decide +kernel⟩

end Composer

end Templating
