import Templating.Proofs.Control.Basic
import Templating.Proofs.Scan.Sequence

namespace Templating

/-- A run without any piece of the text of the page. -/
def Run.Foreign (r : Run) : Prop := ∀ text, .data text .root ∉ r.events

namespace Run.Foreign
variable {a b : Run} {origin : Role}

theorem empty : Run.empty.Foreign := fun _ => List.not_mem_nil

theorem append (first : a.Foreign) (second : b.Foreign) : (a ++ b).Foreign := fun text member =>
  (List.mem_append.mp member).elim (first text) (second text)

theorem text (other : origin ≠ .root) (text : String) : (Run.text text origin).Foreign := by
  intro piece member
  rw [Run.text, Event.ofText?] at member
  split at member
  · cases member
  · cases List.mem_singleton.mp member
    exact other rfl

theorem error (e : ResolveError) : (Run.error e).Foreign := fun _ member => nomatch List.mem_singleton.mp member

theorem asked (target : Path) : (Run.asked target).Foreign := fun _ => List.not_mem_nil

theorem closing (waiting : List Frame) : (Control.closing waiting).Foreign := by
  cases waiting with
  | nil => exact fun _ member => nomatch List.mem_singleton.mp member
  | cons frame waiting => exact .empty

end Run.Foreign

/-- From an offset on, a scan meets no slot. -/
def Scanner.Slotless (s : Scanner) (source : String) (start : Nat) : Prop :=
  ∃ hits, s.Yields source start hits ∧ ∀ hit ∈ hits, hit.directive ≠ .slot

/-- Where a scan meets no slot, the next hit is none, and from its end on the scan still meets none. -/
theorem Scanner.Slotless.further {s : Scanner} {source : String} {start : Nat} {hit : Hit}
    (slotless : s.Slotless source start) (found : s.next? source start = some hit) :
    hit.directive ≠ .slot ∧ s.Slotless source hit.stop := by
  obtain ⟨hits, yields, slots⟩ := slotless
  cases yields with
  | none nothing =>
    rw [found] at nothing
    cases nothing
  | some found' more =>
    cases Option.some.inj (found.symm.trans found')
    obtain ⟨first, others⟩ := List.forall_mem_cons.mp slots
    exact ⟨first, _, more, others⟩

/-- One of the texts, the outermost first, is a layout without a slot, and so far in all are layouts. -/
inductive Setting.Bars (setting : Setting) : List Node → Prop
  | here {node inner} : node.role = .layout → setting.scanner.Slotless node.source 0 →
      Bars setting (node :: inner)
  | inside {node inner} : node.role = .layout → Bars setting inner → Bars setting (node :: inner)

/-- A layout without a slot keeps away all that is inside of it, wherever it stands among the layouts. -/
theorem Setting.bars_of_slotless {setting : Setting} {layouts inner : List Node} {layout : Node}
    (roles : ∀ l ∈ layouts, l.role = .layout) (member : layout ∈ layouts)
    (slotless : setting.scanner.Slotless layout.source 0) : setting.Bars (layouts ++ inner) := by
  induction layouts with
  | nil => cases member
  | cons first rest ih =>
    obtain ⟨role, roles⟩ := List.forall_mem_cons.mp roles
    cases member with
    | head => exact .here role slotless
    | tail _ member => exact .inside role (ih roles member)

/-- A text that is not the page, and never hands control to it. -/
structure Frame.Withholds (setting : Setting) (frame : Frame) : Prop where
  foreign : frame.node.role ≠ .root
  bars : ∀ inner more, frame.filling = .wrapped inner more →
    setting.scanner.Slotless frame.node.source frame.start ∨ setting.Bars (inner :: more)

namespace Frame.Withholds
variable {setting : Setting} {frame : Frame} {inner : Node} {more : List Node}

/-- Passing a hit does not make a text that withholds the page hand control to it. -/
theorem behind {hit : Hit} (withholds : frame.Withholds setting)
    (found : setting.scanner.next? frame.node.source frame.start = some hit) :
    Frame.Withholds setting { frame with start := hit.stop } where
  foreign := withholds.foreign
  bars inner more offers := (withholds.bars inner more offers).imp_left fun slotless => (slotless.further found).2

/-- A text that has nothing to offer to its slots never hands control to the page. All included texts are of this
kind. -/
theorem of_unfilled (foreign : frame.node.role ≠ .root) (unfilled : ∀ inner more, frame.filling ≠ .wrapped inner more) :
    frame.Withholds setting :=
  ⟨foreign, fun inner more offers => absurd offers (unfilled inner more)⟩

theorem included (includers : List Path) (src root : Path) (source : String) :
    Frame.Withholds setting ⟨includers, .nothing, .new src root source .included, 0⟩ :=
  of_unfilled (by simp only [Node.new]; decide) nofun

/-- A layout that wraps the page is no danger if it has no slot or another layout between them has none. -/
theorem of_bars (bars : setting.Bars (inner :: more)) : Frame.Withholds setting ⟨[], .ofList more, inner, 0⟩ := by
  cases bars with
  | here layout slotless => exact ⟨by rw [layout]; decide, fun _ _ _ => .inl slotless⟩
  | inside layout bars =>
    refine ⟨by rw [layout]; decide, fun node others offers => .inr ?_⟩
    cases more with
    | nil => cases offers
    | cons first rest =>
      cases offers
      exact bars

end Frame.Withholds

namespace Control
variable {setting : Setting} {load : Loader} {control after : Control} {frame : Frame} {waiting : List Frame}
  {hit : Hit} {piece : Run}

/-- The page does not have control and never gets it. -/
def Withholds (setting : Setting) : Control → Prop
  | .outer _ _ => False
  | .entered frame waiting | .scanning frame waiting => ∀ f ∈ frame :: waiting, f.Withholds setting
  | .done => True

theorem withholds_resume (held : ∀ f ∈ waiting, f.Withholds setting) : (resume waiting).Withholds setting := by
  cases waiting with
  | nil => trivial
  | cons frame waiting => exact held

/-- Passing a hit of such a text puts out nothing of the page, and nobody who has control or waits behind it will show
the page. -/
theorem Passing.withholds (passing : Passing setting load { frame with start := hit.stop } hit waiting piece after)
    (found : setting.scanner.next? frame.node.source frame.start = some hit)
    (held : ∀ f ∈ frame :: waiting, f.Withholds setting) : piece.Foreign ∧ after.Withholds setting := by
  obtain ⟨here, others⟩ := List.forall_mem_cons.mp held
  have flat : ∀ f ∈ { frame with start := hit.stop } :: waiting, f.Withholds setting :=
    List.forall_mem_cons.mpr ⟨here.behind found, others⟩
  have kept (text : String) := Run.Foreign.text here.foreign text
  cases passing with
  | data | slotKept => exact ⟨kept _, flat⟩
  | decided | slotPlaced => exact ⟨.empty, flat⟩
  | slot directive offer =>
    have bars := (here.bars _ _ offer).resolve_left fun slotless => (slotless.further found).1 directive
    exact ⟨.empty, List.forall_mem_cons.mpr
      ⟨.of_bars bars, List.forall_mem_cons.mpr ⟨.of_unfilled here.foreign nofun, others⟩⟩⟩
  | spliceCircle => exact ⟨(Run.Foreign.error _).append (kept _), flat⟩
  | spliceUnreadable => exact ⟨((Run.Foreign.asked _).append (.error _)).append (kept _), flat⟩
  | splice => exact ⟨.asked _, List.forall_mem_cons.mpr ⟨.included .., flat⟩⟩

/-- The same for a step of any kind. Only a slot hands control to what a layout wraps, and here no slot is left on the
way to the page. -/
theorem Stepping.withholds (stepping : Stepping setting load control piece after) (held : control.Withholds setting) :
    piece.Foreign ∧ after.Withholds setting := by
  cases stepping with
  | outerSkip | bare | layoutCircle | layoutUnreadable | layout => exact held.elim
  | done => exact ⟨.empty, trivial⟩
  | enteredScan => exact ⟨.empty, held⟩
  | enteredSkip | tail =>
    obtain ⟨here, others⟩ := List.forall_mem_cons.mp held
    exact ⟨(Run.Foreign.text here.foreign _).append (.closing _), withholds_resume others⟩
  | hit found passing =>
    obtain ⟨foreign, next⟩ := passing.withholds found held
    exact ⟨(Run.Foreign.text (held _ List.mem_cons_self).foreign _).append foreign, next⟩

variable (load) in
/-- Through any number of steps nothing of the page comes out, once the page does not have control and every way to it
is barred. -/
theorem withholds_run (held : control.Withholds setting) (n : Nat) :
    (control.run setting load n).1.Foreign ∧ (control.run setting load n).2.Withholds setting := by
  induction n with
  | zero => exact ⟨.empty, held⟩
  | succ n ih =>
    obtain ⟨foreign, held⟩ := ih
    obtain ⟨foreign', next⟩ := (stepping_step setting load _).withholds held
    rw [run_succ_last]
    exact ⟨foreign.append foreign', next⟩

/-- The text that has control. -/
def atWork? : Control → Option Node
  | .outer _ node => some node
  | .entered frame _ | .scanning frame _ => some frame.node
  | .done => none

theorem Withholds.not_root (held : control.Withholds setting) : ∀ node ∈ control.atWork?, node.role ≠ .root := by
  rintro node atWork
  cases control with
  | outer inner node => exact held.elim
  | done => cases atWork
  | entered frame waiting | scanning frame waiting =>
    cases atWork
    exact (held frame List.mem_cons_self).foreign

end Control

end Templating
