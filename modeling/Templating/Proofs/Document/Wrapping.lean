import Templating.Proofs.Control.Slots
import Templating.Proofs.Document.Course
import Templating.Proofs.Document.Values

namespace Templating

section Expansion
variable {setting : Setting} {load : Loader} {fuel n : Nat} {includers : List Path} {filling : Filling}
  {node page : Node} {start : Nat} {r : Run}

/-- The setting of a document without a default layout. -/
def Setting.bare (setting : Setting) : Setting := ⟨setting.scanner, setting.values, none⟩

/-- The default layout is of no account for the text of a node once it is scanned. -/
theorem Setting.expand_bare :
    setting.bare.expand load fuel includers filling node start =
      setting.expand load fuel includers filling node start := by
  induction fuel generalizing includers filling node start with
  | zero => rfl
  | succ fuel ih =>
    simp only [expand, ih]
    rfl

/-- Where the page is scanned next, its text and the end are all that comes out from then on. -/
theorem Control.exists_expand_of_step {piece : Run}
    (stepped : (outer [] page).step setting load = (piece, .scanning ⟨[], .nothing, page, 0⟩ []))
    (ran : (outer [] page).run setting load n = (r, .done)) :
    ∃ body, setting.expand load n [] .nothing page 0 = some body ∧ r = piece ++ (body ++ ⟨[.finish], []⟩) := by
  have first := (run_one _).trans stepped
  have agrees := @expand_agrees setting load n ⟨[], .nothing, page, 0⟩ []
  cases expanded : setting.expand load n [] .nothing page 0 with
  | none =>
    rw [expanded] at agrees
    exact absurd (ended_later (congrArg Prod.snd ran) first) agrees
  | some body =>
    rw [expanded] at agrees
    obtain ⟨m, scanned⟩ := agrees
    exact ⟨body, rfl, run_unique ran (run_trans first scanned)⟩

theorem Setting.expand_unique {m : Nat} {a b : Run}
    (expanded : setting.expand load n includers filling node start = some a)
    (expanded' : setting.expand load m includers filling node start = some b) : a = b := by
  have first := @Control.expand_agrees setting load n ⟨includers, filling, node, start⟩ []
  have second := @Control.expand_agrees setting load m ⟨includers, filling, node, start⟩ []
  rw [expanded] at first
  rw [expanded'] at second
  obtain ⟨_, ran⟩ := first
  obtain ⟨_, ran'⟩ := second
  have same := Control.run_unique ran ran'
  rw [Control.closing, Run.append_eq, Run.append_eq, Run.mk.injEq] at same
  cases a
  cases b
  rw [Run.mk.injEq]
  exact ⟨List.append_cancel_right same.1, List.append_cancel_right same.2⟩

end Expansion

section Moments
variable {s : State} {control : Control} {n : Node}

theorem Represents.atWork?_eq (represents : Represents s control) (going : s.ended = false)
    (here : s.nodes[s.current]? = some n) : control.atWork? = some n.fresh := by
  cases represents with
  | outer _ _ _ situated =>
    cases Option.some.inj (here.symm.trans situated.here)
    rfl
  | entered _ _ _ situated =>
    cases Option.some.inj (here.symm.trans situated.here)
    rfl
  | scanning _ _ situated =>
    cases Option.some.inj (here.symm.trans situated.here)
    rfl
  | done reached =>
    rw [going] at reached
    cases reached

/-- A stack with a scanned text on top stands for a node that is scanned at the same place. -/
theorem Represents.exists_scanning {frame : Frame} {waiting : List Frame}
    (represents : Represents s (.scanning frame waiting)) :
    ∃ n, s.ended = false ∧ n.phase = .scanning ∧ n.fresh = frame.node ∧ n.index = frame.start ∧
      Situated s.nodes s.current n frame.includers frame.filling waiting := by
  cases represents with
  | scanning going scanning situated => exact ⟨_, going, scanning, rfl, rfl, situated⟩

/-- The frame that waits for a text that nothing includes is its layout, at the place where it is scanned next. -/
theorem Returns.exists_layout {nodes : Array Node} {id : NodeId} {frame : Frame} {waiting : List Frame}
    (returns : Returns nodes id (frame :: waiting)) (here : nodes[id]? = some n) (alone : n.parent = none) :
    ∃ l m, n.layout = some l ∧ nodes[l]? = some m ∧ m.fresh = frame.node ∧ m.index = frame.start := by
  cases returns with
  | layout here' link there =>
    cases Option.some.inj (here.symm.trans here')
    exact ⟨_, _, link, there, rfl, rfl⟩
  | includer here' link =>
    cases Option.some.inj (here.symm.trans here')
    rw [alone] at link
    cases link

end Moments

namespace Document
variable {d : Document} {load : Loader} {layout : Node} {k : Nat}

/-- At a moment the page is at work and about to be scanned, and its layout stands behind its first
slot. -/
def SlottedAt (d : Document) (load : Loader) (layout : Node) (k : Nat) : Prop :=
  let s := d.moment load k
  s.ended = false ∧ ∃ page l wrapper hit, s.nodes[s.current]? = some page ∧ page.fresh = d.page ∧
    page.phase = .scanning ∧ page.index = 0 ∧ page.layout = some l ∧ s.nodes[l]? = some wrapper ∧
    wrapper.fresh = layout ∧ d.setting.scanner.firstSlot? layout.source = some hit ∧ wrapper.index = hit.stop

/-- What comes out of the page on its own comes out of it in its layouts: in one block, from the moment
on at which it is in the slot of the layout next to it. -/
structure PlacedAt (d : Document) (load : Loader) (layout : Node) (alone whole : Run) (k : Nat)
    (body after : Run) : Prop where
  alone : alone = body ++ ⟨[.finish], []⟩
  whole : whole = (d.moment load k).output ++ body ++ after
  slotted : d.SlottedAt load layout k
  /-- No piece of the page comes out elsewhere. -/
  foreign_before : (d.moment load k).output.Foreign
  foreign_after : after.Foreign

/-- The page is at work at the first moment only, when its layout is sought. -/
structure Withheld (d : Document) (load : Loader) (whole : Run) : Prop where
  foreign : whole.Foreign
  elsewhere : ∀ k node, 0 < k → (d.moment load k).ended = false →
    (d.moment load k).nodes[(d.moment load k).current]? = some node → node.role ≠ .root

/-- What the layout at a target changes in the run of a page. -/
structure Wrapping (d : Document) (load : Loader) (target : Path) (alone whole : Run) : Prop where
  circle : d.page.src = target → whole = .error ⟨.circle, d.page.src, target, none⟩ ++ alone
  unreadable : d.page.src ≠ target → ∀ message, load target = .error message →
    whole = .asked target ++ .error ⟨.unreadable message, d.page.src, target, none⟩ ++ alone
  wrapped : d.page.src ≠ target → ∀ text, load target = .ok text → ∃ layouts,
    d.setting.Layers load d.page (layouts ++ [d.page]) ∧
    layouts.getLast? = some (.new target d.page.root text .layout) ∧
    ((∀ l ∈ layouts, d.setting.scanner.ReachesSlot l.source) →
      ∃ k body after, d.PlacedAt load (.new target d.page.root text .layout) alone whole k body after) ∧
    ((∃ l ∈ layouts, ¬d.setting.scanner.ReachesSlot l.source) → d.Withheld load whole)

/-- Where the stack has the page on top of its layout behind the first slot, so do the nodes, and what has come out is
the same. -/
theorem Made.slottedAt (made : d.Made) {before : Run} {hit : Hit} {others : List Frame}
    (ran : (Control.outer [] d.page).run d.setting load k =
      (before, .scanning ⟨[], .nothing, d.page, 0⟩ (⟨[], .placed, layout, hit.stop⟩ :: others)))
    (slot : d.setting.scanner.firstSlot? layout.source = some hit) :
    d.SlottedAt load layout k ∧ (d.moment load k).output = before := by
  obtain ⟨linked, represents, output⟩ := made.follows load k
  rw [ran] at represents output
  obtain ⟨page, going, scanning, fresh, index, situated⟩ := represents.exists_scanning
  have role : page.role = .root := (congrArg Node.role fresh :).trans made.role
  have alone := (linked.sound situated.here).parent_none (by rw [role]; decide)
  obtain ⟨l, wrapper, link, there, same, place⟩ := situated.returns.exists_layout situated.here alone
  exact ⟨⟨going, page, l, wrapper, hit, situated.here, fresh, scanning, index, link, there, same, slot, place⟩,
    output.trans (Run.empty_append before)⟩

/-- With a layout that is not scanned to a slot, nothing of the page comes out, and after the first moment the page is
never at work. -/
theorem Made.withheld (made : d.Made) {layouts : List Node} {n : Nat} {whole : Run}
    (layers : d.setting.Layers load d.page (layouts ++ [d.page])) (roles : ∀ l ∈ layouts, l.role = .layout)
    (blocked : ∃ l ∈ layouts, ¬d.setting.scanner.ReachesSlot l.source) (ran : d.run? load n = some whole) :
    d.Withheld load whole := by
  obtain ⟨l, member, blocked⟩ := blocked
  have held := Control.run_withheld layers roles member blocked
  refine ⟨?_, fun k node later going here => ?_⟩
  · have foreign := (held n).1
    rwa [made.run?_iff.mp ran] at foreign
  · have atWork := (made.follows load k).2.represents.atWork?_eq going here
    exact (held k).2 later node.fresh atWork

end Document

namespace Composer
variable {o : Options} {c bare : Composer} {d alone : Document} {src : Path} {source : String}

theorem new_withLayout (made : Composer.new o = .ok c) (layout : DefaultLayout) :
    Composer.new (o.withLayout layout) = .ok ⟨o.withLayout layout, c.scanner⟩ := by
  unfold Composer.new at made ⊢
  unfold Options.withLayout
  dsimp only
  split at made
  next => exact congrArg Except.ok (congrArg (Composer.mk _) (congrArg Composer.scanner (Except.ok.inj made)))
  next => cases made

/-- Without a default layout the document has the same page, and is put together in the same way but for the layout.
-/
theorem document_withLayout_none (made : Composer.new o = .ok c) (opened : c.document src source = .ok d)
    (made' : Composer.new (o.withLayout .none) = .ok bare) (opened' : bare.document src source = .ok alone) :
    alone.page = d.page ∧ alone.setting = d.setting.bare := by
  cases Except.ok.inj ((new_withLayout made .none).symm.trans made')
  obtain ⟨rfl, _⟩ := new_eq made
  unfold Composer.document at opened opened'
  split at opened
  · cases opened
  next named =>
    rw [if_neg named] at opened'
    cases opened
    cases opened'
    exact ⟨rfl, rfl⟩

/-- How the default layout changes the run of a page that neither skips nor has a layout directive of its own, where
both runs end. The chain of layouts may be of any length, as a layout may ask for a further one. -/
theorem wrapping_of_defaultLayout {load : Loader} {target : Path} {e r : Run} {n m : Nat}
    (made : Composer.new o = .ok c) (opened : c.document src source = .ok d)
    (made' : Composer.new (o.withLayout .none) = .ok bare) (opened' : bare.document src source = .ok alone)
    (kept : c.scanner.skips source = false) (plain : c.scanner.layout? source = none)
    (chosen : d.setting.defaultLayout = some target) (ran : d.run? load m = some r)
    (ran' : alone.run? load n = some e) : d.Wrapping load target e r := by
  obtain ⟨page, setting⟩ := document_withLayout_none made opened made' opened'
  have scanner := (setting_of_document opened).1
  have text : d.page.source = source := (congrArg Node.source (document_eq opened).1 :)
  have there := c.made opened
  have ended := there.run?_iff.mp ran
  have kept : d.setting.scanner.skips d.page.source = false := by rw [scanner, text, kept]
  have plain : d.setting.scanner.layout? d.page.source = none := by rw [scanner, text, plain]
  have requested : d.setting.requestedLayout d.page = some (target, none) := by
    rw [Setting.requestedLayout_default there.role plain, chosen, Option.map_some]
  -- On its own the page is scanned at once.
  obtain ⟨body, expanded, rfl⟩ : ∃ body, d.setting.expand load n [] .nothing d.page 0 = some body ∧
      e = body ++ ⟨[.finish], []⟩ := by
    have ended' := (bare.made opened').run?_iff.mp ran'
    rw [page, setting] at ended'
    have unasked : d.setting.bare.requestedLayout d.page = none :=
      Setting.requestedLayout_default there.role plain
    have scanned : (Control.outer [] d.page).step d.setting.bare load = _ := Control.step_outer_bare kept unasked
    obtain ⟨body, expanded, whole⟩ := Control.exists_expand_of_step scanned ended'
    rw [Setting.expand_bare] at expanded
    exact ⟨body, expanded, whole⟩
  -- After a layout that is reported, so it is too.
  have reported {piece : Run} (stepped : (Control.outer [] d.page).step d.setting load =
      (piece, .scanning ⟨[], .nothing, d.page, 0⟩ [])) : r = piece ++ (body ++ ⟨[.finish], []⟩) := by
    obtain ⟨body', expanded', whole⟩ := Control.exists_expand_of_step stepped ended
    rwa [Setting.expand_unique expanded expanded']
  refine ⟨fun same => ?circle, fun other message loaded => ?unreadable, fun other text loaded => ?wrapped⟩
  case circle => exact reported (Control.step_outer_circle kept requested (by simpa using same))
  case unreadable =>
    exact reported (Control.step_outer_unreadable kept requested (by simpa using other) loaded)
  case wrapped =>
    have straight : [d.page].any (·.src == target) = false := by simpa using other
    obtain ⟨nodes, layers⟩ := Control.exists_layers (congrArg Prod.snd ended)
    obtain ⟨layouts, rfl, roles⟩ := layers.layered.exists_layouts
    have wrapped : layouts ≠ [] := by
      rintro rfl
      exact layers.outermost _ (.wrap .page kept requested straight loaded)
    have last := layers.layered.exists_innermost requested loaded rfl wrapped
    refine ⟨layouts, layers, last, fun reach => ?_, fun blocked => there.withheld layers roles blocked ran⟩
    obtain ⟨k, before, body', after, m', hit, others, reached, slot, expanded', whole, quiet, quiet'⟩ :=
      Control.exists_run_placed layers reach last roles ended
    obtain ⟨slotted, output⟩ := there.slottedAt reached slot
    cases Setting.expand_unique expanded expanded'
    exact ⟨k, body, after, rfl, by rw [output, whole], slotted, by rw [output]; exact quiet, quiet'⟩

/-- A root directory and a layout around every page. -/
def framed : Options := ⟨⟨"/site"⟩, .default, [], .path ⟨"frame.html"⟩⟩

theorem new_framed (layout : DefaultLayout) : Composer.new (framed.withLayout layout) =
    .ok ⟨framed.withLayout layout, .default, [], by decide, by decide⟩ := by
  have keys : scanKeys .default [] = [] := by decide +kernel
  simp only [Composer.new, Scanner.new, framed, Options.withLayout, OrderedMap.keys, List.map_nil, keys]
  rfl

theorem wrapping_of_defaultLayout_framed :
    ∃ c bare d alone, Composer.new framed = .ok c ∧ c.document ⟨"a.html"⟩ "text" = .ok d ∧
      Composer.new (framed.withLayout .none) = .ok bare ∧ bare.document ⟨"a.html"⟩ "text" = .ok alone ∧
      d.Wrapping (fun _ => .ok "[<!-- slot -->]") ⟨"/site/frame.html"⟩ ⟨[.data "text" .root, .finish], []⟩
        ⟨[.data "[" .layout, .data "text" .root, .data "]" .layout, .finish], [⟨"/site/frame.html"⟩]⟩ := by
  have opened (layout : DefaultLayout) : document
      ⟨framed.withLayout layout, .default, [], by decide, by decide⟩ ⟨"a.html"⟩ "text" = .ok _ := if_neg (by decide)
  refine ⟨_, _, _, _, new_framed framed.layout, opened _, new_framed .none, opened _, ?_⟩
  exact wrapping_of_defaultLayout (n := 9) (m := 9) (new_framed framed.layout) (opened _) (new_framed .none)
    (opened _) (by decide +kernel) (by decide +kernel) (by decide +kernel) (by decide +kernel) (by decide +kernel)

end Composer

end Templating
