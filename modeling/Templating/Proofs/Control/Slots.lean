import Templating.Proofs.Control.Expansion
import Templating.Proofs.Control.Layers
import Templating.Proofs.Control.Withheld

namespace Templating

namespace Scanner
variable {s : Scanner} {source : String}

/-- The first slot of a text. -/
def firstSlot? (s : Scanner) (source : String) : Option Hit :=
  (s.hits source).find? (·.directive == .slot)

/-- A text is scanned, and the scan meets a slot. -/
def ReachesSlot (s : Scanner) (source : String) : Prop :=
  s.skips source = false ∧ (s.firstSlot? source).isSome = true

/-- A text without a first slot is scanned to its end without meeting any slot. -/
theorem slotless_of_firstSlot? (nowhere : s.firstSlot? source = none) : s.Slotless source 0 := by
  refine ⟨_, s.yields_hits source, fun hit member => ?_⟩
  simpa using List.find?_eq_none.mp nowhere hit member

end Scanner

namespace Control
variable {setting : Setting} {load : Loader} {control next : Control} {frame behind : Frame}
  {waiting : List Frame} {node inner page innermost : Node} {more layouts : List Node} {hit : Hit} {piece : Run}

/-- If the work comes to an end, so it does from any moment of it on, within the same number of steps. -/
theorem ended_later {n m : Nat} (ended : (control.run setting load n).2 = .done)
    (ran : control.run setting load m = (piece, next)) : (next.run setting load n).2 = .done := by
  have whole := run_of_done ended (Nat.le_add_left n m)
  rw [run_add, ran] at whole
  exact (congrArg Prod.snd whole).trans ended

theorem run_trans {n m : Nat} {rest : Run} {last : Control} (ran : control.run setting load n = (piece, next))
    (ran' : next.run setting load m = (rest, last)) : control.run setting load (n + m) = (piece ++ rest, last) := by
  rw [run_add, ran, ran']

/-- Where the work comes to an end, an included text gives control back, and what it puts out holds nothing of the
page. -/
theorem exists_run_entered {n : Nat} (unfilled : frame.Withholds setting)
    (ended : ((entered frame (behind :: waiting)).run setting load n).2 = .done) :
    ∃ m piece, (entered frame (behind :: waiting)).run setting load m = (piece, .scanning behind waiting) ∧
      piece.Foreign := by
  have there : Agrees setting load (.entered frame (behind :: waiting)) (behind :: waiting) n _ :=
    .entered (expand_agrees n frame (behind :: waiting))
  have alone : Agrees setting load (.entered frame []) [] n _ := .entered (expand_agrees n frame [])
  split at there
  next skips =>
    rw [if_pos skips] at alone
    obtain ⟨m, ran⟩ := there
    exact ⟨m, _, ran, (Run.Foreign.text unfilled.foreign _).append (.closing _)⟩
  next kept =>
    rw [if_neg kept] at alone
    cases expanded : setting.expand load n frame.includers frame.filling frame.node frame.start with
    | none =>
      rw [expanded] at there
      exact absurd ended there
    | some r =>
      rw [expanded] at there alone
      obtain ⟨m, ran⟩ := there
      obtain ⟨m', ran'⟩ := alone
      have held : Withholds setting (.entered frame []) := List.forall_mem_singleton.mpr unfilled
      have foreign := (withholds_run load held m').1
      rw [ran'] at foreign
      rw [closing, Run.append_empty] at ran
      exact ⟨m, r, ran, fun text member => foreign text (List.mem_append_left _ member)⟩

/-- What stands between two places of a text comes out, and the text goes on behind a hit that is no slot. If the hit
includes another text, that text is through by then. -/
theorem exists_run_behind {n : Nat} (foreign : frame.node.role ≠ .root)
    (found : setting.scanner.next? frame.node.source frame.start = some hit) (other : hit.directive ≠ .slot)
    (ended : ((scanning frame waiting).run setting load n).2 = .done) :
    ∃ m piece, (scanning frame waiting).run setting load m =
      (piece, .scanning { frame with start := hit.stop } waiting) ∧ piece.Foreign := by
  have kept (text : String) := Run.Foreign.text foreign text
  have gap := kept (Text.slice frame.node.source frame.start hit.start)
  obtain ⟨here, after, passing⟩ := exists_passing setting load { frame with start := hit.stop } hit waiting
  have ran := (run_one _).trans (step_scanning found passing.pass_eq)
  cases passing with
  | slotKept slot | slotPlaced slot | slot slot => exact absurd slot other
  | data => exact ⟨1, _, ran, gap.append (kept _)⟩
  | decided => exact ⟨1, _, ran, gap.append .empty⟩
  | spliceCircle => exact ⟨1, _, ran, gap.append ((Run.Foreign.error _).append (kept _))⟩
  | spliceUnreadable =>
    exact ⟨1, _, ran, gap.append (((Run.Foreign.asked _).append (.error _)).append (kept _))⟩
  | splice =>
    obtain ⟨m, piece, inside, quiet⟩ := exists_run_entered (.included ..) (ended_later ended ran)
    exact ⟨1 + m, _, run_trans ran inside, (gap.append (.asked _)).append quiet⟩

/-- A layout is scanned up to its first slot, which hands control to what it wraps; the layout then waits behind that
slot. By induction on the hits before the slot. -/
theorem exists_run_to_slot {n start : Nat} {includers : List Path} {hits : List Hit}
    (yields : setting.scanner.Yields node.source start hits)
    (first : hits.find? (·.directive == .slot) = some hit) (foreign : node.role ≠ .root)
    (ended : ((scanning ⟨includers, .wrapped inner more, node, start⟩ waiting).run setting load n).2 = .done) :
    ∃ m before, (scanning ⟨includers, .wrapped inner more, node, start⟩ waiting).run setting load m =
      (before, .scanning ⟨[], .ofList more, inner, 0⟩ (⟨includers, .placed, node, hit.stop⟩ :: waiting)) ∧
      before.Foreign := by
  generalize source : node.source = text at yields
  induction yields with
  | none => cases first
  | @some start reached others found _ ih =>
    subst source
    by_cases slot : reached.directive = .slot
    · rw [List.find?_cons_of_pos (by simpa using slot)] at first
      cases first
      exact ⟨1, _, (run_one _).trans (step_scanning found (pass_slot slot)),
        (Run.Foreign.text foreign _).append .empty⟩
    · rw [List.find?_cons_of_neg (by simpa using slot)] at first
      obtain ⟨m, gap, ran, quiet⟩ := exists_run_behind foreign found slot ended
      obtain ⟨m', before, ran', quiet'⟩ := ih first (ended_later ended ran)
      exact ⟨m + m', _, run_trans ran ran', quiet.append quiet'⟩

/-- Where every layout has a slot, control comes to the page at the first slot of the innermost, and no frame that
waits will hand control to the page a second time. -/
theorem exists_run_to_page {n : Nat} (foreign : ∀ l ∈ layouts, l.role = .layout)
    (slots : ∀ l ∈ layouts, (setting.scanner.firstSlot? l.source).isSome = true)
    (last : layouts.getLast? = some innermost) (split : node :: more = layouts ++ [page])
    (ended : ((scanning ⟨[], .ofList more, node, 0⟩ waiting).run setting load n).2 = .done)
    (held : ∀ f ∈ waiting, f.Withholds setting) :
    ∃ m before hit others, (scanning ⟨[], .ofList more, node, 0⟩ waiting).run setting load m =
        (before, .scanning ⟨[], .nothing, page, 0⟩ (⟨[], .placed, innermost, hit.stop⟩ :: others)) ∧
      setting.scanner.firstSlot? innermost.source = some hit ∧ before.Foreign ∧
      ∀ f ∈ others, f.Withholds setting := by
  induction layouts generalizing node more waiting with
  | nil => cases last
  | cons layout rest ih =>
    obtain ⟨rfl, rfl⟩ := List.cons.inj split
    obtain ⟨role, roles⟩ := List.forall_mem_cons.mp foreign
    obtain ⟨slotted, slots⟩ := List.forall_mem_cons.mp slots
    obtain ⟨hit, slot⟩ := Option.isSome_iff_exists.mp slotted
    have other : node.role ≠ .root := by rw [role]; nofun
    cases rest with
    | nil =>
      cases last
      obtain ⟨m, before, ran, quiet⟩ := exists_run_to_slot (setting.scanner.yields_hits _) slot other ended
      exact ⟨m, before, hit, waiting, ran, slot, quiet, held⟩
    | cons second rest =>
      rw [List.getLast?_cons_cons] at last
      obtain ⟨m, before, ran, quiet⟩ := exists_run_to_slot (setting.scanner.yields_hits _) slot other ended
      obtain ⟨m', before', hit', others, ran', slot', quiet', held'⟩ := ih roles slots last rfl
        (ended_later ended ran) (List.forall_mem_cons.mpr ⟨.of_unfilled other nofun, held⟩)
      exact ⟨m + m', before ++ before', hit', others, run_trans ran ran', slot', quiet.append quiet', held'⟩

/-- The whole run of a page whose layouts all have slots: the page comes out in one block in the first slot of the
innermost, expanded as if it stood alone, and nothing of it before or after. -/
theorem exists_run_placed {n : Nat} {whole : Run} (layers : setting.Layers load page (layouts ++ [page]))
    (reach : ∀ l ∈ layouts, setting.scanner.ReachesSlot l.source) (last : layouts.getLast? = some innermost)
    (roles : ∀ l ∈ layouts, l.role = .layout) (ran : (outer [] page).run setting load n = (whole, .done)) :
    ∃ k before body after m hit others,
      (outer [] page).run setting load k =
        (before, .scanning ⟨[], .nothing, page, 0⟩ (⟨[], .placed, innermost, hit.stop⟩ :: others)) ∧
      setting.scanner.firstSlot? innermost.source = some hit ∧
      setting.expand load m [] .nothing page 0 = some body ∧ whole = before ++ body ++ after ∧
      before.Foreign ∧ after.Foreign := by
  have role : innermost.role = .layout := roles innermost (List.mem_of_getLast? last)
  cases layouts with
  | nil => cases last
  | cons outermost rest =>
    obtain ⟨loads, layered⟩ := exists_run_layered layers.layered
    obtain ⟨piece, quiet, stepped⟩ := exists_step_outermost layers (reach outermost List.mem_cons_self).1
    have begun := run_trans layered ((run_one _).trans stepped)
    have ended := congrArg Prod.snd ran
    obtain ⟨m, before, hit, others, reached, slot, foreign, held⟩ := exists_run_to_page roles
      (fun l member => (reach l member).2) last rfl (ended_later ended begun) (fun f member => absurd member List.not_mem_nil)
    have there := run_trans begun reached
    have agrees := @expand_agrees setting load n ⟨[], .nothing, page, 0⟩
      (⟨[], .placed, innermost, hit.stop⟩ :: others)
    cases expanded : setting.expand load n [] .nothing page 0 with
    | none =>
      rw [expanded] at agrees
      exact absurd (ended_later ended there) agrees
    | some body =>
      rw [expanded] at agrees
      obtain ⟨m', back⟩ := agrees
      rw [closing, Run.append_empty] at back
      have returned := run_trans there back
      have placed : Frame.Withholds setting ⟨[], .placed, innermost, hit.stop⟩ := by
        refine .of_unfilled (by rw [role]; decide) fun inner more filled => ?_
        cases filled
      have left : Withholds setting (.scanning ⟨[], .placed, innermost, hit.stop⟩ others) :=
        List.forall_mem_cons.mpr ⟨placed, held⟩
      have quiet' := (withholds_run load left n).1
      have ended' := ended_later ended returned
      rw [resume] at returned ended'
      cases tail : (scanning ⟨[], .placed, innermost, hit.stop⟩ others).run setting load n with
      | mk after final =>
        rw [tail] at quiet' ended'
        cases ended'
        exact ⟨_, _, body, after, n, hit, others, there, slot, expanded,
          run_unique ran (run_trans returned tail),
          (Run.Foreign.append (fun _ => List.not_mem_nil) fun text => quiet text .root).append foreign, quiet'⟩

/-- The work on a page with a layout that skips or has no slot: after the first step the page never has control again,
and nothing of its text comes out, however many steps are taken. -/
theorem run_withheld {layout : Node} (layers : setting.Layers load page (layouts ++ [page]))
    (roles : ∀ l ∈ layouts, l.role = .layout) (member : layout ∈ layouts)
    (blocked : ¬setting.scanner.ReachesSlot layout.source) (k : Nat) :
    ((outer [] page).run setting load k).1.Foreign ∧
      (0 < k → ∀ node ∈ ((outer [] page).run setting load k).2.atWork?, node.role ≠ .root) := by
  rcases Nat.lt_or_ge k (layouts ++ [page]).length with early | late
  · obtain ⟨node, inner, layered, rfl, role⟩ := run_layered_of_lt layers.layered early
    obtain ⟨loads, ran⟩ := exists_run_layered layered
    rw [ran]
    refine ⟨fun _ => List.not_mem_nil, fun later other atWork => ?_⟩
    cases atWork
    rw [role later]
    decide
  · cases layouts with
    | nil => cases member
    | cons outermost rest =>
      obtain ⟨loads, layered⟩ := exists_run_layered layers.layered
      have role := roles outermost List.mem_cons_self
      have foreign : outermost.role ≠ .root := by rw [role]; decide
      obtain ⟨j, rfl⟩ := Nat.exists_eq_add_of_le late
      have begun : ∃ piece next, (outer [] page).run setting load (outermost :: (rest ++ [page])).length =
          (piece, next) ∧ piece.Foreign ∧ next.Withholds setting := by
        cases skips : setting.scanner.skips outermost.source with
        | true =>
          exact ⟨_, _, run_trans layered ((run_one _).trans (step_outer_skip skips)),
            Run.Foreign.append (fun _ => List.not_mem_nil) ((Run.Foreign.text foreign _).append (.closing [])),
            trivial⟩
        | false =>
          obtain ⟨piece, quiet, stepped⟩ := exists_step_outermost layers skips
          refine ⟨_, _, run_trans layered ((run_one _).trans stepped),
            Run.Foreign.append (fun _ => List.not_mem_nil) fun text => quiet text .root,
            List.forall_mem_singleton.mpr (.of_bars (Setting.bars_of_slotless roles member ?_))⟩
          refine Scanner.slotless_of_firstSlot? (Option.not_isSome_iff_eq_none.mp fun slotted => blocked ⟨?_, slotted⟩)
          cases member with
          | head => exact skips
          | tail _ member => exact layers.layered.inner_kept layout (List.mem_append_left _ member)
      obtain ⟨piece, next, ran, quiet, held⟩ := begun
      obtain ⟨quiet', held'⟩ := withholds_run load held j
      rw [List.cons_append, run_trans ran rfl]
      exact ⟨quiet.append quiet', fun _ => held'.not_root⟩

end Control

end Templating
