import Templating.Proofs.Project.BuildReads

namespace Templating
open Workspace

namespace World
variable {α β : Type} {w : World} {p : Path}

/-- However an action ends, it tells nothing. -/
structure Silent (act : Action α) : Prop where
  ok : ∀ {w a w'}, act.run w = .ok a w' → ∃ t, w' = w.withTree t
  error : ∀ {w e w'}, act.run w = .error e w' → ∃ t, w' = w.withTree t

theorem silent_pure (a : α) : Silent (pure a : Action α) := by
  refine ⟨fun {w a w'} ran => ⟨w.tree, ?_⟩, fun ran => (by cases ran)⟩
  cases ran
  rfl

theorem silent_throw (e : Failure) : Silent (throw e : Action α) := by
  refine ⟨fun ran => (by cases ran), fun {w a w'} ran => ⟨w.tree, ?_⟩⟩
  cases ran
  rfl

theorem silent_of_run {act : Action α} (run : ∀ w, ∃ a t, act.run w = .ok a (w.withTree t)) : Silent act := by
  constructor
  · intro w a w' ran
    obtain ⟨_, t, ran'⟩ := run w
    cases ran.symm.trans ran'
    exact ⟨t, rfl⟩
  · intro w e w' ran
    obtain ⟨_, t, ran'⟩ := run w
    cases ran.symm.trans ran'

theorem Silent.bind {first : Action β} {next : β → Action α} (silent : Silent first) (later : ∀ b, Silent (next b)) :
    Silent (first >>= next) := by
  constructor
  · intro w a w' ran
    obtain ⟨b, v, ran, rest⟩ := run_bind_ok.mp ran
    obtain ⟨t, rfl⟩ := silent.ok ran
    obtain ⟨t', rfl⟩ := (later b).ok rest
    exact ⟨t', rfl⟩
  · intro w e w' ran
    rcases run_bind_error.mp ran with ran | ⟨b, v, ran, rest⟩
    · exact silent.error ran
    · obtain ⟨t, rfl⟩ := silent.ok ran
      obtain ⟨t', rfl⟩ := (later b).error rest
      exact ⟨t', rfl⟩

theorem silent_orFail (failure : FileError → Failure) (r : Except FileError α) : Silent (orFail failure r : Action α) := by
  cases r with
  | ok a => exact silent_pure a
  | error e => exact silent_throw (failure e)

theorem silent_change (f : World → Except FileError FileTree) : Silent (change f) := by
  refine silent_of_run fun w => ?_
  cases result : f w with
  | ok t => exact ⟨.ok (), t, run_change_of_ok result⟩
  | error e => exact ⟨.error e, w.tree, run_change_of_error result⟩

theorem silent_makeParent (p : Path) : Silent (makeParent p : Action Unit) := by
  unfold makeParent
  split
  next above _ =>
    have made : Silent (makeDirectories above : Action (Except FileError Unit)) :=
      silent_of_run fun w => ⟨_, _, rfl⟩
    exact made.bind fun r => silent_orFail _ r
  next => exact silent_pure ()

theorem silent_writeOutput (p : Path) (text : String) : Silent (writeOutput p text : Action Unit) :=
  (silent_makeParent p).bind fun _ => (silent_change _).bind fun r => silent_orFail _ r

theorem silent_copyFile (source target : Path) : Silent (copyFile source target : Action (Except FileError Unit)) :=
  silent_change _

theorem run_logs (entry : α → LogEntry) (items : List α) (w : World) :
    (items.forM fun item => log (entry item) : Action Unit).run w =
      .ok () { w with logged := w.logged ++ items.map entry } := by
  induction items generalizing w with
  | nil =>
    rw [List.map_nil, List.append_nil]
    rfl
  | cons item items ih =>
    change ((log (entry item) : Action Unit) >>= fun _ => items.forM fun item => log (entry item)).run w = _
    rw [EStateM.run_bind]
    refine (ih { w with logged := w.logged ++ [entry item] }).trans ?_
    rw [List.append_assoc]
    rfl

end World

theorem FileTree.Placed.kept {t t' : FileTree} {loc l : Location} {bytes bytes' : List UInt8} (placed : t.Placed t' loc bytes)
    (free : t.Receives loc) (other : l ≠ loc) (there : t.entry? l = some (.file bytes')) :
    t'.entry? l = some (.file bytes') := by
  rw [placed.entries, if_neg other]
  split
  next higher => exact absurd there (free.clear l bytes' higher other)
  next => exact there

/-- What a build tells about a page with these errors. -/
def LogEntry.ofPage (root : Path) (page : Location × List ResolveError) : List LogEntry :=
  .composing (Path.relative page.1).toSlash :: page.2.map (·.logged root)

namespace Build
variable {b : Build} {s s' : World} {below l : Location} {walked : List (Location × Option FileError)}
  {tally tally' : Project.Tally} {bytes : List UInt8}

/-- The workspace at some moment of a build. -/
structure Meanwhile (b : Build) (s : World) : Prop where
  sound : s.tree.Sound
  here : s.here = b.start.here
  touches : b.start.tree.Touches (·.InLine b.out) (fun l _ => l.Below b.out) s.tree

def told (b : Build) (below : Location) (rendering : Rendering) : List LogEntry :=
  LogEntry.ofPage b.composer.options.root (below, rendering.errors)

/-- What building one file does. -/
structure Step (b : Build) (below : Location) (s s' : World) : Prop where
  meanwhile : b.Meanwhile s'
  kept : ∀ {l bytes}, l ≠ b.out ++ below → s.tree.entry? l = some (.file bytes) → s'.tree.entry? l = some (.file bytes)
  composed : b.composes below = true → (∃ d, b.composer.load s.load (b.file below) = .ok d) ∧
    s'.tree.entry? (b.out ++ below) = some (.file (Utf8.encode (s.rendering b.composer (b.file below)).text)) ∧
      s'.logged = s.logged ++ b.told below (s.rendering b.composer (b.file below))
  copied : b.composes below = false → s'.logged = s.logged

/-- A page is announced and its errors follow, in the order in which they come up; about a copied file nothing is
told. -/
theorem told_of_buildOne (sound : b.Sound) (processes : b.Processes below)
    (ran : (b.buildOne below tally).run s = .ok tally' s') :
    (b.composes below = true → ∃ d, b.composer.load s.load (b.file below) = .ok d ∧
      s'.logged = s.logged ++ b.told below (s.rendering b.composer (b.file below))) ∧
    (b.composes below = false → s'.logged = s.logged) := by
  have fileAt := processes.join_relative sound
  unfold buildOne Project.buildFile at ran
  rw [fileAt] at ran
  have watched : b.project.config.isWatched (.ofLocation (b.base ++ below)) = b.composes below := rfl
  dsimp only at ran
  rw [watched] at ran
  constructor
  · intro composes
    rw [if_pos composes] at ran
    obtain ⟨_, _, began, ran⟩ := World.run_bind_ok.mp ran
    cases began
    obtain ⟨r, _, composed, ran⟩ := World.run_bind_ok.mp ran
    obtain ⟨d, loaded, rfl, rfl⟩ := World.run_composeFile_ok.mp composed
    obtain ⟨_, _, reported, ran⟩ := World.run_bind_ok.mp ran
    cases (World.run_logs _ _ _).symm.trans reported
    obtain ⟨_, _, written, ran⟩ := World.run_bind_ok.mp ran
    obtain ⟨t, rfl⟩ := (World.silent_writeOutput _ _).ok written
    obtain ⟨_, rfl⟩ := World.run_pure_ok.mp ran
    have loaded' : b.composer.load s.load (b.file below) = .ok d := loaded
    refine ⟨d, loaded', ?_⟩
    rw [World.rendering_of_load loaded', told]
    exact List.append_assoc ..
  · intro copies
    rw [if_neg (Bool.eq_false_iff.mp copies)] at ran
    obtain ⟨_, _, made, ran⟩ := World.run_bind_ok.mp ran
    obtain ⟨t, rfl⟩ := (World.silent_makeParent _).ok made
    obtain ⟨_, _, copied, ran⟩ := World.run_bind_ok.mp ran
    obtain ⟨t', rfl⟩ := ((World.silent_copyFile _ _).bind fun r => World.silent_orFail _ r).ok copied
    obtain ⟨_, rfl⟩ := World.run_pure_ok.mp ran
    rfl

/-- Building one file takes the workspace from one moment of the build to another, and no other file is lost by it. -/
theorem step_of_buildOne (sound : b.Sound) (processes : b.Processes below) (meanwhile : b.Meanwhile s)
    (ran : (b.buildOne below tally).run s = .ok tally' s') : b.Step below s s' := by
  have namedBelow := processes.namedBelow sound
  have named := Location.named_append.mpr ⟨sound.out, namedBelow⟩
  have inner : b.out ++ below ≠ [] := List.append_ne_nil_of_right_ne_nil b.out processes.inner
  have fileAt := processes.join_relative sound
  have targetAt := Path.join_relative sound.out namedBelow processes.inner
  obtain ⟨here, touches⟩ := (World.touching_buildFile sound.out namedBelow processes.inner tally).ok meanwhile.here ran
  obtain ⟨tellsPage, tellsNothing⟩ := told_of_buildOne sound processes ran
  cases composes : b.composes below with
  | true =>
    obtain ⟨d, loaded, logged⟩ := tellsPage composes
    have lays := World.lays_buildFile_composed tally composes meanwhile.sound named inner fileAt targetAt loaded
    obtain ⟨_, free, placed, _⟩ := lays.effect tally' s' ran
    refine ⟨⟨placed.sound, here, meanwhile.touches.trans touches⟩, placed.kept free, fun _ => ⟨⟨d, loaded⟩, ?_, logged⟩, ?_⟩
    · rw [placed.entries, if_pos rfl]
      rfl
    · exact fun copies => absurd (composes.symm.trans copies) Bool.true_eq_false.mp
  | false =>
    obtain ⟨bytes, there⟩ := processes.there
    have outside := processes.outside sound
    have lays := World.lays_buildFile_copied tally composes meanwhile.sound (processes.named sound) processes.fits named
      inner fileAt targetAt ((meanwhile.touches.file_iff outside).mpr there)
    obtain ⟨_, free, placed, _⟩ := lays.effect tally' s' ran
    exact ⟨⟨placed.sound, here, meanwhile.touches.trans touches⟩, placed.kept free,
      fun composed => absurd (composes.symm.trans composed) Bool.false_eq_true.mp, tellsNothing⟩

/-- What one visit comes to when a build succeeds: the file is built, or nothing is done. -/
theorem Meanwhile.visit (sound : b.Sound) (named : below.Named) (inner : below ≠ []) (meanwhile : b.Meanwhile s)
    {fault? : Option FileError} (ran : (b.buildEach ((below, fault?) :: walked) tally).run s = .ok tally' s') :
    (b.picks below = false ∧ (b.buildEach walked tally).run s = .ok tally' s') ∨
      (b.picks below = true ∧ ∃ counted v, b.Step below s v ∧ (b.buildEach walked counted).run v = .ok tally' s') := by
  cases fault? with
  | some e =>
    rw [run_buildEach_fault] at ran
    cases ran
  | none =>
    have same := picks_eq sound meanwhile.sound (fun _ _ outside => meanwhile.touches.file_iff outside) named
    rw [run_buildEach_file sound named inner tally same] at ran
    cases picks : b.picks below with
    | false =>
      rw [picks, if_neg Bool.false_ne_true] at ran
      exact .inl ⟨rfl, ran⟩
    | true =>
      rw [picks, if_pos rfl] at ran
      obtain ⟨counted, v, built, ran⟩ := World.run_bind_ok.mp ran
      exact .inr ⟨rfl, counted, v, step_of_buildOne sound ((processes_iff sound named inner).mpr picks) meanwhile built, ran⟩

theorem Meanwhile.kept (sound : b.Sound) (named : ∀ visit ∈ walked, visit.1.Named ∧ visit.1 ≠ []) (meanwhile : b.Meanwhile s)
    (ran : (b.buildEach walked tally).run s = .ok tally' s') (apart : ∀ visit ∈ walked, l ≠ b.out ++ visit.1)
    (there : s.tree.entry? l = some (.file bytes)) : s'.tree.entry? l = some (.file bytes) := by
  induction walked generalizing s tally with
  | nil =>
    cases ran
    exact there
  | cons visit walked ih =>
    obtain ⟨⟨isNamed, inner⟩, named⟩ := List.forall_mem_cons.mp named
    obtain ⟨first, others⟩ := List.forall_mem_cons.mp apart
    rcases meanwhile.visit sound isNamed inner ran with ⟨_, ran⟩ | ⟨_, counted, v, step, ran⟩
    · exact ih named meanwhile ran others there
    · exact ih named step.meanwhile ran others (step.kept first there)

/-- A page with the workspace that it was composed in, and what has come of it at the end. -/
structure Page (b : Build) (s' : World) (page : Location × World) : Prop where
  meanwhile : b.Meanwhile page.2
  opened : ∃ d, b.composer.load page.2.load (b.file page.1) = .ok d
  written : s'.tree.entry? (b.out ++ page.1) =
    some (.file (Utf8.encode (page.2.rendering b.composer (b.file page.1)).text))

/-- The pages are composed one by one, each in the workspace of its moment, and nothing but these is told. The
induction is on the walk; a result once written is not touched by the files behind it, since none of them has the same
target. -/
theorem Meanwhile.exists_pages (sound : b.Sound) (named : ∀ visit ∈ walked, visit.1.Named ∧ visit.1 ≠ [])
    (once : (walked.map Prod.fst).Nodup) (meanwhile : b.Meanwhile s) (ran : (b.buildEach walked tally).run s = .ok tally' s') :
    ∃ pages : List (Location × World),
      pages.map Prod.fst = (b.picked walked).filter b.composes ∧
        s'.logged = s.logged ++
          pages.flatMap (fun page => b.told page.1 (page.2.rendering b.composer (b.file page.1))) ∧
        ∀ page ∈ pages, b.Page s' page := by
  induction walked generalizing s tally with
  | nil =>
    cases ran
    exact ⟨[], rfl, (List.append_nil _).symm, fun _ member => absurd member List.not_mem_nil⟩
  | cons visit walked ih =>
    obtain ⟨below, fault?⟩ := visit
    obtain ⟨⟨isNamed, inner⟩, others⟩ := List.forall_mem_cons.mp named
    obtain ⟨new, once⟩ := List.nodup_cons.mp once
    rw [picked_cons]
    rcases meanwhile.visit sound isNamed inner ran with ⟨passed, ran⟩ | ⟨picks, counted, v, step, ran⟩
    · rw [passed, if_neg Bool.false_ne_true]
      exact ih others once meanwhile ran
    · obtain ⟨pages, places, logged, left⟩ := ih others once step.meanwhile ran
      rw [picks, if_pos rfl]
      cases composes : b.composes below with
      | false =>
        rw [List.filter_cons_of_neg (by rw [composes]; exact Bool.false_ne_true), ← step.copied composes]
        exact ⟨pages, places, logged, left⟩
      | true =>
        obtain ⟨opened, written, told⟩ := step.composed composes
        have apart : ∀ later ∈ walked, b.out ++ below ≠ b.out ++ later.1 := by
          intro later member same
          have listed : later.1 ∈ walked.map Prod.fst := List.mem_map_of_mem member
          exact new (List.append_cancel_left same ▸ listed)
        have stays := step.meanwhile.kept sound others ran apart written
        refine ⟨(below, s) :: pages, ?_, ?_, List.forall_mem_cons.mpr ⟨⟨meanwhile, opened, stays⟩, left⟩⟩
        · rw [List.filter_cons_of_pos composes, List.map_cons, places]
        · rw [logged, told, List.flatMap_cons, List.append_assoc]

end Build

end Templating
