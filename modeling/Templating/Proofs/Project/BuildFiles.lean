import Templating.Proofs.Files.Walk
import Templating.Proofs.Project.BuildFile

namespace Templating
open Workspace

/-- What a walk comes to, with the path as seen from its top. -/
def Visit.of (visit : Location × Option FileError) : Visit := ⟨.relative visit.1, visit.2⟩

namespace World
variable {w : World} {base below : Location} {fault? : Option FileError}

/-- What a walk from a path comes to; where there is no directory, that is nothing. -/
def visitsAt (w : World) (top : Path) : List (Location × Option FileError) :=
  match w.tree.find w.here top with
  | .ok (loc, .directory) => w.tree.visits loc
  | _ => []

theorem run_walk (w : World) (top : Path) : (walk top : Action (List Visit)).run w = .ok ((w.visitsAt top).map .of) w := by
  unfold walk instWorkspaceAction visitsAt
  dsimp only
  rw [EStateM.run_bind]
  dsimp only [EStateM.run_get]
  cases w.tree.find w.here top with
  | error e => rfl
  | ok found =>
    obtain ⟨loc, e⟩ := found
    cases e <;> rfl

theorem named_of_mem_visitsAt (sound : w.tree.Sound) (top : Path) :
    ∀ visit ∈ w.visitsAt top, visit.1.Named ∧ visit.1 ≠ [] := by
  intro visit listed
  unfold visitsAt at listed
  split at listed
  next => exact FileTree.named_of_mem_visits sound listed
  next => cases listed

/-- A walk from a base directory comes to what lies below it, provided the system takes the path of the base
directory. -/
theorem mem_visitsAt (sound : w.tree.Sound) (named : base.Named) :
    (below, fault?) ∈ w.visitsAt (.ofLocation base) ↔ base.Fits ∧ (below, fault?) ∈ w.tree.visits base := by
  unfold visitsAt
  constructor
  · intro listed
    split at listed
    next found =>
      obtain ⟨rfl, fits, _⟩ := (sound.find_ok_iff named).mp found
      exact ⟨fits, listed⟩
    next => cases listed
  · rintro ⟨fits, listed⟩
    obtain ⟨inner, _, e, there, _⟩ := (FileTree.mem_visits sound).mp listed
    have directory := sound.opens there base (List.prefix_append ..) (by simpa using inner)
    rw [(sound.find_ok_iff named).mpr ⟨rfl, fits, directory⟩]
    exact listed

theorem nodup_visitsAt (sound : w.tree.Sound) (top : Path) : ((w.visitsAt top).map Prod.fst).Nodup := by
  unfold visitsAt
  split
  next => exact FileTree.nodup_visits sound _
  next => exact List.nodup_nil

theorem SameFiles.visitsAt {v : World} (same : SameFiles w v) (top : Path) : v.visitsAt top = w.visitsAt top := by
  rw [World.visitsAt, World.visitsAt, same.tree, same.here]

end World

namespace Build
variable {b : Build} {done : List Location} {walked : List (Location × Option FileError)} {s s' : World}
  {below l : Location}

/-- The tally of some files. -/
def tally (b : Build) (files : List Location) : Project.Tally where
  composed := (files.filter b.composes).length
  copied := (files.filter (!b.composes ·)).length
  errors := ((files.filter b.composes).flatMap fun below => (b.rendering below).errors).length

def plus (first second : Project.Tally) : Project.Tally :=
  ⟨first.composed + second.composed, first.copied + second.copied, first.errors + second.errors⟩

theorem plus_assoc (x y z : Project.Tally) : plus (plus x y) z = plus x (plus y z) := by
  simp only [plus, Nat.add_assoc]

theorem zero_plus (x : Project.Tally) : plus ⟨0, 0, 0⟩ x = x := by
  simp only [plus, Nat.zero_add]

theorem counted_eq (b : Build) (below : Location) (tally : Project.Tally) :
    b.counted below tally = plus tally (b.tally [below]) := by
  unfold counted Build.tally
  cases composes : b.composes below with
  | true => simp [composes, plus]
  | false => simp [composes, plus]

theorem tally_cons (b : Build) (below : Location) (files : List Location) :
    b.tally (below :: files) = plus (b.tally [below]) (b.tally files) := by
  unfold Build.tally
  cases composes : b.composes below with
  | true => simp [composes, plus, Nat.add_comm 1]
  | false => simp [composes, plus, Nat.add_comm 1]

theorem tally_perm {files files' : List Location} (same : files.Perm files') : b.tally files = b.tally files' := by
  have composed := same.filter b.composes
  have copied := same.filter (!b.composes ·)
  rw [Build.tally, Build.tally, composed.length_eq, copied.length_eq, (composed.flatMap_right _).length_eq]

/-- What is built of that which a walk comes to. -/
def picked (b : Build) (walked : List (Location × Option FileError)) : List Location :=
  (walked.map Prod.fst).filter b.picks

theorem picked_cons (b : Build) (below : Location) (fault? : Option FileError) :
    b.picked ((below, fault?) :: walked) = if b.picks below then below :: b.picked walked else b.picked walked :=
  List.filter_cons

def buildEach (b : Build) (walked : List (Location × Option FileError)) (tally : Project.Tally) :
    World.Action Project.Tally :=
  b.project.buildFiles b.composer (.ofLocation b.out) (walked.map .of) tally

/-- A directory that cannot be read ends the build where the walk comes to it. -/
theorem run_buildEach_fault (below : Location) (e : FileError) (tally : Project.Tally) :
    (b.buildEach ((below, some e) :: walked) tally).run s =
      .error (.cannotWalk b.composer.options.root (b.composer.options.root.join (.relative below)) e) s := rfl

theorem run_buildEach_file (sound : b.Sound) (named : below.Named) (inner : below ≠ []) (tally : Project.Tally)
    (same : (s.tree.isFile s.here (b.file below) && b.takes below) = b.picks below) :
    (b.buildEach ((below, none) :: walked) tally).run s =
      if b.picks below then (b.buildOne below tally >>= fun tally => b.buildEach walked tally).run s
      else (b.buildEach walked tally).run s := by
  have fileAt : b.composer.options.root.join (.relative below) = b.file below := by
    rw [sound.root, Path.join_relative sound.base named inner, file]
  rw [buildEach, List.map_cons, Visit.of, Project.buildFiles]
  dsimp only
  rw [fileAt, EStateM.run_bind, World.run_isFile]
  dsimp only
  have taking : b.project.takesPart (.ofLocation b.out) (b.file below) = b.takes below := rfl
  rw [taking, same]
  split <;> rfl

/-- A build goes through exactly if the walk is not stopped and each file that it picks can be built. The induction is
on the walk; what carries it is that nothing written so far is in the way of what comes next. -/
theorem During.buildEach (sound : b.Sound) (apart : b.ReadsApart)
    (named : ∀ visit ∈ walked, visit.1.Named ∧ visit.1 ≠ []) (during : b.During done s) (tally : Project.Tally) :
    (∀ tally' s', (b.buildEach walked tally).run s = .ok tally' s' →
        (∀ visit ∈ walked, visit.2 = none) ∧ tally' = plus tally (b.tally (b.picked walked)) ∧
          b.During ((b.picked walked).reverse ++ done) s') ∧
      ((∀ visit ∈ walked, visit.2 = none) → (∀ below ∈ b.picked walked, b.start.tree.Receives (b.out ++ below)) →
        ∃ tally' s', (b.buildEach walked tally).run s = .ok tally' s') := by
  induction walked generalizing done s tally with
  | nil =>
    refine ⟨fun tally' s' ran => ?_, fun _ _ => ⟨tally, s, rfl⟩⟩
    cases ran
    exact ⟨fun _ member => absurd member List.not_mem_nil, rfl, during⟩
  | cons visit walked ih =>
    obtain ⟨below, fault?⟩ := visit
    obtain ⟨⟨isNamed, inner⟩, others⟩ := List.forall_mem_cons.mp named
    cases fault? with
    | some e =>
      rw [run_buildEach_fault]
      refine ⟨fun _ _ ran => (by cases ran), fun clear _ => ?_⟩
      cases (List.forall_mem_cons.mp clear).1
    | none =>
      have same := picks_eq sound during.laid.sound (fun _ bytes outside => during.file_iff outside bytes) isNamed
      rw [run_buildEach_file sound isNamed inner tally same, picked_cons]
      cases picks : b.picks below with
      | false =>
        rw [if_neg Bool.false_ne_true, if_neg Bool.false_ne_true]
        obtain ⟨effect, possible⟩ := ih others during tally
        refine ⟨fun tally' s' ran => ?_, fun clear => possible (List.forall_mem_cons.mp clear).2⟩
        obtain ⟨clear, rest⟩ := effect tally' s' ran
        exact ⟨List.forall_mem_cons.mpr ⟨rfl, clear⟩, rest⟩
      | true =>
        obtain ⟨effect, possible⟩ :=
          during.buildOne sound apart ((processes_iff sound isNamed inner).mpr picks) tally
        rw [if_pos rfl, if_pos rfl, List.reverse_cons, List.append_assoc, List.singleton_append]
        constructor
        · intro tally' s' ran
          obtain ⟨counted, v, first, ran⟩ := World.run_bind_ok.mp ran
          obtain ⟨rfl, next⟩ := effect counted v first
          obtain ⟨clear, same, last⟩ := (ih others next _).1 tally' s' ran
          rw [same, counted_eq, plus_assoc, ← tally_cons]
          exact ⟨List.forall_mem_cons.mpr ⟨rfl, clear⟩, rfl, last⟩
        · intro clear free
          obtain ⟨first, later⟩ := List.forall_mem_cons.mp free
          obtain ⟨counted, v, first⟩ := possible first
          obtain ⟨_, next⟩ := effect counted v first
          obtain ⟨tally', s', ran⟩ := (ih others next counted).2 (List.forall_mem_cons.mp clear).2 later
          exact ⟨tally', s', World.run_bind_ok.mpr ⟨counted, v, first, ran⟩⟩

theorem During.exists_buildEach (sound : b.Sound) (apart : b.ReadsApart)
    (named : ∀ visit ∈ walked, visit.1.Named ∧ visit.1 ≠ []) (during : b.During done s)
    (clear : ∀ visit ∈ walked, visit.2 = none)
    (free : ∀ below ∈ b.picked walked, b.start.tree.Receives (b.out ++ below)) :
    ∃ s', (b.buildEach walked ⟨0, 0, 0⟩).run s = .ok (b.tally (b.picked walked)) s' ∧
      b.During ((b.picked walked).reverse ++ done) s' := by
  obtain ⟨effect, possible⟩ := during.buildEach sound apart named ⟨0, 0, 0⟩
  obtain ⟨tally, s', ran⟩ := possible clear free
  obtain ⟨_, rfl, last⟩ := effect tally s' ran
  rw [zero_plus] at ran
  exact ⟨s', ran, last⟩

theorem During.entries_congr {done' : List Location} (during : b.During done s) (during' : b.During done' s')
    (same : ∀ below, below ∈ done ↔ below ∈ done') (l : Location) : s.tree.entry? l = s'.tree.entry? l := by
  have targets : ∀ l, l ∈ b.targets done ↔ l ∈ b.targets done' := fun l => by
    simp only [mem_targets, same]
  rw [during.laid.entries, during'.laid.entries, FileTree.laid_congr targets]

/-- Loading a project leaves the files alone, so that the build of its files begins in the tree of the start. -/
theorem During.start (sound : b.Sound) (same : World.SameFiles b.start s) : b.During [] s := by
  refine ⟨fun _ member => absurd member List.not_mem_nil, fun _ member => absurd member List.not_mem_nil, ?_, same.here⟩
  rw [same.tree]
  exact .start sound.tree b.content

theorem During.later (during : b.During done s) (same : World.SameFiles s s') : b.During done s' :=
  ⟨during.processes, during.receives, by rw [same.tree]; exact during.laid, same.here.trans during.here⟩

/-- What a walk through the base directory comes to. -/
def visits (b : Build) (s : World) : List (Location × Option FileError) := s.visitsAt (.ofLocation b.base)

theorem During.named_visits (during : b.During done s) : ∀ visit ∈ b.visits s, visit.1.Named ∧ visit.1 ≠ [] :=
  World.named_of_mem_visitsAt during.laid.sound _

/-- At every moment a walk brings up all that is to be built, and nothing else is picked. -/
theorem During.mem_picked_iff (sound : b.Sound) (during : b.During done s) :
    below ∈ b.picked (b.visits s) ↔ b.Processes below := by
  rw [picked, List.mem_filter, List.mem_map]
  constructor
  · rintro ⟨⟨⟨_, fault?⟩, listed, rfl⟩, picks⟩
    obtain ⟨named, inner⟩ := during.named_visits _ listed
    exact (processes_iff sound named inner).mpr picks
  · intro processes
    obtain ⟨bytes, there⟩ := processes.there
    have fits := processes.fits.of_prefix (processes.named sound) (List.prefix_append ..)
    have still := (during.file_iff (processes.outside sound) bytes).mpr there
    have listed := FileTree.mem_visits_of_fits during.laid.sound processes.inner processes.fits still
    exact ⟨⟨_, (World.mem_visitsAt during.laid.sound sound.base).mpr ⟨fits, listed⟩, rfl⟩,
      (processes_iff sound (processes.namedBelow sound) processes.inner).mp processes⟩

theorem During.clear (sound : b.Sound) (during : b.During done s) (clear : ∀ visit ∈ b.visits b.start, visit.2 = none) :
    ∀ visit ∈ b.visits s, visit.2 = none := by
  rintro ⟨below, fault?⟩ listed
  obtain ⟨fits, listed⟩ := (World.mem_visitsAt during.laid.sound sound.base).mp listed
  cases fault? with
  | none => rfl
  | some e =>
    obtain ⟨inner, above, there, long⟩ := (FileTree.exists_fault_iff during.laid.sound).mp ⟨e, listed⟩
    -- A directory that is new leads to a result, so that the system takes its path.
    have before : b.start.tree.entry? (b.base ++ below) = some .directory := by
      rw [← there, during.laid.entry?_elsewhere]
      intro target member higher
      exact long ((during.receives_targets target member).fits.of_prefix
        (named_of_mem_targets sound during.processes target member) higher)
    obtain ⟨error, stopped⟩ := (FileTree.exists_fault_iff sound.tree).mpr ⟨inner, above, before, long⟩
    cases clear _ ((World.mem_visitsAt sound.tree sound.base).mpr ⟨fits, stopped⟩)

end Build

end Templating
