import Templating.Proofs.Project.Frame
import Templating.Proofs.Project.Outputs

namespace Templating
open Workspace

namespace World
variable {w w' : World} {here : Location} {dirs : Location → Prop} {files : Location → List UInt8 → Prop}

/-- Actions that are taken one after the other touch no more than what all of them may touch. -/
theorem touching_forM {ι : Type} {act : ι → Action Unit} {items : List ι}
    (each : ∀ i ∈ items, Touching here dirs files (act i)) : Touching here dirs files (items.forM act) := by
  induction items with
  | nil => exact (keeps_pure ()).touching
  | cons i items ih =>
    obtain ⟨first, rest⟩ := List.forall_mem_cons.mp each
    exact first.bind fun _ => ih rest

/-- Writes a text to a path, or fails. -/
def writeText (file : Path × String) : Action Unit :=
  writeFile file.1 (Utf8.encode file.2) >>= orFail (.cannotWrite file.1)

theorem touching_writeText {file : Path × String}
    (allowed : ∀ start, FileTree.route here file.1 = .ok start → files (file.1.location here) (Utf8.encode file.2)) :
    Touching here dirs files (writeText file) :=
  (touching_writeFile allowed).orFail _

theorem entry?_of_forM_writeText {items : List (Path × String)} (apart : (items.map (·.1.location w.here)).Nodup)
    (ran : (items.forM writeText).run w = .ok () w') :
    ∀ file ∈ items, w'.tree.entry? (file.1.location w.here) = some (.file (Utf8.encode file.2)) := by
  induction items generalizing w with
  | nil => exact fun file member => absurd member List.not_mem_nil
  | cons file items ih =>
    obtain ⟨other, apart⟩ := List.nodup_cons.mp apart
    have both : (writeText file >>= fun _ => items.forM writeText).run w = .ok () w' := ran
    obtain ⟨_, v, wrote, rest⟩ := run_bind_ok.mp both
    obtain ⟨there, written⟩ : v.here = w.here ∧
        v.tree.entry? (file.1.location w.here) = some (.file (Utf8.encode file.2)) := by
      obtain ⟨t, put, rfl⟩ := run_change_ok.mp wrote
      obtain ⟨inner, _, rfl⟩ := FileTree.write_ok put
      exact ⟨rfl, (FileTree.entry?_put inner _ _).trans (if_pos rfl)⟩
    rw [← there] at apart other written ⊢
    -- The files behind the first are at other places, so that the first stays as it is written.
    have later : Touching v.here (fun _ => False) (fun l _ => l ∈ items.map (·.1.location v.here))
        (items.forM writeText) :=
      touching_forM fun file member => touching_writeText fun _ _ => List.mem_map_of_mem member
    refine List.forall_mem_cons.mpr ⟨?_, ih apart rest⟩
    rcases (later.ok rfl rest).2 (file.1.location v.here) with same | ⟨never, _⟩ | ⟨_, member, _⟩
    · exact same.trans written
    · exact never.elim
    · exact absurd member other

end World

namespace Starter
variable {here : Location} {dir : Path}

theorem location_files (here : Location) (dir : Path) :
    (files dir).map (·.1.location here) =
      [[configName], ["src", "layout.html"], ["src", "index.html"]].map (dir.location here ++ ·) := by
  have joined (base : Path) (name : String) (relative : (⟨name⟩ : Path).isRooted = false)
      (single : (⟨name⟩ : Path).components = [.name name]) :
      (base.join ⟨name⟩).location here = base.location here ++ [name] := by
    rw [Path.location_join relative, Path.location, single]
    rfl
  simp only [files, List.map_cons, List.map_nil]
  rw [joined dir configName (by decide) (by decide +kernel), joined _ "layout.html" (by decide) (by decide +kernel),
    joined _ "index.html" (by decide) (by decide +kernel), joined dir "src" (by decide) (by decide +kernel),
    List.append_assoc, List.append_assoc]
  rfl

/-- The three files lie at three places, from whatever directory and whatever the working directory is. -/
theorem nodup_location_files (here : Location) (dir : Path) : ((files dir).map (·.1.location here)).Nodup := by
  rw [location_files]
  exact List.Nodup.map (List.append_right_injective _) (by decide)

/-- What is done once there is no configuration in the way. -/
def populate (dir : Path) : World.Action Unit := do
  makeDirectories (dir.join ⟨"src"⟩) >>= orFail .noSourceDirectory
  (files dir).forM World.writeText
  print (summary dir)

variable {w w' : World}

/-- A new project is made unless a configuration is found where its own is to go. Nothing else is looked for. -/
theorem run_make (w : World) (dir : Path) :
    (make dir : World.Action Unit).run w =
      if w.tree.present w.here (dir.join ⟨configName⟩) then .error (.configExists (dir.join ⟨configName⟩)) w
      else (populate dir).run w := by
  unfold make
  rw [EStateM.run_bind, World.run_present]
  dsimp only
  split <;> rfl

theorem touching_populate {places : Location → List UInt8 → Prop}
    (allowed : ∀ file ∈ files dir, ∀ start, FileTree.route here file.1 = .ok start →
      places (file.1.location here) (Utf8.encode file.2)) :
    World.Touching here (fun _ => True) places (populate dir) := by
  have directories : World.Touching here (fun _ => True) places (makeDirectories (dir.join ⟨"src"⟩)) :=
    World.touching_makeDirectories (fun (_ : True) _ => trivial) (fun _ => trivial) trivial
  have told : World.Keeps (print (summary dir) : World.Action Unit) :=
    World.keeps_of_run fun w => ⟨(), _, rfl, rfl, rfl⟩
  refine (directories.orFail _).bind fun _ => World.Touching.bind ?_ fun _ => told.touching
  exact World.touching_forM fun file member => World.touching_writeText (allowed file member)

/-- What making a new project does, whether it succeeds or fails. -/
structure Effect (w : World) (dir : Path) (result : Except Failure Unit) (w' : World) : Prop where
  /-- Where there is a configuration, nothing is done. -/
  refused : w.tree.present w.here (dir.join ⟨configName⟩) = true →
    result = .error (.configExists (dir.join ⟨configName⟩)) ∧ w'.tree = w.tree
  /-- Directories may be new, and the files of the project may be there; all else is as before. -/
  touched : w.tree.Touches (fun _ => True)
    (fun l bytes => ∃ file ∈ files dir, file.1.location w.here = l ∧ Utf8.encode file.2 = bytes) w'.tree
  /-- If none of the files was there, all that was there still is. -/
  kept : (∀ file ∈ files dir, w.tree.entry? (file.1.location w.here) = none) →
    ∀ l e, w.tree.entry? l = some e → w'.tree.entry? l = some e
  /-- A configuration in a directory that can be found is never written over. -/
  config : w.tree.isDirectory w.here dir = true → ∀ e, w.tree.entry? (dir.location w.here ++ [configName]) = some e →
    w'.tree.entry? (dir.location w.here ++ [configName]) = some e
  /-- After success the files that were missing are there. -/
  made : result = .ok () → ∀ file ∈ files dir, w.tree.entry? (file.1.location w.here) = none →
    w'.tree.entry? (file.1.location w.here) = some (.file (Utf8.encode file.2))

theorem location_config (here : Location) (dir : Path) :
    (dir.join ⟨configName⟩).location here = dir.location here ++ [configName] :=
  (List.cons.inj (location_files here dir)).1

theorem effect_refused (w : World) (dir : Path) :
    Effect w dir (.error (.configExists (dir.join ⟨configName⟩))) w where
  refused _ := ⟨rfl, rfl⟩
  touched := .refl w.tree
  kept _ _ _ there := there
  config _ _ there := there
  made := nofun

/-- After success the three files hold what they are to hold: none of them is written over by another one. -/
theorem made_of_populate (ran : (populate dir).run w = .ok () w') :
    ∀ file ∈ files dir, w'.tree.entry? (file.1.location w.here) = some (.file (Utf8.encode file.2)) := by
  obtain ⟨_, v, prepared, rest⟩ := World.run_bind_ok.mp ran
  obtain ⟨_, u, wrote, told⟩ := World.run_bind_ok.mp rest
  have same : w'.tree = u.tree := by
    cases told
    rfl
  have directories : World.Touching w.here (fun _ => True) (fun _ _ => False)
      (makeDirectories (dir.join ⟨"src"⟩) >>= orFail .noSourceDirectory) :=
    (World.touching_makeDirectories (fun (_ : True) _ => trivial) (fun _ => trivial) trivial).orFail _
  obtain ⟨there, _⟩ := directories.ok rfl prepared
  rw [same, ← there]
  exact World.entry?_of_forM_writeText (nodup_location_files v.here dir) wrote

theorem effect_populate {result : Except Failure Unit}
    (missing : w.tree.present w.here (dir.join ⟨configName⟩) = false)
    (touches : ∀ {places : Location → List UInt8 → Prop},
      (∀ file ∈ files dir, ∀ start, FileTree.route w.here file.1 = .ok start →
        places (file.1.location w.here) (Utf8.encode file.2)) → w.tree.Touches (fun _ => True) places w'.tree)
    (made : result = .ok () → (populate dir).run w = .ok () w') : Effect w dir result w' := by
  have touched : w.tree.Touches (fun _ => True)
      (fun l bytes => ∃ file ∈ files dir, file.1.location w.here = l ∧ Utf8.encode file.2 = bytes) w'.tree :=
    touches fun file member _ _ => ⟨file, member, rfl, rfl⟩
  refine ⟨fun present => ?_, touched, fun free l e there => ?_, fun directory e there => ?_,
    fun succeeded file member _ => made_of_populate (made succeeded) file member⟩
  · rw [missing] at present
    cases present
  · rcases touched l with same | ⟨_, none, _⟩ | ⟨_, ⟨file, member, rfl, _⟩, _⟩
    · rw [same, there]
    · cases there.symm.trans none
    · cases there.symm.trans (free file member)
  · -- As it was not found, the system does not take its path at all, so that nothing is written there.
    have away : w.tree.Touches (fun _ => True) (fun l _ => l ≠ dir.location w.here ++ [configName]) w'.tree := by
      refine touches fun file member start routed same => ?_
      rw [← location_config] at same
      have first : (dir.join ⟨configName⟩, config) ∈ files dir := List.mem_cons_self
      cases List.inj_on_of_nodup_map (nodup_location_files w.here dir) member first same
      rw [FileTree.present_join directory (by decide) (by decide) routed there] at missing
      cases missing
    rcases away (dir.location w.here ++ [configName]) with same | ⟨_, none, _⟩ | ⟨_, other, _⟩
    · rw [same, there]
    · cases there.symm.trans none
    · exact absurd rfl other

end Starter

namespace World

/-- A new project never takes the place of anything but its own files, whether making it succeeds or fails, and in any
tree. Nothing is taken back if a file cannot be written, and a page or a layout that was there is written over. -/
theorem start_effect (w : World) (dir : Path) :
    Starter.Effect w dir (w.run (.start dir)).1 (w.run (.start dir)).2 := by
  have ran : (Command.run (.start dir) : Action Unit).run w = _ := Starter.run_make w dir
  cases present : w.tree.present w.here (dir.join ⟨Starter.configName⟩) with
  | true =>
    rw [present, if_pos rfl] at ran
    rw [World.run, ran]
    exact Starter.effect_refused w dir
  | false =>
    rw [present, if_neg Bool.false_ne_true] at ran
    rw [World.run, ran]
    cases ended : (Starter.populate dir).run w with
    | ok _ w' =>
      exact Starter.effect_populate present (fun allowed => ((Starter.touching_populate allowed).ok rfl ended).2)
        fun _ => ended
    | error e w' =>
      exact Starter.effect_populate present (fun allowed => ((Starter.touching_populate allowed).error rfl ended).2)
        nofun

/-- A directory in which a layout, or a page, of another project is in the way. -/
def heldSite (name : String) (held : Entry) : World where
  tree := (FileTree.empty.put ["src"] .directory).put ["src", name] held
  here := []
  printed := ""
  printedErrors := ""
  logged := []

/-- A directory in place of the layout makes it fail when the configuration has been written already, and a page
that was there is lost. -/
theorem start_destroys :
    ((heldSite "layout.html" .directory).run (.start ⟨"."⟩)).1.isOk = false ∧
      (heldSite "layout.html" .directory).tree.entry? ["weft.yaml"] = none ∧
        ((heldSite "layout.html" .directory).run (.start ⟨"."⟩)).2.tree.entry? ["weft.yaml"] =
          some (.file (Utf8.encode Starter.config)) ∧
    ((heldSite "index.html" (.file [])).run (.start ⟨"."⟩)).1.isOk = true ∧
      (heldSite "index.html" (.file [])).tree.entry? ["src", "index.html"] = some (.file []) ∧
        ((heldSite "index.html" (.file [])).run (.start ⟨"."⟩)).2.tree.entry? ["src", "index.html"] =
          some (.file (Utf8.encode Starter.page)) := by
  decide +kernel

end World

end Templating
