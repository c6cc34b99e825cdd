import Templating.Proofs.Files.Touches
import Templating.Proofs.Project.Loaded

namespace Templating
open Workspace

namespace World
variable {α β : Type} {here : Location} {dirs : Location → Prop} {files : Location → List UInt8 → Prop} {p : Path}

/-- However an action ends that is run in the directory `here`, it touches nothing but what is allowed. -/
structure Touching (here : Location) (dirs : Location → Prop) (files : Location → List UInt8 → Prop)
    (act : Action α) : Prop where
  ok : ∀ {w a w'}, w.here = here → act.run w = .ok a w' → w'.here = here ∧ w.tree.Touches dirs files w'.tree
  error : ∀ {w e w'}, w.here = here → act.run w = .error e w' → w'.here = here ∧ w.tree.Touches dirs files w'.tree

theorem Keeps.touching {act : Action α} (keeps : Keeps act) : Touching here dirs files act := by
  constructor
  · intro w a w' there ran
    have same := keeps.ok ran
    exact ⟨same.here.trans there, by rw [same.tree]; exact .refl _⟩
  · intro w e w' there ran
    have same := keeps.error ran
    exact ⟨same.here.trans there, by rw [same.tree]; exact .refl _⟩

/-- Two actions one after the other touch no more than what both may touch, also if the second is not reached. -/
theorem Touching.bind {first : Action β} {next : β → Action α} (touching : Touching here dirs files first)
    (later : ∀ b, Touching here dirs files (next b)) : Touching here dirs files (first >>= next) := by
  constructor
  · intro w a w' there ran
    obtain ⟨b, v, ran, rest⟩ := run_bind_ok.mp ran
    obtain ⟨there, before⟩ := touching.ok there ran
    obtain ⟨there, after⟩ := (later b).ok there rest
    exact ⟨there, before.trans after⟩
  · intro w e w' there ran
    rcases run_bind_error.mp ran with ran | ⟨b, v, ran, rest⟩
    · exact touching.error there ran
    · obtain ⟨there, before⟩ := touching.ok there ran
      obtain ⟨there, after⟩ := (later b).error there rest
      exact ⟨there, before.trans after⟩

theorem Touching.orFail {act : Action (Except FileError Unit)} (touching : Touching here dirs files act)
    (failure : FileError → Failure) : Touching here dirs files (act >>= Workspace.orFail failure) :=
  touching.bind fun r => (keeps_orFail failure r).touching

/-- A change of the tree touches what it is known to touch if it is possible, and else nothing. -/
theorem touching_change {f : World → Except FileError FileTree}
    (touches : ∀ {w t}, w.here = here → f w = .ok t → w.tree.Touches dirs files t) :
    Touching here dirs files (change f) := by
  constructor
  · intro w a w' there done
    cases result : f w with
    | ok t =>
      cases (run_change_of_ok result).symm.trans done
      exact ⟨there, touches there result⟩
    | error e =>
      cases (run_change_of_error result).symm.trans done
      exact ⟨there, .refl _⟩
  · intro w e w' there failed
    cases result : f w with
    | ok t => cases (run_change_of_ok result).symm.trans failed
    | error e' => cases (run_change_of_error result).symm.trans failed

theorem touching_writeFile {bytes : List UInt8}
    (allowed : ∀ start, FileTree.route here p = .ok start → files (p.location here) bytes) :
    Touching here dirs files (writeFile p bytes) := by
  refine touching_change fun {w t} there wrote => ?_
  rw [there] at wrote
  obtain ⟨spot, spotted, _⟩ := Except.bind_eq_ok_iff.mp wrote
  obtain ⟨start, routed, _⟩ := Except.bind_eq_ok_iff.mp spotted
  exact .write wrote (allowed start routed)

/-- A file that is copied may come with any bytes, but at no other place than where the path leads. -/
theorem touching_copyFile (source : Path) (allowed : ∀ bytes, files (p.location here) bytes) :
    Touching here dirs files (copyFile source p) := by
  refine touching_change fun {w t} there copied => ?_
  obtain ⟨bytes, _, wrote⟩ := Except.bind_eq_ok_iff.mp copied
  rw [there] at wrote
  exact .write wrote (allowed bytes)

section Directories
variable {paths : Path → Prop} (closed : ∀ {p above}, paths p → p.parent? = some above → paths above)
  (inside : ∀ {p}, paths p → dirs (p.location here))
include closed inside

/-- Directories are made at the path and those above it alone, however far that gets. -/
theorem touching_makeDirectories (allowed : paths p) : Touching here dirs files (makeDirectories p) := by
  have ran (w : World) : (makeDirectories p : Action (Except FileError Unit)).run w =
      .ok (FileTree.makeDirectories w.here (p.text.length + 1) w.tree p).1
        { w with tree := (FileTree.makeDirectories w.here (p.text.length + 1) w.tree p).2 } := rfl
  constructor
  · intro w a w' there done
    cases (ran w).symm.trans done
    subst there
    exact ⟨rfl, .makeDirectories closed inside _ w.tree allowed⟩
  · intro w e w' there failed
    cases (ran w).symm.trans failed

theorem touching_makeParent (allowed : paths p) : Touching here dirs files (makeParent p) := by
  unfold makeParent
  split
  next above parent => exact (touching_makeDirectories closed inside (closed allowed parent)).orFail _
  next => exact (keeps_pure ()).touching

theorem touching_writeOutput {text : String} (allowed : paths p) (file : files (p.location here) (Utf8.encode text)) :
    Touching here dirs files (writeOutput p text) :=
  (touching_makeParent closed inside allowed).bind fun _ => (touching_writeFile fun _ _ => file).orFail _

end Directories

end World

end Templating
