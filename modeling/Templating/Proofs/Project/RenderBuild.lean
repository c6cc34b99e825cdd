import Templating.Proofs.Project.BuildLog
import Templating.Proofs.Project.EventLines

namespace Templating
open Workspace

/-- Whether a build into `out` composes the file that lies at `below` in the base directory. -/
def World.composes (w : World) (p : Project) (c : Composer) (out : Path) (below : Location) : Bool :=
  w.tree.isFile w.here (c.options.root.join (.relative below)) &&
    p.takesPart out (c.options.root.join (.relative below)) && p.config.isWatched (c.options.root.join (.relative below))

/-- The files that a build into `out` composes, in the order of the walk. -/
def World.composedPages (w : World) (p : Project) (c : Composer) (out : Path) : List Location :=
  ((w.visitsAt c.options.root).map Prod.fst).filter (w.composes p c out)

namespace World
variable {w v w' : World} {file input page : Path} {output : Option Path} {events : Bool} {p : Project} {c : Composer}
  {d : Document} {text : String} {errors : List ResolveError} {below : Location}

/-- What rendering a page comes to, wherever its text goes. -/
structure Renders (w v : World) (file input root : Path) (text : String) (errors : List ResolveError) : Prop where
  printed : w.run (.render file input none false) =
    (.ok (), { v with printed := v.printed ++ text, logged := v.logged ++ errors.map (·.logged root) })
  written : ∀ output events u, w.run (.render file input (some output) events) = (.ok (), u) →
    u.tree.entry? (output.location w.here) = some (.file (Utf8.encode text))
  /-- The text is that of the events which are printed line by line. -/
  lines : ∀ output, ∃ lines, (w.run (.render file input output true)).2.printed = v.printed ++ lines ∧
    Event.textOfLines lines = text
  logged : ∀ output events, (w.run (.render file input output events)).2.logged =
    v.logged ++ errors.map (·.logged root)

theorem run_eq (w : World) (command : Command) :
    w.run command = match (command.run : Action Unit).run w with
      | .ok () u => (.ok (), u)
      | .error e u => (.error e, u) := rfl

theorem entry?_of_writeOutput (ran : (writeOutput page text : Action Unit).run w = .ok () w') :
    w'.tree.entry? (page.location w.here) = some (.file (Utf8.encode text)) := by
  obtain ⟨_, v, made, wrote⟩ := run_bind_ok.mp ran
  obtain ⟨t, rfl⟩ := (silent_makeParent page).ok made
  obtain ⟨t', changed, rfl⟩ := run_change_ok.mp wrote
  obtain ⟨inner, _, rfl⟩ := FileTree.write_ok changed
  rw [withTree, FileTree.entry?_put inner]
  exact if_pos rfl

theorem silent_deliver (told : output ≠ none ∨ events = true) (text : String) :
    Silent (Project.deliver output events text) := by
  cases output with
  | some page => exact silent_writeOutput page text
  | none =>
    rw [Project.deliver, if_pos (told.resolve_left (absurd rfl))]
    exact silent_pure ()

/-- A text that is written, or whose events are printed, is delivered without a word. -/
theorem exists_run_render_told (loaded : (Project.load file : Action Project).run w = .ok p v) (new : p.composer = .ok c)
    (opened : c.load v.load (v.whole input) = .ok d) (told : output ≠ none ∨ events = true) :
    ∃ t, (w.run (.render file input output events)).2 =
      (v.told c.options.root events (d.run v.load v.texts).events).withTree t := by
  have silent := silent_deliver told (Rendering.ofEvents (d.run v.load v.texts).events).text
  rw [run_eq, run_render loaded new opened]
  split
  next delivered => exact silent.ok delivered
  next failed => exact silent.error failed

theorem run_render_printed (loaded : (Project.load file : Action Project).run w = .ok p v) (new : p.composer = .ok c)
    (opened : c.load v.load (v.whole input) = .ok d) :
    w.run (.render file input none false) = (.ok (), { v with
      printed := v.printed ++ (Rendering.ofEvents (d.run v.load v.texts).events).text
      logged := v.logged ++ ((d.run v.load v.texts).events.filterMap Event.error?).map (·.logged c.options.root) }) := by
  rw [run_eq, run_render loaded new opened, told_false]
  rfl

/-- A page that is rendered into a file leaves its text there, whatever was in the file. -/
theorem entry?_of_run_render {page : Path} (loaded : (Project.load file : Action Project).run w = .ok p v)
    (new : p.composer = .ok c) (opened : c.load v.load (v.whole input) = .ok d)
    (written : w.run (.render file input (some page) events) = (.ok (), w')) :
    w'.tree.entry? (page.location w.here) =
      some (.file (Utf8.encode (Rendering.ofEvents (d.run v.load v.texts).events).text)) := by
  rw [run_eq, run_render loaded new opened] at written
  split at written
  next delivered =>
    cases written
    have there := entry?_of_writeOutput delivered
    rwa [← ((keeps_load file).ok loaded).here]
  next => cases written

/-- A page whose document comes to an end is rendered to the text and the errors of its run, wherever the text goes.
-/
theorem renders_of_load (loaded : (Project.load file : Action Project).run w = .ok p v) (new : p.composer = .ok c)
    (opened : c.load v.load (v.whole input) = .ok d) (made : d.Made)
    (ran : d.run? v.load (d.moves v.texts) = some (d.run v.load v.texts)) :
    w.Renders v file input c.options.root (Rendering.ofEvents (d.run v.load v.texts).events).text
      (Rendering.ofEvents (d.run v.load v.texts).events).errors := by
  have reported : (Rendering.ofEvents (d.run v.load v.texts).events).errors =
      (d.run v.load v.texts).events.filterMap Event.error? := made.rendered_errors ran
  have whole := Rendering.ofEvents_of_finish_last fun _ _ => made.finish_last ran
  have printed := run_render_printed loaded new opened
  refine ⟨?_, fun _ _ _ => entry?_of_run_render loaded new opened, fun output => ?_, fun output events => ?_⟩
  · rw [printed, reported]
  · have told : output ≠ none ∨ true = true := .inr rfl
    obtain ⟨t, left⟩ := exists_run_render_told loaded new opened told
    refine ⟨Event.lines (d.run v.load v.texts).events, by rw [left]; rfl, ?_⟩
    rw [Event.textOfLines_lines, whole]
    rfl
  · rw [reported]
    by_cases told : output ≠ none ∨ events = true
    · obtain ⟨t, left⟩ := exists_run_render_told loaded new opened told
      rw [left]
      rfl
    · obtain ⟨nowhere, quiet⟩ := not_or.mp told
      rw [not_not.mp nowhere, Bool.eq_false_iff.mpr quiet, printed]

/-- A build that succeeds has built its files, and only the summary is told after that. -/
theorem exists_run_buildAll (loaded : (Project.load file : Action Project).run w = .ok p v)
    (built : w.run (.build file output) = (.ok (), w')) :
    ∃ tally u, (p.buildAll (p.target v.here output) : Action Project.Tally).run v = .ok tally u ∧
      w'.tree = u.tree ∧ w'.logged = u.logged := by
  obtain ⟨summary, ran⟩ := exists_run_build loaded output
  cases ended : (Project.build file output : Action Unit).run w with
  | error e u =>
    have failed : (Command.run (.build file output) : Action Unit).run w = .error e u := ended
    rw [run_eq, failed] at built
    cases built
  | ok _ u =>
    have finished : (Command.run (.build file output) : Action Unit).run w = .ok () u := ended
    rw [run_eq, finished] at built
    cases built
    obtain ⟨tally, u, all, told⟩ := run_bind_ok.mp (ran.symm.trans ended)
    cases told
    exact ⟨tally, u, all, rfl, rfl⟩

/-- A build that succeeds has composed its pages one by one, each in the workspace of its moment, and leaves them
behind. -/
theorem exists_pages_of_build (sound : w.tree.Sound) (loaded : (Project.load file : Action Project).run w = .ok p v)
    (new : p.composer = .ok c) (built : w.run (.build file output) = (.ok (), w')) :
    ∃ (b : Build) (pages : List (Location × World)), b.Sound ∧ b.project = p ∧ b.composer = c ∧ b.start = w ∧
      p.target w.here output = .ofLocation b.out ∧
      pages.map Prod.fst = w.composedPages p c (p.target w.here output) ∧
      w'.logged = v.logged ++ pages.flatMap (fun page => b.told page.1 (page.2.rendering c (b.file page.1))) ∧
      ∀ page ∈ pages, b.Page w' page ∧ b.Processes page.1 := by
  have same := (keeps_load file).ok loaded
  obtain ⟨b, _, inOrder, rfl, rfl, rfl, target⟩ := Build.of_eq sound (loads_of_run_load loaded) new output
  have during : b.During [] v := .start inOrder same
  have meanwhile : b.Meanwhile v := ⟨during.laid.sound, during.here, by rw [same.tree]; exact .refl _⟩
  have listing : b.start.visitsAt b.composer.options.root = b.visits v := by
    rw [Build.visits, same.visitsAt, inOrder.root]
  have picks : ∀ l ∈ (b.visits v).map Prod.fst,
      b.start.composes b.project b.composer (.ofLocation b.out) l = (b.composes l && b.picks l) := by
    intro l member
    obtain ⟨visit, listed, rfl⟩ := List.mem_map.mp member
    obtain ⟨named, inner⟩ := during.named_visits visit listed
    rw [composes, inOrder.root, Path.join_relative inOrder.base named inner, Bool.and_comm]
    rfl
  obtain ⟨tally, u, all, tree, logged⟩ := exists_run_buildAll loaded built
  rw [same.here, target, Build.run_buildAll inOrder new] at all
  obtain ⟨pages, places, told, left⟩ :=
    meanwhile.exists_pages inOrder during.named_visits (nodup_visitsAt during.laid.sound _) all
  refine ⟨b, pages, inOrder, rfl, rfl, rfl, target, ?_, logged.trans told, fun page member => ⟨?_, ?_⟩⟩
  · rw [places, composedPages, listing, target, List.filter_congr picks, ← List.filter_filter, Build.picked]
  · obtain ⟨meanwhile, opened, written⟩ := left page member
    exact ⟨meanwhile, opened, by rw [tree, written]⟩
  · have picked := List.mem_map_of_mem (f := Prod.fst) member
    rw [places, List.mem_filter] at picked
    exact (during.mem_picked_iff inOrder).mp picked.1

/-- A page that a build composes, and that reads nothing from the results, is rendered beforehand to the text that
the build writes. Both tell of the same errors one by one, except that in the build the system may say something
else about a target that lies behind a directory which the build has made above its results. -/
theorem render_agrees_with_build (sound : w.tree.Sound) (loaded : (Project.load file : Action Project).run w = .ok p v)
    (new : p.composer = .ok c) (built : w.run (.build file output) = (.ok (), w'))
    (composed : below ∈ w.composedPages p c (p.target w.here output))
    (named : w.whole input = c.options.root.join (.relative below))
    (apart : ∀ d, c.load w.load (w.whole input) = .ok d →
      ∀ asked ∈ (d.run w.load w.texts).loads, asked.startsWith (p.target w.here output) = false) :
    ∃ (out : Location) (text : String) (errors errors' : List ResolveError) (pages : List (Location × List ResolveError)),
      out.Named ∧ p.target w.here output = .ofLocation out ∧
        w.Renders v file input c.options.root text errors ∧
        w'.tree.entry? (out ++ below) = some (.file (Utf8.encode text)) ∧
        w'.logged = v.logged ++ pages.flatMap (LogEntry.ofPage c.options.root) ∧
        pages.map Prod.fst = w.composedPages p c (p.target w.here output) ∧
        (below, errors') ∈ pages ∧ List.Forall₂ (ResolveError.Reworded w.tree out) errors errors' := by
  obtain ⟨b, pages, inOrder, rfl, rfl, rfl, target, places, told, left⟩ := exists_pages_of_build sound loaded new built
  obtain ⟨page, member, rfl⟩ : ∃ page ∈ pages, page.1 = below := by
    rw [← places] at composed
    exact List.mem_map.mp composed
  obtain ⟨result, processes⟩ := left page member
  have path : b.start.whole input = .ofLocation (b.base ++ page.1) := named.trans (processes.join_relative inOrder)
  rw [path, target] at apart
  obtain ⟨d, opened, made, ran, text, errors⟩ := rendering_of_touches sound result.meanwhile.sound result.meanwhile.here
    result.meanwhile.touches inOrder.isRooted_root (processes.named inOrder) (processes.outside inOrder) inOrder.out
    result.opened apart
  have same := (keeps_load file).ok loaded
  have renders : b.start.Renders v file input b.composer.options.root
      (b.start.rendering b.composer (.ofLocation (b.base ++ page.1))).text
      (b.start.rendering b.composer (.ofLocation (b.base ++ page.1))).errors := by
    rw [rendering_of_load opened, ← same.load, ← same.texts]
    rw [← same.load, ← path] at opened
    rw [← same.load, ← same.texts] at ran
    have seen : v.whole input = b.start.whole input := by rw [whole, same.here, whole]
    rw [← seen] at opened
    exact renders_of_load loaded new opened made ran
  refine ⟨b.out, _, _, _, pages.map fun page => (page.1, (page.2.rendering b.composer (b.file page.1)).errors),
    inOrder.out, target, renders, ?_, ?_, ?_, List.mem_map_of_mem member, errors⟩
  · rw [result.written, Build.file, text]
  · rw [told, List.flatMap_map]
    rfl
  · rw [List.map_map, ← places]
    rfl

/-- A page, and another one that asks for a directory. -/
def nestedSite : World where
  tree := ((FileTree.empty.put ["site"] .directory).put ["site", "q.html"]
    (.file (Utf8.encode "<!-- include(a) -->"))).put ["site", "p.html"] (.file (Utf8.encode "P"))
  here := ["site"]
  printed := ""
  printedErrors := ""
  logged := []

/-- The directory cannot be read, for one of two reasons. -/
def nestedError (e : FileError) : ResolveError :=
  ⟨.unreadable e.message, ⟨"/site/q.html"⟩, ⟨"/site/a"⟩, some "<!-- include(a) -->"⟩

theorem sound_nestedSite : nestedSite.tree.Sound := by
  have site := FileTree.sound_empty.put_below [] "site" .directory rfl (by decide) rfl
  have asking := site.put_below ["site"] "q.html" (.file (Utf8.encode "<!-- include(a) -->")) rfl (by decide) rfl
  exact asking.put_below ["site"] "p.html" _ rfl (by decide) rfl

theorem load_nestedSite : (Project.load ⟨"weft.yaml"⟩ : Action Project).run nestedSite = .ok noteProject nestedSite :=
  load_noteProject rfl rfl (by decide +kernel)

theorem visitsAt_nestedSite : nestedSite.visitsAt ⟨"/site"⟩ = [(["p.html"], none), (["q.html"], none)] := by
  have found : nestedSite.tree.find nestedSite.here ⟨"/site"⟩ = .ok (["site"], .directory) := by decide +kernel
  unfold visitsAt
  rw [found]
  change (nestedSite.tree.entries.filterMap _).mergeSort _ = _
  refine (congrArg (List.mergeSort · _) ?_).trans (List.mergeSort_of_pairwise ?_)
  · decide +kernel
  · decide +kernel

/-- What has been told when an action has ended well. -/
def loggedBy {α : Type} (act : Action α) (w : World) : Option (List LogEntry) :=
  match act.run w with
  | .ok _ u => some u.logged
  | .error _ _ => none

/-- What has been told is known of an action that has ended well, and only of one. -/
theorem exists_of_loggedBy {α : Type} {act : Action α} {logged : List LogEntry} (told : loggedBy act w = some logged) :
    ∃ a u, act.run w = .ok a u ∧ u.logged = logged := by
  unfold loggedBy at told
  split at told
  next a u ran => exact ⟨a, u, ran, Option.some.inj told⟩
  next => cases told

/-- The build makes the directory for its first page, and the second page asks for it. -/
theorem build_nestedSite : ∃ c w', noteProject.composer = .ok c ∧ c.options.root = ⟨"/site"⟩ ∧
    nestedSite.run (.build ⟨"weft.yaml"⟩ (some ⟨"a/b"⟩)) = (.ok (), w') ∧
      w'.logged = [.composing "p.html", .composing "q.html", (nestedError .isDirectory).logged ⟨"/site"⟩] ∧
        ∀ d, c.load nestedSite.load ⟨"/site/q.html"⟩ = .ok d →
          (d.run nestedSite.load nestedSite.texts).loads = [⟨"/site/a"⟩] := by
  have outcome : (noteProject.composer.toOption.bind fun c =>
      (c.load nestedSite.load ⟨"/site/q.html"⟩).toOption.map fun d =>
        (c.options.root, (d.run nestedSite.load nestedSite.texts).loads,
          loggedBy (noteProject.buildFiles c (.ofLocation ["site", "a", "b"]) ([(["p.html"], none), (["q.html"], none)].map .of)
            ⟨0, 0, 0⟩) nestedSite)) =
      some (⟨"/site"⟩, [⟨"/site/a"⟩],
        some [.composing "p.html", .composing "q.html", (nestedError .isDirectory).logged ⟨"/site"⟩]) := by
    decide +kernel
  obtain ⟨c, made, rest⟩ := Option.bind_eq_some_iff.mp outcome
  obtain ⟨d, opened, results⟩ := Option.map_eq_some_iff.mp rest
  rw [Prod.mk.injEq, Prod.mk.injEq] at results
  obtain ⟨root, loads, logged⟩ := results
  obtain ⟨tally, u, ran, told⟩ := exists_of_loggedBy logged
  have new := Except.eq_ok_of_toOption made
  have target : noteProject.target nestedSite.here (some ⟨"a/b"⟩) = .ofLocation ["site", "a", "b"] := by decide +kernel
  obtain ⟨summary, whole⟩ := exists_run_build load_nestedSite (some ⟨"a/b"⟩)
  rw [target, EStateM.run_bind, run_buildAll new, root, visitsAt_nestedSite, ran] at whole
  have ended : (Command.run (.build ⟨"weft.yaml"⟩ (some ⟨"a/b"⟩)) : Action Unit).run nestedSite =
      .ok () { u with printed := u.printed ++ summary tally } := whole
  refine ⟨c, { u with printed := u.printed ++ summary tally }, new, root, by rw [run_eq, ended], told, fun d' opened' => ?_⟩
  cases (Except.eq_ok_of_toOption opened).symm.trans opened'
  exact loads

theorem apart_nestedSite (root : c.options.root = ⟨"/site"⟩)
    (loads : ∀ d, c.load nestedSite.load ⟨"/site/q.html"⟩ = .ok d →
      (d.run nestedSite.load nestedSite.texts).loads = [⟨"/site/a"⟩]) :
    ["q.html"] ∈ nestedSite.composedPages noteProject c (noteProject.target nestedSite.here (some ⟨"a/b"⟩)) ∧
      nestedSite.whole ⟨"q.html"⟩ = c.options.root.join (.relative ["q.html"]) ∧
        ∀ d, c.load nestedSite.load (nestedSite.whole ⟨"q.html"⟩) = .ok d →
          ∀ asked ∈ (d.run nestedSite.load nestedSite.texts).loads,
            asked.startsWith (noteProject.target nestedSite.here (some ⟨"a/b"⟩)) = false := by
  have whole : nestedSite.whole ⟨"q.html"⟩ = ⟨"/site/q.html"⟩ := by decide +kernel
  refine ⟨?_, ?_, fun d opened asked member => ?_⟩
  · have listed : ["q.html"] ∈ (nestedSite.visitsAt c.options.root).map Prod.fst := by
      rw [root, visitsAt_nestedSite]
      decide
    refine List.mem_filter.mpr ⟨listed, ?_⟩
    rw [World.composes, root]
    decide +kernel
  · rw [root]
    decide +kernel
  · rw [whole] at opened
    rw [loads d opened] at member
    rw [List.mem_singleton.mp member]
    decide +kernel

/-- The page is rendered to the text that the build leaves below the new directory. -/
theorem render_agrees_with_build_nestedSite : ∃ w' text errors errors', nestedSite.tree.Sound ∧
    nestedSite.run (.build ⟨"weft.yaml"⟩ (some ⟨"a/b"⟩)) = (.ok (), w') ∧
      nestedSite.Renders nestedSite ⟨"weft.yaml"⟩ ⟨"q.html"⟩ ⟨"/site"⟩ text errors ∧
        w'.tree.entry? ["site", "a", "b", "q.html"] = some (.file (Utf8.encode text)) ∧
          List.Forall₂ (ResolveError.Reworded nestedSite.tree ["site", "a", "b"]) errors errors' := by
  obtain ⟨c, w', new, root, built, _, loads⟩ := build_nestedSite
  obtain ⟨composed, named, apart⟩ := apart_nestedSite root loads
  obtain ⟨out, text, errors, errors', _, namedOut, target, renders, written, _, _, _, reworded⟩ :=
    render_agrees_with_build sound_nestedSite load_nestedSite new built composed named apart
  have place : (noteProject.target nestedSite.here (some ⟨"a/b"⟩)).location [] = ["site", "a", "b"] := by decide +kernel
  rw [target, Path.location_ofLocation namedOut] at place
  subst place
  rw [root] at renders
  exact ⟨w', text, errors, errors', sound_nestedSite, built, renders, written, reworded⟩

/-- What is missing for the page that is rendered is a directory in the build: the page before it has been written
below. -/
theorem build_rewords_nestedSite : ∃ c w', nestedSite.tree.Sound ∧
    (Project.load ⟨"weft.yaml"⟩ : Action Project).run nestedSite = .ok noteProject nestedSite ∧
      noteProject.composer = .ok c ∧ nestedSite.run (.build ⟨"weft.yaml"⟩ (some ⟨"a/b"⟩)) = (.ok (), w') ∧
        (["q.html"] ∈ nestedSite.composedPages noteProject c (noteProject.target nestedSite.here (some ⟨"a/b"⟩)) ∧
          nestedSite.whole ⟨"q.html"⟩ = c.options.root.join (.relative ["q.html"]) ∧
            ∀ d, c.load nestedSite.load (nestedSite.whole ⟨"q.html"⟩) = .ok d →
              ∀ asked ∈ (d.run nestedSite.load nestedSite.texts).loads,
                asked.startsWith (noteProject.target nestedSite.here (some ⟨"a/b"⟩)) = false) ∧
          (nestedSite.run (.render ⟨"weft.yaml"⟩ ⟨"q.html"⟩ none false)).2.logged =
            [(nestedError .notFound).logged ⟨"/site"⟩] ∧
          w'.logged = [.composing "p.html", .composing "q.html", (nestedError .isDirectory).logged ⟨"/site"⟩] ∧
            (nestedError .notFound).logged ⟨"/site"⟩ ≠ (nestedError .isDirectory).logged ⟨"/site"⟩ := by
  obtain ⟨c, w', new, root, built, logged, loads⟩ := build_nestedSite
  have rendered : (nestedSite.run (.render ⟨"weft.yaml"⟩ ⟨"q.html"⟩ none false)).2.logged =
      [(nestedError .notFound).logged ⟨"/site"⟩] := by decide +kernel
  exact ⟨c, w', sound_nestedSite, load_nestedSite, new, built, apart_nestedSite root loads, rendered, logged, by decide +kernel⟩

end World

end Templating
