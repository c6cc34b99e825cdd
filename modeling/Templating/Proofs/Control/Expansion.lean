import Templating.Proofs.Control.Basic

namespace Templating

namespace Control
variable {setting : Setting} {load : Loader} {control next : Control} {frame : Frame}
  {waiting : List Frame} {fuel : Nat} {piece : Run}

/-- A result is what comes out until `waiting` gets control; without a result the steps go on for at
least as long as the fuel. -/
def Agrees (setting : Setting) (load : Loader) (control : Control) (waiting : List Frame) (fuel : Nat) :
    Option Run → Prop
  | some r => ∃ n, control.run setting load n = (r ++ closing waiting, resume waiting)
  | none => (control.run setting load fuel).2 ≠ .done

/-- Where the expansion has no result, less fuel does not give it one; where it has a result, the fuel does not
matter. -/
theorem Agrees.less {less : Nat} {result : Option Run} (agrees : Agrees setting load control waiting fuel result)
    (bound : less ≤ fuel) : Agrees setting load control waiting less result := by
  cases result with
  | some r => exact agrees
  | none =>
    intro ended
    exact agrees (by rw [run_of_done ended bound, ended])

/-- A step before the rest of the work puts its piece before what the expansion makes of the rest. -/
theorem Agrees.step {result : Option Run} (stepping : Stepping setting load control piece next)
    (agrees : Agrees setting load next waiting fuel result) :
    Agrees setting load control waiting (fuel + 1) (result.map (piece ++ ·)) := by
  cases result with
  | none =>
    rw [Option.map_none, Agrees, run_succ, stepping.step_eq]
    exact agrees
  | some r =>
    obtain ⟨n, ran⟩ := agrees
    exact ⟨n + 1, by rw [run_succ, stepping.step_eq, ran, Run.append_assoc]⟩

/-- A text that gives control back, and then the rest of the text that gets it: the two results are joined in this
order, and without either of them there is none. -/
theorem Agrees.before {first second : Option Run}
    (agrees : Agrees setting load control (frame :: waiting) fuel first)
    (rest : Agrees setting load (.scanning frame waiting) waiting fuel second) :
    Agrees setting load control waiting fuel (first.bind fun a => second.map (a ++ ·)) := by
  cases first with
  | none => exact agrees
  | some a =>
    obtain ⟨n, ran⟩ := agrees
    rw [closing, Run.append_empty, resume] at ran
    cases second with
    | none =>
      intro ended
      have late := run_of_done ended (Nat.le_add_left fuel n)
      rw [run_add, ran] at late
      exact rest ((congrArg Prod.snd late).trans ended)
    | some b =>
      obtain ⟨m, ran'⟩ := rest
      exact ⟨n + m, by rw [run_add, ran, ran', Run.append_assoc]⟩

/-- A directive that leaves control where it is, and then the rest of the text. This covers all directives but
inclusions that are read and slots that are filled. -/
theorem Agrees.flat {hit : Hit} {here : Run} {filling : Filling}
    (found : setting.scanner.next? frame.node.source frame.start = some hit)
    (passing : Passing setting load { frame with start := hit.stop } hit waiting here
      (.scanning { frame with filling := filling, start := hit.stop } waiting))
    (rest : Agrees setting load (.scanning { frame with filling := filling, start := hit.stop } waiting)
      waiting fuel (setting.expand load fuel frame.includers filling frame.node hit.stop)) :
    Agrees setting load (.scanning frame waiting) waiting (fuel + 1) (do
      let inner ← some (here, filling)
      let after ← setting.expand load fuel frame.includers inner.2 frame.node hit.stop
      return .text (Text.slice frame.node.source frame.start hit.start) frame.node.role ++ inner.1 ++ after) := by
  have agrees := rest.step (.hit found passing)
  rwa [Option.map_eq_bind] at agrees

/-- A directive that hands control to another text, and then the rest of the text behind the directive, which gets
control back when the other is through. -/
theorem Agrees.nested {hit : Hit} {here : Run} {filling : Filling} {first : Option Run}
    (found : setting.scanner.next? frame.node.source frame.start = some hit)
    (passing : Passing setting load { frame with start := hit.stop } hit waiting here next)
    (inside : Agrees setting load next ({ frame with filling := filling, start := hit.stop } :: waiting)
      fuel first)
    (rest : Agrees setting load (.scanning { frame with filling := filling, start := hit.stop } waiting)
      waiting fuel (setting.expand load fuel frame.includers filling frame.node hit.stop)) :
    Agrees setting load (.scanning frame waiting) waiting (fuel + 1) (do
      let inner ← first.map fun run => (here ++ run, filling)
      let after ← setting.expand load fuel frame.includers inner.2 frame.node hit.stop
      return .text (Text.slice frame.node.source frame.start hit.start) frame.node.role ++ inner.1 ++ after) := by
  have agrees := (inside.before rest).step (.hit found passing)
  cases first with
  | none => exact agrees
  | some a =>
    simp only [Option.map_some, Option.bind_some, Option.bind_eq_bind, Option.pure_def]
    cases after : setting.expand load fuel frame.includers filling frame.node hit.stop with
    | none => simpa only [after, Option.bind_some, Option.map_none, Option.bind_none] using agrees
    | some b => simpa only [after, Option.bind_some, Option.map_some, Run.append_assoc] using agrees

/-- An included text is expanded as it stands if it skips, and from its first character on if it does not. -/
theorem Agrees.entered
    (scanned : Agrees setting load (.scanning frame waiting) waiting fuel
      (setting.expand load fuel frame.includers frame.filling frame.node frame.start)) :
    Agrees setting load (.entered frame waiting) waiting fuel
      (if setting.scanner.skips frame.node.source then some (.text frame.node.source frame.node.role)
      else setting.expand load fuel frame.includers frame.filling frame.node frame.start) := by
  split
  next skips => exact ⟨1, by rw [run_succ, step_entered_skip skips]; simp only [run, Run.append_empty]⟩
  next other =>
    have agrees := (scanned.step (.enteredScan (Bool.eq_false_iff.mpr other))).less (Nat.le_succ fuel)
    simpa only [Run.empty_append, Option.map_id'] using agrees

/-- The expansion of a text is what the steps put out until the text gives control back. By induction on the fuel,
over all frames and all that wait for them. -/
theorem expand_agrees (fuel : Nat) (frame : Frame) (waiting : List Frame) :
    Agrees setting load (.scanning frame waiting) waiting fuel
      (setting.expand load fuel frame.includers frame.filling frame.node frame.start) := by
  -- At a hit the fuel is one less for both the text handed to and the rest of this one.
  induction fuel generalizing frame waiting with
  | zero => exact nofun
  | succ fuel ih =>
    obtain ⟨includers, filling, node, start⟩ := frame
    cases found : setting.scanner.next? node.source start with
    | none =>
      simp only [Setting.expand, found]
      exact ⟨1, by rw [run, step_tail found]; simp only [run, Run.append_empty]⟩
    | some hit =>
      simp only [Setting.expand, found]
      let behind : Frame := ⟨includers, filling, node, hit.stop⟩
      cases directive : hit.directive with
      | data key => exact .flat found (.data directive) (ih behind waiting)
      | layout target => exact .flat found (.decided (.inr ⟨target, directive⟩)) (ih behind waiting)
      | noLayout => exact .flat found (.decided (.inl directive)) (ih behind waiting)
      | slot =>
        cases filling with
        | nothing => exact .flat found (.slotKept directive rfl) (ih behind waiting)
        | placed => exact .flat found (.slotPlaced directive rfl) (ih behind waiting)
        | wrapped inner more =>
          let body : Frame := ⟨[], .ofList more, inner, 0⟩
          let placed : Frame := ⟨includers, .placed, node, hit.stop⟩
          have agrees : Agrees setting load (.scanning ⟨includers, .wrapped inner more, node, start⟩ waiting)
              waiting (fuel + 1) _ :=
            .nested found (.slot directive rfl) (ih body (placed :: waiting)) (ih placed waiting)
          simpa only [Run.empty_append] using agrees
      | inclusion argument =>
        simp only
        split
        next circle => exact .flat found (.spliceCircle directive circle) (ih behind waiting)
        next straight =>
          cases loaded : load (Path.includeTarget argument node.dirname node.root) with
          | error message =>
            exact .flat found (.spliceUnreadable directive straight loaded) (ih behind waiting)
          | ok source =>
            let child : Frame := ⟨node.src :: includers, .nothing,
              .new (node.includeTarget argument) node.root source .included, 0⟩
            exact .nested found (.splice directive straight loaded)
              (.entered (ih child (behind :: waiting))) (ih behind waiting)

/-- Wrapping a page in its layouts and expanding the outermost is what the steps do from the page on; the layouts are
sought first, before anything is scanned. -/
theorem wrap_agrees (fuel : Nat) (inner : List Node) (node : Node) :
    Agrees setting load (.outer inner node) [] fuel (setting.wrap load fuel inner node) := by
  induction fuel generalizing inner node with
  | zero => exact nofun
  | succ fuel ih =>
    rw [Setting.wrap]
    split
    next skips => exact ⟨1, by rw [run_succ, step_outer_skip skips]; simp only [run, Run.append_empty]; rfl⟩
    next other =>
      have kept := Bool.eq_false_iff.mpr other
      have bare : Agrees setting load (.scanning ⟨[], .ofList inner, node, 0⟩ []) [] fuel
          (setting.expand load fuel [] (.ofList inner) node 0) := expand_agrees fuel _ []
      cases requested : setting.requestedLayout node with
      | none => simpa only [Run.empty_append, Option.map_id'] using bare.step (.bare kept requested)
      | some layout =>
        obtain ⟨target, directive⟩ := layout
        dsimp only
        split
        next circle => exact bare.step (.layoutCircle kept requested circle)
        next straight =>
          have straight := Bool.eq_false_iff.mpr straight
          cases loaded : load target with
          | error message => exact bare.step (.layoutUnreadable kept requested straight loaded)
          | ok source =>
            exact (ih (node :: inner) (.new target node.root source .layout)).step
              (.layout kept requested straight loaded)

end Control

/-- If the steps come to the end with some fuel, the direct expansion has the same result with that fuel; the
expansion needs no more than the steps. -/
theorem Document.expand?_of_run {d : Document} {load : Loader} {r : Run} {fuel : Nat}
    (ran : (Control.outer [] d.page).run d.setting load fuel = (r, .done)) : d.expand? load fuel = some r := by
  have agrees : Control.Agrees d.setting load (.outer [] d.page) [] fuel _ := Control.wrap_agrees fuel [] d.page
  unfold Document.expand?
  cases wrapped : d.setting.wrap load fuel [] d.page with
  | none =>
    rw [wrapped] at agrees
    exact absurd (congrArg Prod.snd ran) agrees
  | some a =>
    rw [wrapped] at agrees
    obtain ⟨n, ended⟩ := agrees
    rw [← Control.run_of_done (congrArg Prod.snd ran) (Nat.le_max_left fuel n),
      Control.run_of_done (congrArg Prod.snd ended) (Nat.le_max_right fuel n), ended] at ran
    exact congrArg some (congrArg Prod.fst ran)

/-- What the direct expansion of a document gives is put out by some number of steps, which then have come to the end.
-/
theorem Document.run_of_expand? {d : Document} {load : Loader} {r : Run} {fuel : Nat}
    (expanded : d.expand? load fuel = some r) :
    ∃ n, (Control.outer [] d.page).run d.setting load n = (r, .done) := by
  have agrees : Control.Agrees d.setting load (.outer [] d.page) [] fuel _ := Control.wrap_agrees fuel [] d.page
  obtain ⟨a, wrapped, rfl⟩ := Option.map_eq_some_iff.mp expanded
  rw [wrapped] at agrees
  exact agrees

end Templating
