import Templating.Composer
import Templating.Proofs.Control.Expansion
import Templating.Proofs.Control.Lockstep

namespace Templating

/-- What holds of the documents that composers make. -/
structure Document.Made (d : Document) : Prop where
  layouts : d.setting.Canonical
  src : d.page.src.normalize = d.page.src
  fresh : d.page = .new d.page.src d.page.root d.page.source .root

/-- A default layout is sought at a path in canonical form, whether it is given as a path or by a rule. -/
theorem DefaultLayout.normalize_resolve {layout : DefaultLayout} {src root target : Path}
    (resolved : layout.resolve src root = some target) : target.normalize = target := by
  obtain ⟨chosen, _, rfl⟩ := Option.map_eq_some_iff.mp resolved
  exact Path.normalize_normalize _

/-- The page of a document is new, at the path that is resolved from the root directory, and its default layout is
chosen for that path. -/
theorem Composer.document_eq {c : Composer} {src : Path} {source : String} {d : Document}
    (made : c.document src source = .ok d) :
    d.page = .new (c.resolve src) c.options.root source .root ∧
      d.setting.defaultLayout = c.options.layout.resolve d.page.src d.page.root := by
  unfold Composer.document at made
  split at made
  · cases made
  · cases made
    exact ⟨rfl, rfl⟩

/-- The documents that composers make are well-made. Nothing is assumed of the options or the texts. -/
theorem Composer.made {c : Composer} {src : Path} {source : String} {d : Document}
    (made : c.document src source = .ok d) : d.Made := by
  obtain ⟨page, layout⟩ := c.document_eq made
  refine ⟨fun target chosen => ?_, ?_, ?_⟩
  · rw [layout] at chosen
    exact DefaultLayout.normalize_resolve chosen
  · rw [page]
    exact Path.normalize_normalize _
  · rw [page]
    rfl

namespace Document
variable {d : Document} {load : Loader}

theorem Made.role (made : d.Made) : d.page.role = .root := (congrArg Node.role made.fresh :)

theorem Made.linked_start (made : d.Made) : Linked (State.start d.page).nodes := by
  have sound : d.page.Sound := by
    rw [made.fresh]
    exact .page d.page.source made.src
  rw [made.fresh] at sound ⊢
  exact .single sound rfl rfl rfl

/-- At the beginning the page is the outermost text so far, and nothing waits for it. -/
theorem Made.represents_start (made : d.Made) : Represents (.start d.page) (.outer [] d.page) := by
  have here : (State.start d.page).nodes[(State.start d.page).current]? = some d.page := rfl
  have parent : d.page.parent = none := (congrArg Node.parent made.fresh :)
  have slot : d.page.slot = none := (congrArg Node.slot made.fresh :)
  have layout : d.page.layout = none := (congrArg Node.layout made.fresh :)
  have pending : d.page.phase = .pending := (congrArg Node.phase made.fresh :)
  have role := made.role
  have fills : Fills (State.start d.page).nodes d.page.slot (.ofList []) := by
    rw [slot]
    exact .waiting .stop
  have represents := Represents.outer rfl pending (by rw [role]; decide)
    ⟨here, parent ▸ .stop, fills, .outermost here layout parent⟩
  rwa [Node.fresh, role, ← made.fresh] at represents

/-- At every moment the nodes are linked in order and stand for the stack, and the output is the same. By induction on
the moments, with any loader. -/
theorem Made.follows (made : d.Made) (load : Loader) (n : Nat) :
    Linked (d.setting.after load n (.start d.page)).nodes ∧
      Matches .empty (d.setting.after load n (.start d.page))
        ((Control.outer [] d.page).run d.setting load n) := by
  induction n with
  | zero => exact ⟨made.linked_start, made.represents_start, rfl⟩
  | succ n ih =>
    obtain ⟨linked, represents, output⟩ := ih
    rw [Setting.after_succ, Control.run_succ_last]
    have step := represents.matches_next linked d.setting load
    refine ⟨represents.linked_next linked made.layouts load, step.represents, ?_⟩
    rw [step.output, output, Run.append_assoc]

theorem run?_eq_some_iff {n : Nat} {r : Run} :
    d.run? load n = some r ↔
      (d.setting.after load n (.start d.page)).ended = true ∧
        (d.setting.after load n (.start d.page)).output = r := by
  unfold run?
  dsimp only
  split
  next ended => exact ⟨fun found => ⟨ended, Option.some.inj found⟩, fun found => congrArg some found.2⟩
  next going => exact ⟨nofun, fun found => absurd found.1 going⟩

theorem Made.run?_iff (made : d.Made) {n : Nat} {r : Run} :
    d.run? load n = some r ↔ (Control.outer [] d.page).run d.setting load n = (r, .done) := by
  obtain ⟨_, represents, output⟩ := made.follows load n
  rw [run?_eq_some_iff, represents.ended_iff, output, Run.empty_append, Prod.ext_iff]
  exact and_comm

end Document

/-- A composer with nothing but a root directory. -/
def Composer.plain : Composer := ⟨.new ⟨"site"⟩, ⟨.default, ["filename"], by decide, by decide⟩⟩

/-- The run of a document ends with some events and some targets asked for exactly if putting it
together directly gives them. -/
theorem Composer.run?_iff_expand? {c : Composer} {src : Path} {source : String} {d : Document}
    (made : c.document src source = .ok d) (load : Loader) (r : Run) :
    (∃ n, d.run? load n = some r) ↔ ∃ n, d.expand? load n = some r := by
  have made := c.made made
  constructor
  · rintro ⟨n, ran⟩
    exact ⟨n, Document.expand?_of_run (made.run?_iff.mp ran)⟩
  · rintro ⟨n, expanded⟩
    obtain ⟨m, ran⟩ := Document.run_of_expand? expanded
    exact ⟨m, made.run?_iff.mpr ran⟩

theorem Composer.expand?_plain :
    ∃ d, plain.document ⟨"page.html"⟩ "a <!-- include(part.html) -->" = .ok d ∧
      d.run? (fun _ => .ok "part") 9 =
        some ⟨[.data "a " .root, .data "part" .included, .finish], [⟨"site/part.html"⟩]⟩ ∧
      ∃ n, d.expand? (fun _ => .ok "part") n =
        some ⟨[.data "a " .root, .data "part" .included, .finish], [⟨"site/part.html"⟩]⟩ := by
  have made : plain.document ⟨"page.html"⟩ "a <!-- include(part.html) -->" = .ok _ := if_neg (by decide)
  refine ⟨_, made, ?ran, (run?_iff_expand? made _ _).mp ⟨9, ?ran⟩⟩
  decide +kernel

/-- At every moment of the work on a document its nodes are linked. -/
theorem Composer.linked_after {c : Composer} {src : Path} {source : String} {d : Document}
    (made : c.document src source = .ok d) (load : Loader) (n : Nat) :
    Linked (d.setting.after load n (.start d.page)).nodes :=
  ((c.made made).follows load n).1

theorem Composer.linked_plain :
    ∃ d, plain.document ⟨"page.html"⟩ "a <!-- include(part.html) -->" = .ok d ∧
      (d.setting.after (fun _ => .ok "part") 2 (.start d.page)).nodes.size = 2 ∧
      Linked (d.setting.after (fun _ => .ok "part") 2 (.start d.page)).nodes := by
  have made : plain.document ⟨"page.html"⟩ "a <!-- include(part.html) -->" = .ok _ := if_neg (by decide)
  exact ⟨_, made, by decide +kernel, linked_after made _ 2⟩

end Templating
