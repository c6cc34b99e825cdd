import Templating.Proofs.Document.Runs
import Templating.Proofs.Path.Join

namespace Templating

namespace Composer
variable {c : Composer} {load : Loader} {src : Path}

/-- Resolving a path twice is the same as resolving it once exactly for paths from the root, and for root directories
that lead to themselves. -/
theorem resolve_resolve_iff :
    c.resolve (c.resolve src) = c.resolve src ↔
      src.isRooted = true ∨ (c.options.root.join c.options.root).normalize = c.options.root.normalize := by
  constructor
  · intro again
    by_cases rooted : src.isRooted = true
    · exact .inl rooted
    by_cases above : c.options.root.isRooted = true
    · exact .inr (by rw [Path.join_of_isRooted above])
    · rw [Bool.not_eq_true] at rooted above
      exact .inr (Path.normalize_join_self_of_again above rooted again)
  · rintro (rooted | stands)
    · have same : c.resolve src = src.normalize := by rw [resolve, Path.join_of_isRooted rooted]
      rw [same, resolve, Path.join_of_isRooted (by rwa [Path.isRooted_normalize]), Path.normalize_normalize]
    · exact Path.normalize_join_join stands src

theorem isRooted_resolve (rooted : src.isRooted = true ∨ c.options.root.isRooted = true) :
    (c.resolve src).isRooted = true := by
  rw [resolve, Path.isRooted_normalize, Path.isRooted_join, Bool.or_eq_true]
  exact rooted

/-- A path that is not empty names a document of any text, with the path as it is resolved from the root directory. -/
theorem document_of_named (named : src.text ≠ "") (text : String) :
    ∃ d, c.document src text = .ok d ∧ d.page.src = c.resolve src := by
  rw [document, if_neg named]
  exact ⟨_, rfl, rfl⟩

/-- A document that is loaded is made for the path that is resolved already, and so resolves it once more. -/
theorem load_of_loaded (named : src.text ≠ "") {text : String} (loaded : load (c.resolve src) = .ok text) :
    c.load load src = c.document (c.resolve src) text := by
  rw [Composer.load, if_neg named, loaded]

theorem document_congr {src' : Path} {text : String} (named : src.text ≠ "") (named' : src'.text ≠ "")
    (same : c.resolve src = c.resolve src') : c.document src text = c.document src' text := by
  rw [document, document, if_neg named, if_neg named', same]

/-- What is loaded is the document of the loaded text exactly if its path is not empty once it is resolved, and is
rooted or seen from a root directory that leads from where it leads to the same place; what cannot be loaded is no
document. A root directory given from the root is of that kind. -/
theorem load_eq_document_iff (c : Composer) (load : Loader) {src : Path} (named : src.text ≠ "") :
    (∀ text, load (c.resolve src) = .ok text →
      (∃ d, c.document src text = .ok d ∧ d.page.src = c.resolve src) ∧
      (c.load load src = c.document src text ↔
        (c.resolve src).text ≠ "" ∧ (src.isRooted = true ∨
          (c.options.root.join c.options.root).normalize = c.options.root.normalize))) ∧
      ∀ message, load (c.resolve src) = .error message →
        c.load load src = .error (.unreadable (c.resolve src) message) := by
  refine ⟨fun text loaded => ⟨document_of_named named text, ?_⟩, fun message failed => ?_⟩
  · rw [load_of_loaded named loaded, ← resolve_resolve_iff]
    obtain ⟨d, made, page⟩ := c.document_of_named named text
    constructor
    · intro same
      have there : (c.resolve src).text ≠ "" := by
        intro empty
        rw [document, if_pos empty, made] at same
        cases same
      obtain ⟨d', made', page'⟩ := c.document_of_named there text
      rw [made, made'] at same
      cases same
      exact ⟨there, page'.symm.trans page⟩
    · rintro ⟨there, again⟩
      exact document_congr there named again
  · rw [Composer.load, if_neg named, failed]

theorem load_eq_document_rooted :
    ∃ c : Composer, c.options = .new ⟨"/site"⟩ ∧
      c.load (fun _ => .ok "text") ⟨"blog/../a.html"⟩ = c.document ⟨"blog/../a.html"⟩ "text" := by
  refine ⟨⟨.new ⟨"/site"⟩, plain.scanner⟩, rfl, ?_⟩
  exact ((load_eq_document_iff _ _ (by decide)).1 "text" rfl).2.mpr (by decide +kernel)

/-- Below a relative root directory the path of what is loaded is resolved twice. -/
theorem load_ne_document_relative :
    ∃ load : Loader, load (plain.resolve ⟨"a.html"⟩) = .ok "text" ∧
      (∃ d, plain.document ⟨"a.html"⟩ "text" = .ok d ∧ d.page.src = ⟨"site/a.html"⟩) ∧
      ∃ d, plain.load load ⟨"a.html"⟩ = .ok d ∧ d.page.src = ⟨"site/site/a.html"⟩ := by
  refine ⟨fun _ => .ok "text", rfl, ⟨_, if_neg (by decide), by decide +kernel⟩, ?_⟩
  rw [load_of_loaded (by decide) rfl]
  exact ⟨_, if_neg (by decide +kernel), by decide +kernel⟩

end Composer

end Templating
