import Templating.Proofs.Document.Loading
import Templating.Proofs.Project.ConfigData
import Templating.Proofs.Scan.LoneKeys
import Templating.Proofs.Scan.Sequence

namespace Templating
open Text

theorem Document.Made.run?_of_hit {d : Document} {load : Loader} {directive : Directive} {here : Run} (made : d.Made)
    (kept : d.setting.scanner.skips d.page.source = false) (bare : d.setting.requestedLayout d.page = none)
    (found : d.setting.scanner.next? d.page.source 0 = some ⟨0, size d.page.source, directive⟩)
    (passed : Control.pass d.setting load ⟨[], .nothing, d.page, size d.page.source⟩
      ⟨0, size d.page.source, directive⟩ [] = (here, .scanning ⟨[], .nothing, d.page, size d.page.source⟩ [])) :
    d.run? load 3 = some (here ++ ⟨[.finish], []⟩) := by
  have whole : d.page.source.toList = d.page.source.toList ++ ([] ++ []) := by simp
  have nothing : d.setting.scanner.next? d.page.source (size d.page.source) = none := by
    rw [size, Scanner.next?_of_split whole]
    rfl
  let page (start : Nat) : Frame := ⟨[], .nothing, d.page, start⟩
  have first : (Control.outer [] d.page).step d.setting load = (.empty, .scanning (page 0) []) :=
    Control.step_outer_bare kept bare
  have second : (Control.scanning (page 0) []).step d.setting load = _ := Control.step_scanning found passed
  have third : (Control.scanning (page (size d.page.source)) []).step d.setting load = _ :=
    Control.step_tail nothing
  rw [made.run?_iff, Control.run_succ, first, Control.run_succ, second, Control.run_one, third, slice_self,
    slice_self, Run.text_empty]
  simp only [Run.empty_append, Control.closing, Control.resume]

theorem Rendering.ofEvents_text (value : String) (origin : Role) :
    ofEvents (Run.text value origin ++ ⟨[.finish], []⟩).events = ⟨value, []⟩ := by
  rw [Run.events_append, Run.text, Event.ofText?]
  split
  next empty => rw [empty]; rfl
  next => exact congrArg (Rendering.mk · []) (String.append_empty ..)

namespace Config
variable {config : Config} {isFile : Path → Bool} {dir : Path} {key : String}

/-- The delimiters of a configuration without faults are not empty, so that a scanner can be made of them. -/
theorem usable_of_accepted (accepted : config.errors isFile dir = []) :
    config.tags.data.hasEmpty = false ∧ config.tags.directive.hasEmpty = false := by
  rw [errors, List.append_eq_nil_iff, List.append_eq_nil_iff, List.append_eq_nil_iff, tagErrors,
    List.append_eq_nil_iff] at accepted
  obtain ⟨⟨⟨⟨data, directive⟩, _⟩, _⟩, _⟩ := accepted
  constructor
  · by_contra empty
    rw [if_pos (Bool.not_eq_false _ ▸ empty)] at data
    cases data
  · by_contra empty
    rw [if_pos (Bool.not_eq_false _ ▸ empty)] at directive
    cases directive

/-- An accepted key is not empty, holds no white space, and is no word of a directive where those stand
between the same delimiters. -/
theorem key_of_accepted (accepted : config.errors isFile dir = []) (member : key ∈ config.data.keys) :
    key ≠ "" ∧ (∀ c ∈ key.toList, isSpace c = false) ∧
      (config.tags.coincide = true → lowercase key ∉ directiveWords) := by
  rw [errors, List.append_eq_nil_iff, List.append_eq_nil_iff, List.flatMap_eq_nil_iff] at accepted
  have faultless := accepted.1.2 key member
  unfold keyErrors at faultless
  split at faultless
  · cases faultless
  next filled =>
    rw [List.append_eq_nil_iff] at faultless
    obtain ⟨spaced, shadowed⟩ := faultless
    refine ⟨?_, ?_, fun coincide shadow => ?_⟩
    · rintro rfl
      exact filled (by decide)
    · simpa using spaced
    · rw [coincide, Bool.true_and, if_pos (by simpa using shadow)] at shadowed
      cases shadowed

end Config

namespace Composer
variable {o : Options} {c : Composer} {config : Config} {isFile : Path → Bool} {dir : Path} {key : String}

variable (dir) in
theorem mem_keys_of_accepted (accepted : config.errors isFile dir = []) (member : key ∈ config.data.keys) :
    lowercase key ∈ scanKeys config.tags (Options.ofConfig config dir).data.keys := by
  obtain ⟨filled, inked, unshadowed⟩ := Config.key_of_accepted accepted member
  refine mem_scanKeys.mpr ⟨⟨lowercase key, Options.mem_keys_ofConfig dir member, ?_⟩, ?_, unshadowed⟩
  · rw [keyForm, trim_of_unspaced (isSpace_lowercase inked), lowercase_lowercase]
  · exact lowercase_ne_empty inked filled

/-- Without faults there is a composer, and each key that shares its lower case with no other one comes out as its
value where it stands alone between its delimiters, if nothing else is found there. What else could be found there is
something that the checks do not look at. -/
theorem exists_rendered_of_accepted (accepted : config.errors isFile dir = []) :
    ∃ c, Composer.new (.ofConfig config dir) = .ok c ∧ ∀ key value, (key, value) ∈ config.data →
      (∀ entry ∈ config.data, lowercase entry.1 = lowercase key → entry = (key, value)) →
      ∀ src d, c.document src (config.tags.keyText key) = .ok d → d.setting.requestedLayout d.page = none →
        c.scanner.Reaches key → ∀ load, ∃ n r, d.run? load n = some r ∧
          Rendering.ofEvents r.events = ⟨value.text, []⟩ ∧ r.loads = [] := by
  obtain ⟨data, directive⟩ := Config.usable_of_accepted accepted
  rw [← Options.tags_ofConfig config dir] at data directive
  obtain ⟨c, made, tags, keys⟩ := exists_new_of_usable data directive
  rw [Options.tags_ofConfig] at tags keys
  refine ⟨c, made, fun key value registered unshared src d opened bare reaches load => ?_⟩
  have scanner := (setting_of_document opened).1
  have text : d.page.source = config.tags.keyText key := (congrArg Node.source (document_eq opened).1 :)
  have member := mem_keys_of_accepted dir accepted (List.mem_map_of_mem registered)
  have found := reaches.next?_keyText (by rw [keys, tags]) (by rw [keys]; exact member)
  have kept := reaches.kept
  rw [tags, ← text, ← scanner] at found kept
  have known := value?_ofConfig made opened registered unshared
  refine ⟨3, _, (Composer.made opened).run?_of_hit kept bare found (Control.pass_data rfl), ?_, rfl⟩
  rw [known, Option.getD_some]
  exact Rendering.ofEvents_text ..

/-- One data value and nothing else said. -/
def valuedConfig (tags : Tags) (key value : String) : Config :=
  { Config.default with tags := tags, data := [(key, .string value)] }

theorem exists_new_valuedConfig (tags : Tags) (key value : String) (data : tags.data.hasEmpty = false)
    (directive : tags.directive.hasEmpty = false) :
    ∃ c, Composer.new (.ofConfig (valuedConfig tags key value) ⟨"/site"⟩) = .ok c ∧ c.scanner.tags = tags ∧
      c.options.layout = .none := by
  obtain ⟨c, made, same, _⟩ :=
    exists_new_of_usable (o := .ofConfig (valuedConfig tags key value) ⟨"/site"⟩) data directive
  refine ⟨c, made, same, ?_⟩
  rw [(new_eq made).1]
  rfl

theorem requestedLayout_eq_none {src : Path} {source : String} {d : Document} (layout : c.options.layout = .none)
    (opened : c.document src source = .ok d)
    (plain : Scanner.lastHit (Scanner.enclosed? c.scanner.tags.directive Directive.layoutPhrase?) 0 0
      source.toList = none) : d.setting.requestedLayout d.page = none := by
  obtain ⟨page, chosen⟩ := document_eq opened
  have unmarked : d.setting.scanner.layout? d.page.source = none := by
    rw [(setting_of_document opened).1, page]
    exact plain
  rw [Setting.requestedLayout_default (by rw [page]; rfl) unmarked, chosen, layout]
  rfl

theorem exists_rendered_of_accepted_title :
    ∃ c d, Composer.new (.ofConfig (valuedConfig .default "Title" "Home") ⟨"/site"⟩) = .ok c ∧
      c.document ⟨"a.html"⟩ "\x7b\x7bTitle\x7d\x7d" = .ok d ∧
      ∃ n r, d.run? (fun _ => .error "missing") n = some r ∧ Rendering.ofEvents r.events = ⟨"Home", []⟩ ∧
        r.loads = [] := by
  have accepted : (valuedConfig .default "Title" "Home").errors (fun _ => false) ⟨"/site"⟩ = [] := by
    decide +kernel
  obtain ⟨c, made, rendered⟩ := exists_rendered_of_accepted accepted
  obtain ⟨c', made', tags, layout⟩ := exists_new_valuedConfig .default "Title" "Home" (by decide) (by decide)
  cases Except.ok.inj (made.symm.trans made')
  obtain ⟨d, opened, _⟩ := @document_of_named c ⟨"a.html"⟩ (by decide) "\x7b\x7bTitle\x7d\x7d"
  have bare := requestedLayout_eq_none layout opened (by rw [tags]; decide +kernel)
  refine ⟨c, d, made, opened, rendered "Title" (.string "Home") List.mem_cons_self ?unshared ⟨"a.html"⟩ _ opened
    bare ⟨?kept, ?plain, ?spelled, ?longest⟩ _⟩
  case unshared => exact fun entry member _ => List.mem_singleton.mp member
  case kept =>
    rw [Scanner.skips, tags]
    decide +kernel
  case plain =>
    rw [tags]
    exact (Scanner.enclosed?_eq_none_iff Directive.recognises_phrase?).mp (by decide +kernel)
  case spelled => exact fold_eq_fold_iff.mp (by decide +kernel)
  case longest =>
    intro k member _ shorter
    have names : (Options.ofConfig (valuedConfig .default "Title" "Home") ⟨"/site"⟩).data.keys =
        ["dirname", "filename", "extname", "title"] := by
      rw [Options.data_ofConfig]
      decide +kernel
    rw [(new_eq made).2, names] at member
    obtain ⟨⟨name, there, rfl⟩, _⟩ := mem_scanKeys.mp member
    have long : ∀ name ∈ ["dirname", "filename", "extname", "title"], 5 ≤ (keyForm name).length := by
      decide +kernel
    exact absurd shorter (Nat.not_lt.mpr (long name there))

/-- Delimiters for data keys and directives that differ in nothing but case. -/
def alikeTags : Tags := ⟨⟨"[X", "]"⟩, ⟨"[x", "]"⟩⟩

/-- Between delimiters that differ in nothing but case the word of a directive is an accepted key, and
stands for the directive. -/
theorem rendered_of_accepted_slot :
    (valuedConfig alikeTags "slot" "value").errors (fun _ => false) ⟨"/site"⟩ = [] ∧
      ∃ c d r, Composer.new (.ofConfig (valuedConfig alikeTags "slot" "value") ⟨"/site"⟩) = .ok c ∧
        c.document ⟨"p.html"⟩ (alikeTags.keyText "slot") = .ok d ∧ d.setting.requestedLayout d.page = none ∧
        d.run? (fun _ => .error "missing") 3 = some r ∧ Rendering.ofEvents r.events = ⟨"[Xslot]", []⟩ := by
  refine ⟨by decide +kernel, ?_⟩
  obtain ⟨c, made, tags, layout⟩ := exists_new_valuedConfig alikeTags "slot" "value" (by decide) (by decide)
  obtain ⟨d, opened, _⟩ := @document_of_named c ⟨"p.html"⟩ (by decide) (alikeTags.keyText "slot")
  have bare := requestedLayout_eq_none layout opened (by rw [tags]; decide +kernel)
  have kept : c.scanner.skips (alikeTags.keyText "slot") = false := by
    rw [Scanner.skips, tags]
    decide +kernel
  have recognised : c.scanner.match? ("[Xslot]".toList ++ []) = some (.slot, []) := by
    have structural : Scanner.enclosed? alikeTags.directive Directive.phrase? ("[Xslot]".toList ++ []) =
        some (.slot, []) := by decide +kernel
    rw [Scanner.match?, tags, structural, Option.some_or]
  have found : c.scanner.next? (alikeTags.keyText "slot") 0 = some ⟨0, size (alikeTags.keyText "slot"), .slot⟩ :=
    Scanner.firstHit_found (by decide) recognised rfl 0
  have text : d.page.source = alikeTags.keyText "slot" := (congrArg Node.source (document_eq opened).1 :)
  rw [← text, ← (setting_of_document opened).1] at found kept
  refine ⟨c, d, _, made, opened, bare, (Composer.made opened).run?_of_hit kept bare found (Control.pass_slot rfl), ?_⟩
  rw [Hit.text, slice_whole, text]
  exact Rendering.ofEvents_text ..

end Composer

end Templating
