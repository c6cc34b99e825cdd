import Templating.Proofs.Document.Registrations
import Templating.Proofs.Project.DefaultLayout
import Templating.Proofs.Text.Lowering

namespace Templating

/-- What a configuration registers, one data value after the other. -/
def Config.registrations (c : Config) : List Registration :=
  c.data.map fun (key, value) => .lowered key (.text value.text)

theorem Config.lowercase_of_registered {c : Config} {entry : String × DataValue}
    (member : entry ∈ Registration.all c.registrations) : Text.lowercase entry.1 = entry.1 := by
  rcases List.mem_append.mp member with first | own
  · exact lowercase_of_builtin (List.mem_map_of_mem first)
  · obtain ⟨registration, there, rfl⟩ := List.mem_map.mp own
    obtain ⟨pair, _, rfl⟩ := List.mem_map.mp there
    exact Text.lowercase_lowercase pair.1

namespace Options
open Text

variable {c : Config} {dir : Path} {key : String} {value : Yaml.Value}

/-- The data values with those of a configuration set, one after the other. -/
def dataWith (data : OrderedMap DataValue) (entries : OrderedMap Yaml.Value) : OrderedMap DataValue :=
  entries.foldl (fun data (key, value) => data.set (lowercase key) (.text value.text)) data

theorem data_ofConfig (c : Config) (dir : Path) : (ofConfig c dir).data = dataWith builtinData c.data := by
  have each (entries : OrderedMap Yaml.Value) (o : Options) :
      (entries.foldl (fun o (key, value) => o.withData key (.text value.text)) o).data =
        dataWith o.data entries := by
    induction entries generalizing o with
    | nil => rfl
    | cons entry entries ih =>
      rw [List.foldl_cons, ih]
      rfl
  rw [ofConfig_eq]
  split <;> exact each c.data _

theorem tags_ofConfig (c : Config) (dir : Path) : (ofConfig c dir).tags = c.tags := by
  rw [ofConfig_eq]
  split <;> exact foldl_withData_fixed Options.tags (fun _ _ _ => rfl) ..

/-- The data values of the options are those that every document has, and then those of the configuration in order,
each set under the lower case of its key. -/
theorem data_ofConfig_registrations (c : Config) (dir : Path) :
    (ofConfig c dir).data = .ofEntries (Registration.all c.registrations) := by
  rw [data_ofConfig, dataWith, Registration.all, OrderedMap.ofEntries, List.foldl_append, Config.registrations,
    List.map_map, List.foldl_map]
  rfl

variable (dir) in
theorem mem_keys_ofConfig (member : key ∈ c.data.keys) : lowercase key ∈ (ofConfig c dir).data.keys := by
  obtain ⟨entry, there, rfl⟩ := List.mem_map.mp member
  rw [data_ofConfig_registrations, OrderedMap.mem_keys_ofEntries]
  exact List.mem_map_of_mem (List.mem_append_right _ (List.mem_map_of_mem (List.mem_map_of_mem there)))

end Options

namespace Composer
open Text

variable {config : Config} {c : Composer} {d : Document} {dir src : Path} {source key : String}
  {value : Yaml.Value}

/-- A document has the value of each key of the configuration that shares its lower case with no other. Keys that
every document has are replaced like any other. -/
theorem value?_ofConfig (made : Composer.new (.ofConfig config dir) = .ok c) (opened : c.document src source = .ok d)
    (registered : (key, value) ∈ config.data)
    (unshared : ∀ entry ∈ config.data, lowercase entry.1 = lowercase key → entry = (key, value)) :
    d.setting.value? key = some value.text := by
  obtain ⟨before, entry, after, split, same, last⟩ :=
    exists_split_last (P := fun entry => lowercase entry.1 = lowercase key) ⟨_, registered, rfl⟩
  obtain rfl := unshared entry (split ▸ List.mem_append_right before List.mem_cons_self) same
  let entryOf (pair : String × Yaml.Value) : String × DataValue := (lowercase pair.1, .text pair.2.text)
  have registrations : Registration.all config.registrations =
      (builtinData ++ before.map entryOf) ++ entryOf (key, value) :: after.map entryOf := by
    have entries : config.registrations.map Registration.entry = config.data.map entryOf := List.map_map
    rw [Registration.all, entries, split, List.map_append, List.map_cons, List.append_assoc]
  refine value?_of_lowered made (Options.data_ofConfig_registrations config dir) opened
    (fun _ => Config.lowercase_of_registered) registrations (lowercase_lowercase key) ?_
  intro other member alike
  obtain ⟨pair, later, rfl⟩ := List.mem_map.mp member
  exact last pair later alike

end Composer

end Templating
