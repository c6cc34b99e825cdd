import Templating.Config.Basic

namespace Templating.Config
open Yaml

/-- The text of a scalar, whatever it would stand for. -/
def textOf (t : Tree) : Follow String := do
  match ← Follow.node t with
  | .scalar _ text _ => return text
  | _ => failure

/-- The text of a scalar, or nothing for a null. -/
def optionalTextOf (t : Tree) : Follow (Option String) := do
  match ← Follow.node t with
  | .scalar _ text false => return some text
  | .scalar none text true => return if text = "" ∨ isNullWord text then none else some text
  | .scalar (some "tag:yaml.org,2002:null") text true => if isNullWord text then return none else failure
  | .scalar (some _) text true => return some text
  | _ => failure

/-- The entries of a mapping; a value that is not written has none. -/
def entriesOf (t : Tree) : Follow (List (Tree × Tree)) := do
  match ← Follow.node t with
  | .mapping _ entries => return entries
  | .scalar _ "" true => return []
  | _ => failure

/-- The items of a sequence; a value that is not written has none. -/
def itemsOf (t : Tree) : Follow (List Tree) := do
  match ← Follow.node t with
  | .sequence _ items => return items
  | .scalar _ "" true => return []
  | _ => failure

/-- The values of the known fields of a mapping, none of which is there twice. -/
def fieldsOf (known : List String) : List (Tree × Tree) → Follow (List (String × Tree))
  | [] => return []
  | (key, value) :: rest => do
    let key ← textOf key
    let fields ← fieldsOf known rest
    if known.contains key then
      if (fields.lookup key).isSome then failure
      return (key, value) :: fields
    else return fields

/-- A field read, or its default. -/
def fieldOr {α : Type} (fields : List (String × Tree)) (key : String) (otherwise : α)
    (read : Tree → Follow α) : Follow α :=
  match fields.lookup key with
  | some value => read value
  | none => return otherwise

/-- A pair of delimiters: exactly two texts. -/
def delimitersOf (t : Tree) : Follow Delimiters := do
  match ← itemsOf t with
  | [opening, closing] => return ⟨← textOf opening, ← textOf closing⟩
  | _ => failure

def tagsOf (t : Tree) : Follow Tags := do
  let fields ← fieldsOf ["data", "directive"] (← entriesOf t)
  return ⟨← fieldOr fields "data" Tags.default.data delimitersOf,
    ← fieldOr fields "directive" Tags.default.directive delimitersOf⟩

/-- How deep collections may lie in each other. -/
def depthLimit : Nat := 128

/-- The data of a configuration, whose values lie in two collections. -/
def dataOf (t : Tree) : Follow (OrderedMap Value) := do
  (← entriesOf t).foldlM (fun data (key, value) => do
    return OrderedMap.set data (← textOf key) (← valueOf (depthLimit - 2) value)) []

/-- The configuration that a YAML value stands for. Fields that are not known are passed over, and fields that are not
there have their defaults. -/
def configOf (t : Tree) : Follow Config := do
  let fields ← fieldsOf ["base", "layout", "data", "tags", "watch", "output"] (← entriesOf t)
  let base ← fieldOr fields "base" none optionalTextOf
  let layout ← fieldOr fields "layout" none optionalTextOf
  let data ← fieldOr fields "data" [] dataOf
  let tags ← fieldOr fields "tags" Tags.default tagsOf
  let watch ← fieldOr fields "watch" alwaysWatched fun t => do (← itemsOf t).mapM textOf
  let output ← fieldOr fields "output" default.output fun t => Path.mk <$> textOf t
  return ⟨base.map Path.mk, layout, data, tags, watch, output⟩

/-- How often aliases may be followed for each event of a document. -/
def followsPerEvent : Nat := 100

def read? (text : String) : Option Config :=
  (parse? text).bind fun parsed =>
    match parsed.root with
    | none => some default
    | some root => (configOf root).run' (followsPerEvent * parsed.events)

end Templating.Config
