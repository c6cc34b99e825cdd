import Templating.Yaml.Number
import Templating.Yaml.Tree

namespace Templating.Yaml

inductive Value
  | null
  | bool (value : Bool)
  | integer (value : Int)
  | float (value : Binary64)
  | string (text : String)
  | sequence (items : List Value)
  | mapping (entries : List (Value × Value))
  /-- A value with a tag of its own, without the leading `!`. -/
  | tagged (tag : String) (value : Value)

def isNullWord (text : String) : Bool := ["null", "Null", "NULL", "~"].contains text

def boolWord? (text : String) : Option Bool :=
  if ["true", "True", "TRUE"].contains text then some true
  else if ["false", "False", "FALSE"].contains text then some false
  else none

/-- What a plain scalar is, by its text alone. -/
inductive PlainForm
  | null
  | bool (value : Bool)
  /-- An integer, however large. -/
  | integer (value : Int)
  | float (value : Binary64)
  | string

def plainForm (text : String) : PlainForm :=
  let cs := text.toList
  if text = "" ∨ isNullWord text then .null
  else
    match boolWord? text with
    | some b => .bool b
    | none =>
      let float := if isPaddedNumber cs then none else float? cs
      let otherwise := match float with
        | some x => .float x
        | none => .string
      match integer? cs with
      | some n =>
        match integerSize n with
        | .huge => otherwise
        | _ => .integer n
      | none => otherwise

namespace Value

/-- The value of an integer, unless it needs more than 64 bits. -/
def ofInteger? (n : Int) : Option Value :=
  match integerSize n with
  | .small => some (.integer n)
  | _ => none

def ofPlain? (text : String) : Option Value :=
  match plainForm text with
  | .null => some .null
  | .bool b => some (.bool b)
  | .integer n => ofInteger? n
  | .float x => some (.float x)
  | .string => some (.string text)

/-- The value of a scalar. The tags of the core types demand a text of their type. -/
def ofScalar? (tag : Option String) (text : String) (plain : Bool) : Option Value :=
  match tag with
  | none => if plain then ofPlain? text else some (.string text)
  | some "tag:yaml.org,2002:bool" => (boolWord? text).map .bool
  | some "tag:yaml.org,2002:int" =>
    match integer? text.toList with
    | some n => ofInteger? n
    | none => none
  | some "tag:yaml.org,2002:float" => (float? text.toList).map .float
  | some "tag:yaml.org,2002:null" => if isNullWord text then some .null else none
  | some _ => some (.string text)

/-- The tag that makes a value a tagged one: a tag of the document's own, without its mark. -/
def localTag? (tag : Option String) : Option String :=
  match tag.map String.toList with
  | some ['!'] => some "!"
  | some ('!' :: name) => some (String.ofList name)
  | _ => none

mutual

/-- Equality of values, in which mappings are equal whatever the order of their entries is. -/
def same : Value → Value → Bool
  | .null, .null => true
  | .bool a, .bool b => a == b
  | .integer a, .integer b => a == b
  | .float a, .float b => a.same b
  | .string a, .string b => a == b
  | .sequence as, .sequence bs => sameItems as bs
  | .mapping as, .mapping bs => as.length == bs.length && sameEntries as bs
  | .tagged t a, .tagged u b => t == u && same a b
  | _, _ => false

def sameItems : List Value → List Value → Bool
  | [], [] => true
  | a :: as, b :: bs => same a b && sameItems as bs
  | _, _ => false

def sameEntries : List (Value × Value) → List (Value × Value) → Bool
  | [], _ => true
  | (k, v) :: rest, bs => bs.any (fun b => same k b.1 && same v b.2) && sameEntries rest bs

end

end Value

/-- Work that may follow a number of aliases. -/
abbrev Follow := StateT Nat Option

/-- Follows an alias, if the number is not used up. -/
def Follow.count : Follow Unit := do
  match ← get with
  | 0 => failure
  | n + 1 => set n

/-- The node itself, through an alias. -/
def Follow.node : Tree → Follow Tree
  | .shared node => do
    Follow.count
    return node
  | .circular => failure
  | tree => return tree

/-- The value of a scalar node. A tag of the document's own leaves the text to speak for itself. -/
def scalarValue? (tag : Option String) (text : String) (plain : Bool) : Option Value :=
  match Value.localTag? tag with
  | some name => (Value.ofScalar? none text plain).map (.tagged name)
  | none => Value.ofScalar? tag text plain

/-- A value with the tag of its node, if that is one of the document's own. -/
def Value.withTag (tag : Option String) (v : Value) : Value :=
  match localTag? tag with
  | some name => .tagged name v
  | none => v

def hasTwins : List (Value × Value) → Bool
  | [] => false
  | (k, _) :: rest => rest.any (fun e => k.same e.1) || hasTwins rest

/-- The value of a node in which collections lie at most so deep, and mappings have no key twice. -/
def valueOf : (depth : Nat) → Tree → Follow Value
  | 0, tree => do
    match ← Follow.node tree with
    | .scalar tag text plain => liftM (scalarValue? tag text plain)
    | _ => failure
  | depth + 1, tree => do
    match ← Follow.node tree with
    | .scalar tag text plain => liftM (scalarValue? tag text plain)
    | .sequence tag items => return .withTag tag (.sequence (← items.mapM (valueOf depth)))
    | .mapping tag entries =>
      let entries ← entries.mapM fun (k, v) => do return (← valueOf depth k, ← valueOf depth v)
      if hasTwins entries then failure
      return .withTag tag (.mapping entries)
    | _ => failure

end Templating.Yaml
