import Templating.Yaml.Token

namespace Templating.Yaml

/-- The tree of a YAML document. An alias holds the node that it stands for, unless it stands inside that node. -/
inductive Tree
  | scalar (tag : Option String) (text : String) (plain : Bool)
  | sequence (tag : Option String) (items : List Tree)
  | mapping (tag : Option String) (entries : List (Tree × Tree))
  /-- An alias of a node. -/
  | shared (node : Tree)
  /-- An alias of a node around it. -/
  | circular

/-- A document: its tree, unless the text holds none, and the number of starts, ends, scalars and
aliases in it. -/
structure Parsed where
  root : Option Tree
  events : Nat

/-- An anchor, with its node once that is complete. -/
structure Anchor where
  name : String
  id : Nat
  node : Option Tree

structure Parsing where
  tokens : List Token
  /-- What the handles of tags stand for, the nearest first. -/
  handles : List (String × String)
  /-- The anchors met, the last first. -/
  anchors : List Anchor
  nextId : Nat
  events : Nat

abbrev Parse := StateT Parsing Option

namespace Parse

def peek : Parse Token := do return (← get).tokens.headD .streamEnd

def skip : Parse Unit := modify fun s => { s with tokens := s.tokens.tail }

def count (n : Nat) : Parse Unit := modify fun s => { s with events := s.events + n }

def absent (tag : Option String) : Parse Tree := do
  count 1
  return .scalar tag "" true

def resolveTag (handle suffix : String) : Parse String := do
  if handle = "" then return suffix
  match (← get).handles.lookup handle with
  | some lead => return lead ++ suffix
  | none => failure

def anchorName? : Parse (Option String) := do
  match ← peek with
  | .anchor name => skip; return some name
  | _ => return none

def tagName? : Parse (Option String) := do
  match ← peek with
  | .tag handle suffix => skip; return some (← resolveTag handle suffix)
  | _ => return none

/-- Reads an anchor and a tag, in either order, each at most once. -/
def properties : Parse (Option String × Option String) := do
  match ← anchorName? with
  | some name => return (some name, ← tagName?)
  | none =>
    match ← tagName? with
    | some tag => return (← anchorName?, some tag)
    | none => return (none, none)

def openAnchor (name : String) : Parse Nat := do
  let s ← get
  set { s with anchors := ⟨name, s.nextId, none⟩ :: s.anchors, nextId := s.nextId + 1 }
  return s.nextId

def closeAnchor (id : Nat) (node : Tree) : Parse Unit :=
  modify fun s =>
    { s with anchors := s.anchors.map fun a => if a.id = id then { a with node := some node } else a }

/-- The node of an alias; the last anchor of the name counts. -/
def sharedNode (name : String) : Parse Tree := do
  count 1
  match (← get).anchors.find? (·.name == name) with
  | some ⟨_, _, some node⟩ => return .shared node
  | some ⟨_, _, none⟩ => return .circular
  | none => failure

/-- The tag of a scalar: the lone mark `!` is none. -/
def scalarTag (tag : Option String) : Option String := tag.filter (· != "!")

mutual

/-- Reads a node. In the block context it may be a block collection, and at the indentation of a
mapping a sequence may start without a token of its own. -/
def node : (fuel : Nat) → (inBlock indentless : Bool) → Parse Tree
  | 0, _, _ => failure
  | fuel + 1, inBlock, indentless => do
    match ← peek with
    | .reference name => skip; sharedNode name
    | _ =>
      let (anchor, tag) ← properties
      match anchor with
      | none => content fuel inBlock indentless false tag
      | some name =>
        let id ← openAnchor name
        let tree ← content fuel inBlock indentless true tag
        closeAnchor id tree
        return tree

/-- Reads a node behind its anchor and its tag. -/
def content : (fuel : Nat) → (inBlock indentless anchored : Bool) → (tag : Option String) → Parse Tree
  | 0, _, _, _, _ => failure
  | fuel + 1, inBlock, indentless, anchored, tag => do
    match ← peek, inBlock, indentless with
    | .blockEntry, _, true =>
      count 2
      return .sequence tag (← indentlessItems fuel)
    | .scalar text plain, _, _ =>
      skip; count 1
      return .scalar (scalarTag tag) text plain
    | .flowSequenceStart, _, _ =>
      skip; count 2
      return .sequence tag (← flowItems fuel true)
    | .flowMappingStart, _, _ =>
      skip; count 2
      return .mapping tag (← flowEntries fuel true)
    | .blockSequenceStart, true, _ =>
      skip; count 2
      return .sequence tag (← blockItems fuel)
    | .blockMappingStart, true, _ =>
      skip; count 2
      return .mapping tag (← blockEntries fuel)
    | _, _, _ => if anchored || tag.isSome then absent tag else failure

def blockItems : (fuel : Nat) → Parse (List Tree)
  | 0 => failure
  | fuel + 1 => do
    match ← peek with
    | .blockEntry =>
      skip
      let item ← match ← peek with
        | .blockEntry | .blockEnd => absent none
        | _ => node fuel true false
      return item :: (← blockItems fuel)
    | .blockEnd => skip; return []
    | _ => failure

/-- Reads the items of a sequence at the indentation of the mapping around it. -/
def indentlessItems : (fuel : Nat) → Parse (List Tree)
  | 0 => failure
  | fuel + 1 => do
    match ← peek with
    | .blockEntry =>
      skip
      let item ← match ← peek with
        | .blockEntry | .key | .value | .blockEnd => absent none
        | _ => node fuel true false
      return item :: (← indentlessItems fuel)
    | _ => return []

def blockEntries : (fuel : Nat) → Parse (List (Tree × Tree))
  | 0 => failure
  | fuel + 1 => do
    match ← peek with
    | .key =>
      skip
      let key ← blockPart fuel
      let value ← blockValue fuel
      return (key, value) :: (← blockEntries fuel)
    | .blockEnd => skip; return []
    | _ => failure

def blockValue : (fuel : Nat) → Parse Tree
  | 0 => failure
  | fuel + 1 => do
    match ← peek with
    | .value => skip; blockPart fuel
    | _ => absent none

/-- Reads a key or a value of a block mapping behind its token. -/
def blockPart : (fuel : Nat) → Parse Tree
  | 0 => failure
  | fuel + 1 => do
    match ← peek with
    | .key | .value | .blockEnd => absent none
    | _ => node fuel true true

/-- Reads the items of a flow sequence and its end. An item may be a mapping of one entry that is
written without braces. -/
def flowItems : (fuel : Nat) → (first : Bool) → Parse (List Tree)
  | 0, _ => failure
  | fuel + 1, first => do
    match ← peek, first with
    | .flowSequenceEnd, _ => skip; return []
    | .flowEntry, false => skip; flowItem fuel
    | _, true => flowItem fuel
    | _, false => failure

/-- Reads an item of a flow sequence and the items behind it, or the end. -/
def flowItem : (fuel : Nat) → Parse (List Tree)
  | 0 => failure
  | fuel + 1 => do
    match ← peek with
    | .flowSequenceEnd => skip; return []
    | .key =>
      skip; count 2
      let key ← match ← peek with
        | .value | .flowEntry | .flowSequenceEnd => skip; absent none
        | _ => node fuel false false
      let value ← match ← peek with
        | .value =>
          skip
          match ← peek with
          | .flowEntry | .flowSequenceEnd => absent none
          | _ => node fuel false false
        | _ => absent none
      return .mapping none [(key, value)] :: (← flowItems fuel false)
    | _ =>
      let item ← node fuel false false
      return item :: (← flowItems fuel false)

def flowEntries : (fuel : Nat) → (first : Bool) → Parse (List (Tree × Tree))
  | 0, _ => failure
  | fuel + 1, first => do
    match ← peek, first with
    | .flowMappingEnd, _ => skip; return []
    | .flowEntry, false => skip; flowPair fuel
    | _, true => flowPair fuel
    | _, false => failure

/-- Reads an entry of a flow mapping and the entries behind it, or the end. -/
def flowPair : (fuel : Nat) → Parse (List (Tree × Tree))
  | 0 => failure
  | fuel + 1 => do
    match ← peek with
    | .flowMappingEnd => skip; return []
    | .key =>
      skip
      let key ← match ← peek with
        | .value | .flowEntry | .flowMappingEnd => absent none
        | _ => node fuel false false
      let value ← match ← peek with
        | .value =>
          skip
          match ← peek with
          | .flowEntry | .flowMappingEnd => absent none
          | _ => node fuel false false
        | _ => absent none
      return (key, value) :: (← flowEntries fuel false)
    | _ =>
      let key ← node fuel false false
      let value ← absent none
      return (key, value) :: (← flowEntries fuel false)

end

/-- Reads the directives before a document. -/
def directives : (fuel : Nat) → (version : Bool) → (handles : List (String × String)) →
    Parse (List (String × String))
  | 0, _, _ => failure
  | fuel + 1, version, handles => do
    match ← peek with
    | .versionDirective major minor =>
      if version || major != 1 || !(minor == 1 || minor == 2) then failure
      skip; directives fuel true handles
    | .tagDirective handle lead =>
      if handles.any (·.1 == handle) then failure
      skip; directives fuel version (handles ++ [(handle, lead)])
    | _ => return handles

/-- The handles that every document knows. -/
def knownHandles : List (String × String) := [("!", "!"), ("!!", "tag:yaml.org,2002:")]

/-- Reads the end marks of a document and the end of the text. -/
def ending : (fuel : Nat) → Parse Unit
  | 0 => failure
  | fuel + 1 => do
    match ← peek with
    | .documentEnd => skip; ending fuel
    | .streamEnd => return
    | _ => failure

def document (fuel : Nat) : Parse (Option Tree) := do
  match ← peek with
  | .streamEnd => return none
  | .versionDirective .. | .tagDirective .. | .documentStart =>
    let handles ← directives fuel false []
    modify fun s => { s with handles := handles ++ knownHandles }
    match ← peek with
    | .documentStart => skip
    | _ => failure
    let tree ← match ← peek with
      | .versionDirective .. | .tagDirective .. | .documentStart | .documentEnd | .streamEnd => absent none
      | _ => node fuel true false
    ending fuel
    return some tree
  | _ =>
    let tree ← node fuel true false
    ending fuel
    return some tree

end Parse

/-- The document of a text that is well-formed and holds at most one. -/
def parse? (text : String) : Option Parsed :=
  (tokens? text).bind fun tokens =>
    ((Parse.document (3 * tokens.length + 10)).run ⟨tokens, Parse.knownHandles, [], 0, 0⟩).map
      fun (root, s) => ⟨root, s.events⟩

end Templating.Yaml
