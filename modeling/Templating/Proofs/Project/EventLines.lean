import Templating.Proofs.Document.Delivery
import Templating.Proofs.Project.RenderRun

namespace Templating

namespace Text
variable {c : Char}

/-- The value of a hexadecimal digit. -/
def digitValue (c : Char) : Nat :=
  if c.isDigit then c.toNat - '0'.toNat else c.toLower.toNat - 'a'.toNat + 10

/-- What a character stands for behind a backslash. -/
def escapedChar (c : Char) : Char :=
  if c = 'b' then '\x08' else if c = 'f' then '\x0c' else if c = 'n' then '\n' else if c = 'r' then '\r'
  else if c = 't' then '\t' else c

/-- Reads the inside of a JSON string up to the quote that closes it. -/
def readQuoted? : List Char → Option (List Char)
  | [] => none
  | '"' :: _ => some []
  | '\\' :: 'u' :: a :: b :: c :: d :: rest =>
    let code := ((digitValue a * 16 + digitValue b) * 16 + digitValue c) * 16 + digitValue d
    (readQuoted? rest).map (Char.ofNat code :: ·)
  | '\\' :: c :: rest => (readQuoted? rest).map (escapedChar c :: ·)
  | c :: rest => (readQuoted? rest).map (c :: ·)

theorem digitValue_digitChar : ∀ n < 0x20,
    digitValue (Nat.digitChar (n / 16)) * 16 + digitValue (Nat.digitChar (n % 16)) = n := by decide

theorem readQuoted?_plain (notQuote : c ≠ '"') (notEscape : c ≠ '\\') (rest : List Char) :
    readQuoted? (c :: rest) = (readQuoted? rest).map (c :: ·) := by
  rw [readQuoted?]
  · exact notQuote
  · exact fun _ _ _ _ _ same => absurd same notEscape
  · exact fun _ _ same => absurd same notEscape

/-- A character is written as a letter behind a backslash, as a number, or as it is. -/
theorem quotedChar_cases (c : Char) :
    (∃ letter, letter ≠ 'u' ∧ letter ≠ '\n' ∧ escapedChar letter = c ∧ quotedChar c = ['\\', letter]) ∨
      (c.toNat < 0x20 ∧
        quotedChar c = ['\\', 'u', '0', '0', Nat.digitChar (c.toNat / 16), Nat.digitChar (c.toNat % 16)]) ∨
      (c ≠ '"' ∧ c ≠ '\\' ∧ c ≠ '\n' ∧ quotedChar c = [c]) := by
  unfold quotedChar
  split
  next same => exact .inl ⟨'"', by decide, by decide, same.symm, rfl⟩
  next notQuote =>
  split
  next same => exact .inl ⟨'\\', by decide, by decide, same.symm, rfl⟩
  next notEscape =>
  split
  next same => exact .inl ⟨'b', by decide, by decide, same.symm, rfl⟩
  split
  next same => exact .inl ⟨'f', by decide, by decide, same.symm, rfl⟩
  split
  next same => exact .inl ⟨'n', by decide, by decide, same.symm, rfl⟩
  next notBreak =>
  split
  next same => exact .inl ⟨'r', by decide, by decide, same.symm, rfl⟩
  split
  next same => exact .inl ⟨'t', by decide, by decide, same.symm, rfl⟩
  split
  next control => exact .inr (.inl ⟨control, rfl⟩)
  next => exact .inr (.inr ⟨notQuote, notEscape, notBreak, rfl⟩)

theorem readQuoted?_quotedChar (c : Char) (rest : List Char) :
    readQuoted? (quotedChar c ++ rest) = (readQuoted? rest).map (c :: ·) := by
  rcases quotedChar_cases c with ⟨letter, other, _, same, quoted⟩ | ⟨control, quoted⟩ | ⟨notQuote, notEscape, _, quoted⟩
  · rw [quoted, ← same, List.cons_append, List.singleton_append, readQuoted?]
    exact fun _ _ _ _ _ unicode _ => other unicode
  · rw [quoted]
    have code := digitValue_digitChar c.toNat control
    have zero : digitValue '0' = 0 := by decide
    change (readQuoted? rest).map (Char.ofNat (((digitValue '0' * 16 + digitValue '0') * 16 + _) * 16 + _) :: ·) = _
    rw [zero, Nat.zero_mul, Nat.zero_add, code, Char.ofNat_toNat]
  · rw [quoted]
    exact readQuoted?_plain notQuote notEscape rest

/-- A text is read back from its JSON string, whatever comes behind the string. It ends at the quote that closes it,
since no quote inside is written as one. -/
theorem readQuoted?_flatMap (text rest : List Char) :
    readQuoted? (text.flatMap quotedChar ++ '"' :: rest) = some text := by
  induction text with
  | nil => rfl
  | cons c text ih => rw [List.flatMap_cons, List.append_assoc, readQuoted?_quotedChar, ih, Option.map_some]

theorem break_notMem_quotedChar (c : Char) : '\n' ∉ quotedChar c := by
  rcases quotedChar_cases c with ⟨letter, _, other, _, quoted⟩ | ⟨_, quoted⟩ | ⟨_, _, other, quoted⟩
  · rw [quoted]
    simpa using other.symm
  · rw [quoted]
    simp
  · rw [quoted, List.mem_singleton]
    exact other.symm

theorem toList_quoted (text : String) : (quoted text).toList = '"' :: (text.toList.flatMap quotedChar ++ ['"']) := by
  simp [quoted]

/-- A JSON string has no line break in it, since a break is written as a letter behind a backslash. -/
theorem break_notMem_quoted (text : String) : '\n' ∉ (quoted text).toList := by
  have inside : '\n' ∉ text.toList.flatMap quotedChar := fun member => by
    obtain ⟨c, _, there⟩ := List.mem_flatMap.mp member
    exact break_notMem_quotedChar c there
  rw [toList_quoted]
  simpa using inside

end Text

theorem jsonObject_cons_cons (field field' : String × String) (fields : List (String × String)) :
    ∃ rest, jsonObject (field :: field' :: fields) =
      "\x7b" ++ Text.quoted field.1 ++ ":" ++ field.2 ++ "," ++ Text.quoted field'.1 ++ ":" ++ field'.2 ++ rest := by
  cases fields with
  | nil => exact ⟨"\x7d", by simp [jsonObject, String.append_assoc]⟩
  | cons other fields => exact ⟨_, by simp [jsonObject, String.append_assoc]; rfl⟩

namespace Event

/-- How the line of an event with a text begins. -/
def textStart : String := "\x7b\"event\":\"data\",\"text\":\""

/-- Reads the text from the line of an event, if the event carries one. -/
def textOfLine? (line : List Char) : Option String :=
  (line.dropPrefix? textStart.toList).bind fun rest => (Text.readQuoted? rest).map String.ofList

theorem exists_line_data (text : String) (origin : Role) :
    ∃ rest, (data text origin).line.toList = textStart.toList ++ (text.toList.flatMap Text.quotedChar ++ '"' :: rest) := by
  have names : "\x7b" ++ Text.quoted "event" ++ ":" ++ Text.quoted "data" ++ "," ++ Text.quoted "text" ++ ":" ++ "\"" =
      textStart := by decide +kernel
  obtain ⟨rest, begins⟩ := jsonObject_cons_cons ("event", Text.quoted "data") ("text", Text.quoted text)
    [("origin", Text.quoted origin.text)]
  refine ⟨rest.toList, ?_⟩
  rw [line, begins, ← names]
  simp [Text.toList_quoted]

/-- The text of an event is read back from its line; an event without one has a line from which none is read. -/
theorem textOfLine?_line (e : Event) : textOfLine? e.line.toList = e.text? := by
  cases e with
  | data text origin =>
    obtain ⟨rest, begins⟩ := exists_line_data text origin
    rw [begins, textOfLine?, List.dropPrefix?_append_of_beq _ (BEq.refl _), Option.bind_some, Text.readQuoted?_flatMap,
      Option.map_some, String.ofList_toList]
    rfl
  | error e =>
    obtain ⟨rest, begins⟩ := jsonObject_cons_cons ("event", Text.quoted "error") ("error", e.json) []
    have front : "\x7b" ++ Text.quoted "event" ++ ":" ++ Text.quoted "error" = "\x7b\"event\":\"error\"" := by decide +kernel
    have other : (error e).line.toList.dropPrefix? textStart.toList = none := by
      by_contra found
      obtain ⟨behind, found⟩ := Option.ne_none_iff_exists'.mp found
      obtain ⟨start, whole, same⟩ := List.dropPrefix?_eq_some_iff.mp found
      rw [beq_iff_eq.mp same] at whole
      have kind : "\x7b\"event\":\"error\"".toList <+: (error e).line.toList := by
        rw [line, begins, front]
        simp [List.append_assoc]
      have inside := List.prefix_of_prefix_length_le kind (whole ▸ List.prefix_append ..) (by decide +kernel)
      exact absurd inside (by decide +kernel)
    rw [textOfLine?, other]
    rfl
  | finish => decide +kernel

theorem break_notMem_intercalate {parts : List String} (whole : ∀ part ∈ parts, '\n' ∉ part.toList) :
    '\n' ∉ (",".intercalate parts).toList := by
  induction parts with
  | nil => simp
  | cons part parts ih =>
    obtain ⟨first, rest⟩ := List.forall_mem_cons.mp whole
    cases parts with
    | nil => simpa using first
    | cons other parts =>
      rw [String.intercalate_cons_cons]
      simpa [first] using ih rest

theorem break_notMem_jsonObject {fields : List (String × String)}
    (whole : ∀ field ∈ fields, '\n' ∉ field.2.toList) : '\n' ∉ (jsonObject fields).toList := by
  have inside : '\n' ∉ (",".intercalate (fields.map fun field => Text.quoted field.1 ++ ":" ++ field.2)).toList := by
    refine break_notMem_intercalate fun part member => ?_
    obtain ⟨field, there, rfl⟩ := List.mem_map.mp member
    simpa [Text.break_notMem_quoted] using whole field there
  simpa [jsonObject] using inside

theorem break_notMem_json (e : ResolveError) : '\n' ∉ e.json.toList := by
  have quoted := Text.break_notMem_quoted
  refine break_notMem_jsonObject ?_
  cases e.cause <;> cases e.directive <;> simp [quoted]

/-- The line of an event has no break inside, whatever its texts and paths are. -/
theorem break_notMem_line (e : Event) : '\n' ∉ e.line.toList := by
  have quoted := Text.break_notMem_quoted
  cases e with
  | data text origin => exact break_notMem_jsonObject (by simp [quoted])
  | error e => exact break_notMem_jsonObject (by simp [quoted, break_notMem_json])
  | finish => exact break_notMem_jsonObject (by simp [quoted])

/-- Reads the texts from the lines of some events, and puts them together. -/
def textOfLines (lines : String) : String := String.join ((lines.toList.splitOn '\n').filterMap textOfLine?)

/-- From the lines of some events all their texts are read, whatever the texts are, and are put together in order. -/
theorem textOfLines_lines (events : List Event) : textOfLines (lines events) = String.join (events.filterMap text?) := by
  have split : ((lines events).toList.splitOn '\n').filterMap textOfLine? = events.filterMap text? := by
    induction events with
    | nil => decide +kernel
    | cons e events ih =>
      have first : (lines (e :: events)).toList = e.line.toList ++ '\n' :: (lines events).toList := by
        simp [lines, String.join_cons]
      rw [first, List.splitOn_append_cons_self, List.splitOn_eq_singleton (break_notMem_line e), List.singleton_append,
        List.filterMap_cons, List.filterMap_cons, ih, textOfLine?_line]
  rw [textOfLines, split]

end Event

end Templating
