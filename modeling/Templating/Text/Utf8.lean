namespace Templating.Utf8

/-- What the first byte of a character says about the bytes behind it. -/
structure Lead where
  more : Nat
  /-- The least value that the next of them may have. -/
  low : Nat
  /-- The greatest value that it may have. -/
  high : Nat
  /-- The leading bits of the code point. -/
  bits : Nat

def lead? (byte : Nat) : Option Lead :=
  if byte < 0x80 then some ⟨0, 0, 0, byte⟩
  else if byte < 0xC2 then none
  else if byte < 0xE0 then some ⟨1, 0x80, 0xBF, byte - 0xC0⟩
  else if byte = 0xE0 then some ⟨2, 0xA0, 0xBF, 0⟩
  else if byte = 0xED then some ⟨2, 0x80, 0x9F, 0xD⟩
  else if byte < 0xF0 then some ⟨2, 0x80, 0xBF, byte - 0xE0⟩
  else if byte = 0xF0 then some ⟨3, 0x90, 0xBF, 0⟩
  else if byte < 0xF4 then some ⟨3, 0x80, 0xBF, byte - 0xF0⟩
  else if byte = 0xF4 then some ⟨3, 0x80, 0x8F, 4⟩
  else none

/-- Reads the bytes behind the first one, as far as they belong to the character. Gives the code point
if it is complete, and the rest. -/
def readMore : (more low high value : Nat) → List UInt8 → Option Nat × List UInt8
  | 0, _, _, value, bytes => (some value, bytes)
  | _ + 1, _, _, _, [] => (none, [])
  | more + 1, low, high, value, byte :: rest =>
    if low ≤ byte.toNat ∧ byte.toNat ≤ high then
      readMore more 0x80 0xBF (0x40 * value + byte.toNat % 0x40) rest
    else (none, byte :: rest)

/-- Reads a character, or the bytes that stand in its place. -/
def readChar (byte : UInt8) (rest : List UInt8) : Option Char × List UInt8 :=
  match lead? byte.toNat with
  | none => (none, rest)
  | some lead =>
    let (value, rest) := readMore lead.more lead.low lead.high lead.bits rest
    (value.map Char.ofNat, rest)

/-- The characters of bytes, with nothing where there is none. -/
def readAll : (fuel : Nat) → List UInt8 → List (Option Char)
  | 0, _ => []
  | _, [] => []
  | fuel + 1, byte :: rest =>
    let (char, rest) := readChar byte rest
    char :: readAll fuel rest

/-- The text of bytes. Where they are none, each longest run that starts a character and does not complete it becomes
one replacement character, and so does each byte that cannot start one. -/
def decodeLossy (bytes : List UInt8) : String :=
  String.ofList ((readAll bytes.length bytes).map (·.getD '\uFFFD'))

/-- The text of bytes, if they are one. -/
def decode? (bytes : List UInt8) : Option String :=
  ((readAll bytes.length bytes).mapM id).map String.ofList

def encode (s : String) : List UInt8 := s.toUTF8.toList

end Templating.Utf8
