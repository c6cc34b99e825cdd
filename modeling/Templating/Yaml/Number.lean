import Templating.Decimal.Shortest
import Templating.Yaml.Char

namespace Templating.Yaml

/-- A number of several digits that starts with a zero is text. -/
def isPaddedNumber (cs : List Char) : Bool :=
  let digits := match cs with
    | '-' :: rest | '+' :: rest => rest
    | cs => cs
  match digits with
  | '0' :: c :: rest => (c :: rest).all Char.isDigit
  | _ => false

/-- The value of a digit in a base of at most sixteen. -/
def digitIn? (base : Nat) (c : Char) : Option Nat := (hexValue? c).filter (· < base)

/-- The number that a text of digits in a base writes. -/
def natIn? (base : Nat) (cs : List Char) : Option Nat :=
  if cs = [] then none
  else cs.foldlM (fun n c => (digitIn? base c).map (base * n + ·)) 0

/-- A number without a sign: hexadecimal, octal or binary behind its mark, else decimal. -/
def natural? : List Char → Option Nat
  | '0' :: 'x' :: cs => natIn? 16 cs
  | '0' :: 'o' :: cs => natIn? 8 cs
  | '0' :: 'b' :: cs => natIn? 2 cs
  | cs => if isPaddedNumber cs then none else natIn? 10 cs

def integer? : List Char → Option Int
  | '-' :: cs => (natural? cs).map fun n => -(n : Int)
  | '+' :: cs => (natural? cs).map Int.ofNat
  | cs => (natural? cs).map Int.ofNat

/-- What becomes of an integer by its size. -/
inductive IntegerSize
  /-- It fits in 64 bits, as a signed or an unsigned number. -/
  | small
  /-- It fits in 128 bits. -/
  | large
  | huge

def integerSize (n : Int) : IntegerSize :=
  if -0x8000000000000000 ≤ n ∧ n < 0x10000000000000000 then .small
  else if -0x80000000000000000000000000000000 ≤ n ∧ n < 0x100000000000000000000000000000000 then .large
  else .huge

def float? (cs : List Char) : Option Binary64 :=
  match cs with
  | '+' :: rest =>
    if [".inf", ".Inf", ".INF"].contains (String.ofList rest) then some (.infinite false)
    else finite? rest
  | '-' :: rest =>
    if [".inf", ".Inf", ".INF"].contains (String.ofList rest) then some (.infinite true)
    else (Binary64.unsigned? true rest).filter Binary64.isFinite
  | cs =>
    let text := String.ofList cs
    if [".inf", ".Inf", ".INF"].contains text then some (.infinite false)
    else if [".nan", ".NaN", ".NAN"].contains text then some .nan
    else finite? cs
where
  /-- A float that is not infinite, without a sign. -/
  finite? (cs : List Char) : Option Binary64 := (Binary64.unsigned? false cs).filter Binary64.isFinite

/-- The digits of a decimal with a point in them or behind them, or with an exponent where it would
have more than sixteen digits before the point or more than five zeros behind it. -/
def floatDigits (digits : List Char) (exponent : Int) : String :=
  let point : Int := digits.length + exponent
  let zeros (n : Int) := List.replicate n.toNat '0'
  let scientific := point - 1
  let text :=
    if 0 ≤ exponent ∧ point ≤ 16 then digits ++ zeros exponent ++ ['.', '0']
    else if 0 < point ∧ point ≤ 16 then digits.take point.toNat ++ '.' :: digits.drop point.toNat
    else if -5 < point ∧ point ≤ 0 then '0' :: '.' :: zeros (-point) ++ digits
    else
      let mantissa := match digits with
        | first :: second :: rest => first :: '.' :: second :: rest
        | digits => digits
      mantissa ++ 'e' :: (toString scientific).toList
  String.ofList text

def floatText : Binary64 → String
  | .nan => ".nan"
  | .infinite negative => if negative then "-.inf" else ".inf"
  | .finite negative m e =>
    let sign := if negative then "-" else ""
    if m = 0 then sign ++ "0.0"
    else
      let (digits, exponent) := Decimal.shortest m e
      sign ++ floatDigits (Nat.toDigits 10 digits) exponent

end Templating.Yaml
