import VirtualClasspath.Toml.Text

/-!
# Numbers and times in TOML

Numbers may have underscores between digits. An integer fits in 64 bits with a sign, and a number
with a fraction or an exponent does not exceed the largest of 64 bits. Dates and times must exist,
leap seconds included.

These are the integers, floats, dates and times of TOML 1.0. Out of scope is the value of all but
the integers: no option takes any other, so it is enough that a text writes one.
-/

namespace VirtualClasspath.Toml

open Scan

/-- Whether a character is a decimal digit. -/
def isDigit (c : Char) : Bool := '0' ≤ c && c ≤ '9'

/-- The value of a decimal digit. -/
def digitValue (c : Char) : Nat := c.toNat - '0'.toNat

/-- A digit, after an underscore or not. -/
def nextDigit (p : Char → Bool) : Scan Char := satisfying p <|> do char '_'; satisfying p

/-- Digits, with single underscores between them, which the result leaves out. -/
def digits (p : Char → Bool) : Scan (List Char) := do
  let first ← satisfying p
  return first :: (← many (nextDigit p))

/-- A sign; whether it is a minus. -/
def sign : Scan Bool :=
  (do char '-'; return true) <|> (do char '+'; return false) <|> pure false

/-- The digits of a decimal integer; zero is the only one that begins with a zero. -/
def decimalDigits : Scan (List Char) :=
  (do
    let first ← satisfying fun c => isDigit c && c ≠ '0'
    return first :: (← many (nextDigit isDigit))) <|>
  (do return [← satisfying (· = '0')])

/-! ## Integers -/

/-- Whether a number fits in 64 bits with a sign. -/
def fits (n : Int) : Bool := -9223372036854775808 ≤ n && n ≤ 9223372036854775807

/-- A number, if it fits. -/
def fitting (n : Int) : Scan Int := if fits n then pure n else failure

/-- An integer in another base, after its mark. -/
def based (mark : String) (base : Nat) (p : Char → Bool) : Scan Int := do
  word mark
  fitting (ofDigits base hexValue (← digits p))

/-- An integer. -/
def integer : Scan Int :=
  based "0x" 16 isHexDigit <|> based "0o" 8 (fun c => '0' ≤ c && c ≤ '7') <|>
  based "0b" 2 (fun c => c = '0' || c = '1') <|>
  (do
    let negative ← sign
    let n : Int := ofDigits 10 digitValue (← decimalDigits)
    fitting (if negative then -n else n))

/-! ## Numbers with a fraction or an exponent -/

/-- Whether `mantissa · 10 ^ exponent` is so large that the nearest number of 64 bits is infinite:
at least `2 ^ 1024 - 2 ^ 970`. Before it comes to powers, numbers of more than 400 digits before the
point are told apart from those of at most 300. -/
def overflows (mantissa : Nat) (exponent : Int) : Bool :=
  let size : Int := (Nat.toDigits 10 mantissa).length + exponent
  if mantissa = 0 || size ≤ 300 then false
  else if 400 < size then true
  else Nat.pow 2 1024 - Nat.pow 2 970 ≤
    if 0 ≤ exponent then mantissa * Nat.pow 10 exponent.toNat
    else mantissa / Nat.pow 10 (-exponent).toNat

/-- What follows the point. -/
def fraction : Scan (List Char) := do
  char '.'
  digits isDigit

/-- The power of ten that a number is multiplied with. -/
def exponent : Scan Int := do
  char 'e' <|> char 'E'
  let negative ← sign
  let n : Int := ofDigits 10 digitValue (← digits isDigit)
  return if negative then -n else n

/-- A number with a fraction, an exponent or both. -/
def finiteFloat : Scan Unit := do
  let negative ← sign
  let whole ← decimalDigits
  let part ← optional fraction
  let power ← optional exponent
  if part.isNone && power.isNone then failure
  let mantissa := ofDigits 10 digitValue (whole ++ part.getD [])
  if !negative && overflows mantissa (power.getD 0 - (part.getD []).length) then failure

/-- A number with a fraction or an exponent, an infinity, or what is no number. -/
def float : Scan Unit := finiteFloat <|> do
  let _ ← sign
  word "inf" <|> word "nan"

/-! ## Dates and times -/

/-- A number of `n` digits between two bounds. -/
def field (n low high : Nat) : Scan Nat := do
  let value := ofDigits 10 digitValue (← count isDigit n)
  if low ≤ value && value ≤ high then return value else failure

/-- Whether a year has a leap day. -/
def isLeapYear (year : Nat) : Bool := year % 4 = 0 && (year % 100 ≠ 0 || year % 400 = 0)

/-- The number of days of a month. -/
def monthLength (year month : Nat) : Nat :=
  if month = 2 then if isLeapYear year then 29 else 28
  else if [4, 6, 9, 11].contains month then 30
  else 31

/-- A date. -/
def date : Scan Unit := do
  let year ← field 4 0 9999
  char '-'
  let month ← field 2 1 12
  char '-'
  let _ ← field 2 1 (monthLength year month)

/-- A time of the day, with parts of a second or without. -/
def time : Scan Unit := do
  let _ ← field 2 0 23
  char ':'
  let _ ← field 2 0 59
  char ':'
  let _ ← field 2 0 60
  let _ ← optional do
    char '.'
    let _ ← satisfying isDigit
    takeWhile isDigit

/-- The distance of a time from universal time. -/
def offset : Scan Unit :=
  char 'Z' <|> char 'z' <|> do
    char '+' <|> char '-'
    let _ ← field 2 0 23
    char ':'
    let _ ← field 2 0 59

/-- A date, a time, or both, the latter with an offset or without. -/
def datetime : Scan Unit :=
  (do
    date
    let _ ← optional do
      char 'T' <|> char 't' <|> char ' '
      time
      let _ ← optional offset) <|> time

end VirtualClasspath.Toml
