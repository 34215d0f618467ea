import VirtualClasspath.Text.Printable

/-!
# Quoted text in messages

Names in messages stand between quotes, with the quote, the backslash and four control characters
escaped by a backslash and every other character without a printed form written by number, as in
`\u{7f}`. Lists of names stand between brackets, separated by a comma and a blank.
-/

namespace VirtualClasspath.Text

/-- The number `n` in lowercase hexadecimal, without leading zeros. -/
def hexDigits (n : Nat) : List Char :=
  Nat.toDigits 16 n

/-- The byte `b` as `0x` and two hexadecimal digits. -/
def hexByte (b : UInt8) : String :=
  let digits := hexDigits b.toNat
  String.ofList ('0' :: 'x' :: List.replicate (2 - digits.length) '0' ++ digits)

/-- The written form of `c` between two `quote` characters. -/
def quotedChar (quote c : Char) : List Char :=
  if c = '\x00' then ['\\', '0']
  else if c = '\t' then ['\\', 't']
  else if c = '\r' then ['\\', 'r']
  else if c = '\n' then ['\\', 'n']
  else if c = '\\' then ['\\', '\\']
  else if c = quote then ['\\', quote]
  else if isPrintable c then [c]
  else '\\' :: 'u' :: '\x7b' :: hexDigits c.toNat ++ ['\x7d']

/-- A text between double quotes. -/
def quoted (s : String) : String :=
  String.ofList ('"' :: s.toList.flatMap (quotedChar '"') ++ ['"'])

/-- A character between single quotes. -/
def quotedSingle (c : Char) : String :=
  String.ofList ('\'' :: quotedChar '\'' c ++ ['\''])

/-- A bracketed list of written forms. -/
def listed (ss : List String) : String :=
  "[" ++ ", ".intercalate ss ++ "]"

/-- A bracketed list of quoted texts. -/
def quotedList (ss : List String) : String :=
  listed (ss.map quoted)

end VirtualClasspath.Text
