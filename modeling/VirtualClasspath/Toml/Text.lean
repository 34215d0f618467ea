import VirtualClasspath.Toml.Scan

/-!
# Strings in TOML

A basic string stands between double quotes and knows escapes, a literal string stands between
apostrophes and knows none. With three marks instead of one, a string may run over several lines.
Then a line break right after the opening marks is dropped, a line break counts as a line feed, and
one or two marks may stand anywhere, also before the closing marks.

These are the four kinds of strings of TOML 1.0. Out of scope is how a text came out of bytes: only
the characters of a text are looked at.
-/

namespace VirtualClasspath.Toml

open Scan

/-- Whether a number is that of a character. -/
def isScalar (n : Nat) : Bool := n < 0xD800 || (0xDFFF < n && n < 0x110000)

/-- The value of a hexadecimal digit. -/
def hexValue (c : Char) : Nat :=
  if '0' ≤ c && c ≤ '9' then c.toNat - '0'.toNat
  else if 'a' ≤ c && c ≤ 'f' then c.toNat - 'a'.toNat + 10
  else c.toNat - 'A'.toNat + 10

/-- Whether a character is a hexadecimal digit. -/
def isHexDigit (c : Char) : Bool :=
  ('0' ≤ c && c ≤ '9') || ('a' ≤ c && c ≤ 'f') || ('A' ≤ c && c ≤ 'F')

/-- The number that digits write, where `value` is the value of a digit. -/
def ofDigits (base : Nat) (value : Char → Nat) (digits : List Char) : Nat :=
  digits.foldl (fun n c => n * base + value c) 0

/-- A character by its number, in `n` hexadecimal digits. -/
def numbered (n : Nat) : Scan Char := do
  let code := ofDigits 16 hexValue (← count isHexDigit n)
  if isScalar code then return Char.ofNat code else failure

/-- What follows the backslash of an escape. -/
def escaped : Scan Char := do
  match ← satisfying fun _ => true with
  | 'b' => return '\x08'
  | 't' => return '\t'
  | 'n' => return '\n'
  | 'f' => return '\x0c'
  | 'r' => return '\r'
  | '"' => return '"'
  | '\\' => return '\\'
  | 'u' => numbered 4
  | 'U' => numbered 8
  | _ => failure

/-- The characters that stand for themselves in a string between `mark` characters. -/
def isPlain (mark c : Char) : Bool :=
  c ≠ mark && (c = '\t' || (0x20 ≤ c.toNat && c.toNat ≤ 0x7E) || isBeyondAscii c)

/-- A character of a basic string. -/
def basicChar : Scan Char :=
  satisfying (fun c => isPlain '"' c && c ≠ '\\') <|> do char '\\'; escaped

/-- A string on one line: basic or literal. -/
def simpleText : Scan String :=
  (do char '"'; let cs ← many basicChar; char '"'; return String.ofList cs) <|>
  (do char '\''; let cs ← takeWhile (isPlain '\''); char '\''; return String.ofList cs)

/-- A backslash at the end of a line: it takes the line break with it, and all blanks and line
breaks that follow. -/
def continuation : Scan Unit := do
  char '\\'
  spaces
  newline
  let _ ← many (newline <|> do let _ ← satisfying isSpace)

/-- A mark that is not the first of three. -/
def looseMark (mark : Char) : Scan Char
  | c :: rest =>
    if c = mark && rest.take 2 ≠ [mark, mark] then some (c, rest) else none
  | [] => none

/-- The three marks at the end of a string, and the one or two marks of its text before them. -/
def closingMarks (mark : Char) : Scan (List Char) := do
  let _ ← count (· = mark) 3
  let extra ← count (· = mark) 2 <|> count (· = mark) 1 <|> pure []
  return extra

/-- A string on several lines, made of pieces. -/
def longText (mark : Char) (piece : Scan (List Char)) : Scan String := do
  let _ ← count (· = mark) 3
  let _ ← optional newline
  let pieces ← many piece
  let extra ← closingMarks mark
  return String.ofList (pieces.flatten ++ extra)

/-- A line break of a string. -/
def lineFeed : Scan (List Char) := do newline; return ['\n']

/-- A piece of a basic string on several lines. -/
def basicPiece : Scan (List Char) :=
  (do continuation; return []) <|> (do return [← basicChar]) <|> lineFeed <|>
    (do return [← looseMark '"'])

/-- A piece of a literal string on several lines. -/
def literalPiece : Scan (List Char) :=
  (do return [← satisfying (isPlain '\'')]) <|> lineFeed <|> (do return [← looseMark '\''])

/-- A string. -/
def text : Scan String :=
  longText '"' basicPiece <|> longText '\'' literalPiece <|> simpleText

end VirtualClasspath.Toml
