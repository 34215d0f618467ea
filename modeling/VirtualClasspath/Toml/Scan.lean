import VirtualClasspath.Text.Cut

/-!
# Scanning TOML

A `Scan` takes characters from the start of a text and leaves the rest, or fails; `<|>` tries one
scan after the other at the same place. `many` repeats a scan that takes at least a character, so
there are no more repetitions than characters.

Blanks are spaces and tabs, and a line ends with a line feed, after a carriage return or not.

The modules about TOML stand in for a library, which reads the configuration files of a compiler
(section 10.3 of the specification). They follow the rules of TOML 1.0, and say of a text whether it
is a document and which table it writes. Out of scope are the words of the library about a text that
is none, and where in the text its fault lies.
-/

namespace VirtualClasspath.Toml

/-- Takes something from the start of a text. -/
abbrev Scan := StateT (List Char) Option

namespace Scan

/-- One character of a class. -/
def satisfying (p : Char → Bool) : Scan Char
  | [] => none
  | c :: rest => if p c then some (c, rest) else none

/-- The character `c`. -/
def char (c : Char) : Scan Unit := do
  let _ ← satisfying (· = c)

/-- The characters of `s`. -/
def word (s : String) : Scan Unit := fun input => (Text.after? s.toList input).map ((), ·)

/-- All characters of a class up to the first that is not in it. -/
def takeWhile (p : Char → Bool) : Scan (List Char) := fun input =>
  some (input.takeWhile p, input.dropWhile p)

/-- The end of the text. -/
def atEnd : Scan Unit
  | [] => some ((), [])
  | _ :: _ => none

/-- The characters that a scan takes, instead of what it makes of them. -/
def taken {α : Type} (p : Scan α) : Scan (List Char) := fun input =>
  (p input).map fun (_, rest) => (input.take (input.length - rest.length), rest)

/-- Repeats a scan until it fails, but not more often than `room` has characters. -/
def manyWithin {α : Type} (p : Scan α) : (room : List Char) → Scan (List α)
  | [], input => some ([], input)
  | _ :: room, input =>
    match p input with
    | none => some ([], input)
    | some (a, rest) => (manyWithin p room rest).map fun (as, rest) => (a :: as, rest)

/-- Repeats a scan until it fails. A scan that succeeds takes a character, so the text itself is
room enough. -/
def many {α : Type} (p : Scan α) : Scan (List α) := fun input => manyWithin p input input

/-- Things with something between each two of them. -/
def separated {α : Type} (p : Scan α) (between : Scan Unit) : Scan (List α) :=
  (do
    let a ← p
    let as ← many (do between; p)
    return a :: as) <|> pure []

/-- `n` characters of a class. -/
def count (p : Char → Bool) : Nat → Scan (List Char)
  | 0 => return []
  | n + 1 => do
    let c ← satisfying p
    return c :: (← count p n)

/-! ## Blanks, lines, comments -/

/-- Characters beyond the ASCII range. -/
def isBeyondAscii (c : Char) : Bool := 0x80 ≤ c.toNat

/-- Spaces and tabs. -/
def isSpace (c : Char) : Bool := c = ' ' || c = '\t'

/-- The characters that a comment may hold. -/
def isInComment (c : Char) : Bool :=
  c = '\t' || (0x20 ≤ c.toNat && c.toNat ≤ 0x7E) || isBeyondAscii c

/-- Spaces and tabs, if there are any. -/
def spaces : Scan Unit := do
  let _ ← takeWhile isSpace

/-- A line break. -/
def newline : Scan Unit := char '\n' <|> do char '\r'; char '\n'

/-- A comment up to the end of the line. -/
def comment : Scan Unit := do
  char '#'
  let _ ← takeWhile isInComment

/-- What may follow on the line of a complete statement. -/
def lineRest : Scan Unit := do
  spaces
  let _ ← optional comment
  newline <|> atEnd

/-- Blanks, line breaks and comments between the elements of an array. -/
def gap : Scan Unit := do
  spaces
  let _ ← many do
    let _ ← optional comment
    newline
    spaces

end Scan

end VirtualClasspath.Toml
