import VirtualClasspath.Toml.Number

/-!
# Values and tables in TOML

Tables come about in three ways: by a header or as an inline table, as a step on the way to another
table in a header, or as a step of a dotted key. Which way decides what may be added later:
`Table.assign`, `Table.open?` and `Table.append?` hold those rules.

A value may nest at most `maxDepth` levels deep, and a dotted key may have at most `maxDepth` parts.

These are the keys, values and tables of TOML 1.0. The two bounds are not among its rules: they are
those of the library that the reader stands in for.
-/

namespace VirtualClasspath.Toml

/-- How a table came about. -/
inductive Made
  /-- By a header of its own, or as an inline table. -/
  | stated
  /-- By the header of a table in it. -/
  | implied
  /-- By a dotted key. -/
  | dotted
  deriving DecidableEq

/-- What a key stands for. -/
inductive Value
  | string (text : String)
  | integer (n : Int)
  /-- A number with a fraction or an exponent, as it is written. -/
  | float (text : String)
  | boolean (b : Bool)
  /-- A date, a time or both, as it is written. -/
  | datetime (text : String)
  | array (values : List Value)
  /-- A table to which nothing can be added. -/
  | inlineTable (entries : List (String × Value))
  | table (made : Made) (entries : List (String × Value))
  /-- The tables of a header in double brackets, the newest first. -/
  | tables (elements : List (List (String × Value)))

/-- Keys and what they stand for, in the order of their first appearance. -/
abbrev Entries := List (String × Value)

/-- A table that is being filled. -/
structure Table where
  made : Made
  entries : Entries

namespace Table

/-- Makes a new value from the one that a key has so far. -/
def update? (key : String) (f : Option Value → Option Value) : Entries → Option Entries
  | [] => do return [(key, ← f none)]
  | (k, v) :: rest =>
    if k = key then do return (k, ← f (some v)) :: rest
    else do return (k, v) :: (← update? key f rest)

/-- Changes the table that a path leads to. Tables on the way that are missing are made in the way
`made`; a dotted key does not lead into a table that was stated. Of several tables of a header in
double brackets, a path leads into the newest. -/
def descend? (made : Made) (f : Table → Option Entries) : (path : List String) → Table →
    Option Entries
  | [], t => f t
  | key :: path, t => update? key (fun
    | none => do return .table made (← descend? made f path ⟨made, []⟩)
    | some (.table m entries) =>
      if made = .dotted && m = .stated then none
      else do return .table m (← descend? made f path ⟨m, entries⟩)
    | some (.tables (entries :: older)) => do
      return .tables ((← descend? made f path ⟨.stated, entries⟩) :: older)
    | some _ => none) t.entries

/-- Gives a value to a key that has none. -/
def add? (key : String) (value : Value) (entries : Entries) : Option Entries :=
  update? key (fun
    | none => some value
    | some _ => none) entries

/-- Gives a value to a dotted key. Its last table must have come about by dotted keys too. -/
def assign? (path : List String) (key : String) (value : Value) (t : Table) : Option Entries :=
  descend? .dotted (fun last =>
    if path ≠ [] && last.made ≠ .dotted then none else add? key value last.entries) path t

/-- States the table of a header. -/
def open? (path : List String) (key : String) (t : Table) : Option Entries :=
  descend? .implied (fun parent => update? key (fun
    | none => some (.table .stated [])
    | some (.table .implied entries) => some (.table .stated entries)
    | some _ => none) parent.entries) path t

/-- Appends a table to those of a header in double brackets. -/
def append? (path : List String) (key : String) (t : Table) : Option Entries :=
  descend? .implied (fun parent => update? key (fun
    | none => some (.tables [[]])
    | some (.tables elements) => some (.tables ([] :: elements))
    | some _ => none) parent.entries) path t

end Table

/-! ## Keys and values -/

open Scan

/-- How deep values may nest, and how many parts a dotted key may have. -/
def maxDepth : Nat := 79

/-- Whether a character may stand in a key without quotes. -/
def isBareKeyChar (c : Char) : Bool :=
  ('a' ≤ c && c ≤ 'z') || ('A' ≤ c && c ≤ 'Z') || isDigit c || c = '-' || c = '_'

/-- One part of a key. -/
def keyPart : Scan String := simpleText <|> do
  let first ← satisfying isBareKeyChar
  return String.ofList (first :: (← takeWhile isBareKeyChar))

/-- A dotted key: the parts before the last, and the last. -/
def dottedKey : Scan (List String × String) := do
  let parts ← separated (do spaces; let part ← keyPart; spaces; return part) (char '.')
  match parts.getLast? with
  | some last => if parts.length ≤ maxDepth then return (parts.dropLast, last) else failure
  | none => failure

/-- A key and its value, which is read by `value`. -/
def keyValue (value : Scan Value) : Scan (List String × String × Value) := do
  let (path, key) ← dottedKey
  char '='
  spaces
  return (path, key, ← value)

/-- An array, whose elements are read by `value`. -/
def array (value : Scan Value) : Scan Value := do
  char '['
  let values ← separated (do gap; let v ← value; gap; return v) (char ',')
  if !values.isEmpty then
    let _ ← optional (char ',')
  gap
  char ']'
  return .array values

/-- The table that keys with values make. -/
def tableOf? (pairs : List (List String × String × Value)) : Option Entries :=
  pairs.foldlM (fun entries (path, key, value) => Table.assign? path key value ⟨.stated, entries⟩) []

/-- An inline table, whose values are read by `value`. -/
def inlineTable (value : Scan Value) : Scan Value := do
  char '\x7b'
  let pairs ← separated (do let p ← keyValue value; spaces; return p) (char ',')
  spaces
  char '\x7d'
  match tableOf? pairs with
  | some entries => return .inlineTable entries
  | none => failure

/-- A value that holds no other. -/
def scalar : Scan Value :=
  (.string <$> text) <|>
  ((fun cs => .datetime (String.ofList cs)) <$> taken datetime) <|>
  ((fun cs => .float (String.ofList cs)) <$> taken float) <|>
  (.integer <$> integer) <|>
  (do word "true"; return .boolean true) <|>
  (do word "false"; return .boolean false)

/-- A value in which others may nest `room` levels deep. -/
def value : (room : Nat) → Scan Value
  | 0, input => scalar input
  | room + 1, input => (scalar <|> array (value room) <|> inlineTable (value room)) input

end VirtualClasspath.Toml
