import VirtualClasspath.Toml.Value

/-!
# TOML documents

A document is a sequence of lines, each blank or with a statement: a header in single or double
brackets, or a key with a value. `parse?` reads all statements and lets them fill one table. It
answers with the table, or with nothing for a text that is no document: which fault comes first, and
where, is out of scope.
-/

namespace VirtualClasspath.Toml

open Scan

/-- What a line states. -/
inductive Statement
  /-- `[path.key]` -/
  | header (path : List String) (key : String)
  /-- `[[path.key]]` -/
  | arrayHeader (path : List String) (key : String)
  /-- `path.key = value` -/
  | assign (path : List String) (key : String) (value : Value)

/-- A header in double brackets. -/
def arrayHeader : Scan Statement := do
  word "[["
  let (path, key) ← dottedKey
  word "]]"
  lineRest
  return .arrayHeader path key

/-- A header in single brackets. -/
def header : Scan Statement := do
  char '['
  let (path, key) ← dottedKey
  char ']'
  lineRest
  return .header path key

/-- A key with a value. -/
def assignment : Scan Statement := do
  let (path, key, v) ← keyValue (value maxDepth)
  lineRest
  return .assign path key v

/-- A line without a statement. -/
def emptyLine : Scan Unit := newline <|> do
  comment
  newline <|> atEnd

/-- A line, and the blanks at the start of the next one. -/
def line : Scan (Option Statement) := do
  let s ← (do emptyLine; return none) <|> (some <$> arrayHeader) <|> (some <$> header) <|>
    (some <$> assignment)
  spaces
  return s

/-- All statements of a text, which may begin with a byte order mark. -/
def statements : Scan (List Statement) := do
  let _ ← optional (char '\ufeff')
  spaces
  let lines ← many line
  atEnd
  return lines.filterMap id

/-- A document that is being read: the table of the whole, and the path to the table of the last
header. -/
structure Draft where
  root : Entries := []
  path : List String := []

/-- What a statement makes of a document. -/
def Draft.step? (d : Draft) : Statement → Option Draft
  | .header path key => do
    return ⟨← Table.open? path key ⟨.stated, d.root⟩, path ++ [key]⟩
  | .arrayHeader path key => do
    return ⟨← Table.append? path key ⟨.stated, d.root⟩, path ++ [key]⟩
  | .assign path key value => do
    let root ← Table.descend? .implied (Table.assign? path key value) d.path ⟨.stated, d.root⟩
    return { d with root }

/-- The table that a text writes, if it is a document. -/
def parse? (s : String) : Option Entries := do
  let (statements, _) ← statements s.toList
  let d ← statements.foldlM Draft.step? {}
  return d.root

end VirtualClasspath.Toml
