import VirtualClasspath.CompileError
import VirtualClasspath.Provider

/-!
# Content cells

A `Cell` stands for the bytes of one class while a backend works on it (section 4.5 of the
specification). The bytes of an input class are asked for when they are first read, and kept from
then on; an output class starts empty and grows with each write. `lazy`, `output`, `read`, `write`
and `into_blob` (`toBlob`) are the functions of a cell, and `toBlobs` is what becomes of the cells of
an attempt (`into_outputs`).

Out of scope: writes that fail for want of memory.
-/

namespace VirtualClasspath

/-- What is known of the bytes of a class. -/
inductive Content
  /-- They were not read yet. -/
  | unresolved
  | resolved (bytes : Bytes)
  /-- They are being written. -/
  | output (bytes : Bytes)
  deriving DecidableEq

/-- The bytes of one class. -/
structure Cell where
  name : TypeName
  content : Content
  deriving DecidableEq

namespace Cell

/-- An input class. -/
def lazy (name : TypeName) : Cell := ⟨name, .unresolved⟩

/-- An output class without bytes. -/
def output (name : TypeName) : Cell := ⟨name, .output []⟩

/-- Whether the bytes are at hand. -/
def isResolved (c : Cell) : Bool :=
  match c.content with
  | .unresolved => false
  | _ => true

/-- Whether the cell is written. -/
def isOutput (c : Cell) : Bool :=
  match c.content with
  | .output _ => true
  | _ => false

/-- The bytes were served. -/
def loadedMessage (n : TypeName) (size : Nat) : Message :=
  ⟨.loadingBytecode,
    "Loading bytecode of " ++ n.text ++ " (" ++ toString size ++ " bytes)"⟩

/-- The one class in an answer to a request for `n`. -/
def only (n : TypeName) : List Blob → Except CompileError Bytes
  | [] => .error (.unresolvable n)
  | [b] => .ok b.bytes
  | bs => .error (.ambiguous n bs.length)

/-- The bytes, and the cell that has them at hand. -/
def read (p : Provider) (logging : LogSettings) (c : Cell) :
    Session (Except CompileError Bytes × Cell) := do
  match c.content with
  | .resolved bytes => return (.ok bytes, c)
  | .output bytes => return (.ok bytes, c)
  | .unresolved => do
    traceCall logging (.read c.name)
    match only c.name (← p.ask [c.name]) with
    | .error e => return (.error e, c)
    | .ok bytes => do
      report logging (loadedMessage c.name bytes.length)
      return (.ok bytes, { c with content := .resolved bytes })

/-- The class that the cell holds in the end. -/
def toBlob (p : Provider) (logging : LogSettings) (c : Cell) :
    Session (Except CompileError Blob) := do
  let (bytes, _) ← c.read p logging
  return bytes.map fun bytes => ⟨c.name, bytes⟩

/-- The classes that cells hold in the end, or the error of the first one that cannot be read. -/
def toBlobs (p : Provider) (logging : LogSettings) :
    List Cell → Session (Except CompileError (List Blob))
  | [] => return .ok []
  | c :: rest => do
    match ← c.toBlob p logging with
    | .error e => return .error e
    | .ok b => return (← toBlobs p logging rest).map (b :: ·)

/-- Why nothing can be written to an input class. -/
def refusal (n : TypeName) : String := n.text ++ " is an input class and cannot be written"

/-- The cell with more bytes; input classes cannot be written. -/
def write (c : Cell) (bytes : Bytes) : Except String Cell :=
  match c.content with
  | .output written => .ok { c with content := .output (written ++ bytes) }
  | _ => .error (refusal c.name)

/-- What the content is called. -/
def contentText (c : Cell) : String :=
  match c.content with
  | .unresolved => "unresolved"
  | .resolved _ => "resolved"
  | .output _ => "output"

/-- The cell in one line. -/
def description (c : Cell) : String :=
  "ContentCell \x7b identifier: TypeIdentifier(" ++ Text.quoted c.name.text ++ "), state: " ++
    Text.quoted c.contentText ++ " \x7d"

end Cell

end VirtualClasspath
