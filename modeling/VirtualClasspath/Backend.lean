import VirtualClasspath.Cell
import VirtualClasspath.View

/-!
# Backends

A backend turns sources into classes. While it works it sees the class path through a view, reads
classes through cells and writes its results; it knows nothing of how the messages are filtered. An
`Exchange` is what it does in one attempt: a tree of operations, each with a continuation for every
answer. `Exchange.run` gives the answers, working on an `Attempt`, which holds the view and the
output cells so far.

The operations are the functions that a backend is given to call: those of the view (section 4.4 of
the specification), `read` and `write` of a cell (4.5), and of the context `open_input`,
`create_output`, `output_count` and `report_critical` (section 6).

Out of scope:

* A backend that meddles with an attempt in another way. It writes to an output cell by the number
  of the cell, so it cannot put a cell of its own making in the place of one, nor another context in
  the place of the one that it works with. All cells of an attempt are output cells, then, and the
  error that `Cell.toBlobs` knows is not met at the end of an attempt (`Cell.toBlobs_holding`,
  `outputs_run`).
* A backend that does not return: an exchange is finite, though nothing bounds it.
* Events for a log, which are no messages to the user.
-/

namespace VirtualClasspath

/-- What a backend can ask for during an attempt. -/
inductive Operation
  | list (package : String) (recursive : Bool)
  | listLocation (location : Location) (package : String) (recursive : Bool)
  | contains (name : TypeName)
  | originOf (name : TypeName)
  | viewSize
  | systemModules
  | moduleFor (package : String)
  | patchLocations
  | inferName (cell : Cell)
  | describeView
  /-- A cell for an input class. -/
  | openInput (name : TypeName)
  /-- The bytes of a cell, and the cell afterwards. -/
  | read (cell : Cell)
  /-- A cell for a class to be written; the answer is its number. -/
  | createOutput (name : TypeName)
  /-- More bytes for the cell of a number. -/
  | write (output : Nat) (bytes : Bytes)
  | outputCount
  /-- A failure of the backend itself. -/
  | reportCritical (text : String)
  | describeOutputs

/-- The answers to an operation. -/
def Operation.Answer : Operation → Type
  | list .. => List TypeName
  | listLocation .. => List Entry
  | contains _ => Bool
  | originOf _ => Option Origin
  | viewSize => Nat
  | systemModules => List String
  | moduleFor _ => Option String
  | patchLocations => SortedMap String (List String)
  | inferName _ => TypeName
  | describeView => String
  | openInput _ => Cell
  | read _ => Except CompileError Bytes × Cell
  | createOutput _ => Nat
  | write .. => Unit
  | outputCount => Nat
  | reportCritical _ => Unit
  | describeOutputs => String

/-- The operations of a computation that ends with an `α`. -/
inductive Exchange (α : Type)
  | done (result : α)
  | ask (op : Operation) (next : op.Answer → Exchange α)

namespace Exchange

variable {α β : Type}

/-- One operation. -/
def perform (op : Operation) : Exchange op.Answer := .ask op .done

/-- One computation after the other. -/
def bind : Exchange α → (α → Exchange β) → Exchange β
  | .done a, f => f a
  | .ask op next, f => .ask op fun answer => (next answer).bind f

instance : Monad Exchange where
  pure := .done
  bind := bind

end Exchange

/-! ## Answering operations -/

/-- The services for one attempt. -/
structure Services where
  provider : Provider
  logging : LogSettings

/-- The state of an attempt. -/
structure Attempt where
  view : View
  /-- The output cells so far, in the order of their creation. -/
  outputs : List Cell

/-- The backend has met a failure of its own. -/
def criticalMessage (text : String) : Message := ⟨.critical, text⟩

/-- Reports a failure of the backend, without the line breaks at its end. A blank text is not
reported. -/
def reportCritical (logging : LogSettings) (text : String) : Session Unit :=
  let text := Text.trimEnd (fun c => c = '\r' || c = '\n') text
  if Text.trim text = "" then return else report logging (criticalMessage text)

namespace Attempt

/-- The attempt with more bytes for the cell of number `i`, if the cell can be written. -/
def write (a : Attempt) (i : Nat) (bytes : Bytes) : Attempt :=
  { a with outputs := a.outputs.modify i fun c => (c.write bytes).toOption.getD c }

/-- The output cells so far in one line. -/
def description (a : Attempt) : String :=
  "BackendContext \x7b outputs: " ++ Text.listed (a.outputs.map Cell.description) ++ ", .. \x7d"

/-- Answers an operation. -/
def perform (s : Services) (a : Attempt) : (op : Operation) → Session (op.Answer × Attempt)
  | .list package recursive => do return (← a.view.list package recursive, a)
  | .listLocation location package recursive => do
    let (entries, view) ← a.view.listLocation location package recursive
    return (entries, { a with view })
  | .contains n => return (a.view.contains n, a)
  | .originOf n => return (a.view.originOf n, a)
  | .viewSize => return (a.view.size, a)
  | .systemModules => return (a.view.systemModules, a)
  | .moduleFor package => return (a.view.options.moduleFor package, a)
  | .patchLocations => return (a.view.options.patchLocations, a)
  | .inferName cell => do return (← a.view.inferName cell.name, a)
  | .describeView => return (a.view.description, a)
  | .openInput n => do
    traceCall s.logging (.openInput n)
    return (Cell.lazy n, a)
  | .read cell => do return (← cell.read s.provider s.logging, a)
  | .createOutput n => do
    traceCall s.logging (.createOutput n)
    return (a.outputs.length, { a with outputs := a.outputs ++ [Cell.output n] })
  | .write i bytes => return ((), a.write i bytes)
  | .outputCount => return (a.outputs.length, a)
  | .reportCritical text => do return (← VirtualClasspath.reportCritical s.logging text, a)
  | .describeOutputs => return (a.description, a)

end Attempt

/-- Answers all operations of a computation. -/
def Exchange.run {α : Type} (s : Services) : Exchange α → Attempt → Session (α × Attempt)
  | .done result, a => return (result, a)
  | .ask op next, a => do
    let (answer, a) ← a.perform s op
    (next answer).run s a

/-! ## Backends -/

/-- What a backend says at the end of an attempt. -/
structure Outcome where
  success : Bool
  diagnostics : List Diagnostic

/-- A compiler that works on a view. It may remember things from one attempt to the next. -/
structure Backend (σ : Type) where
  compile : σ → (sources : List SourceUnit) → (flags : List String) →
    Exchange (Except CompileError Outcome × σ)

end VirtualClasspath
