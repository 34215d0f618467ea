import VirtualClasspath.Closure.Draft
import VirtualClasspath.Compiler
import VirtualClasspath.CompileError
import VirtualClasspath.Toml.Document

/-!
# Configurations

A `Configuration` is what a user writes into a TOML file: the options of a compiler, and the names
that its backend always has. Keys that mean nothing are passed over, and a key that is missing has
its default; flags that patch a module are moved into the map of the options.

`parse`, `load` and `compiler` are `from_toml_str`, `load` and `into_compiler` (section 10.3 of the
specification). `load` is given the bytes of a file, or nothing if there is none. Out of scope: a
sequence that stands for a table with named entries, which the library would take as well.
-/

namespace VirtualClasspath

/-- The configuration of a compiler. -/
structure Configuration where
  options : Options := {}
  alwaysAvailable : SortedSet TypeName := Closure.defaultAvailable
  deriving DecidableEq

namespace Configuration

open Toml (Value Entries)

/-! ## Reading values -/

/-- The value of a key, read by `read`, or a default if the key is missing. -/
def field? {α : Type} (entries : Entries) (key : String) (read : Value → Option α) (default : α) :
    Option α :=
  match entries.lookup key with
  | some v => read v
  | none => some default

/-- A truth value. -/
def boolean? : Value → Option Bool
  | .boolean b => some b
  | _ => none

/-- A text. -/
def text? : Value → Option String
  | .string s => some s
  | _ => none

/-- A list of things. -/
def list? {α : Type} (read : Value → Option α) : Value → Option (List α)
  | .array vs => vs.mapM read
  | _ => none

/-- A table, in whatever way it is written. -/
def table? : Value → Option Entries
  | .inlineTable entries => some entries
  | .table _ entries => some entries
  | _ => none

/-! ## Reading a configuration -/

/-- The category of a name. -/
def category? (v : Value) : Option Category := do Category.ofName? (← text? v)

/-- The settings of the messages. -/
def logging? (v : Value) : Option LogSettings := do
  let entries ← table? v
  let categories ← field? entries "categories" (list? category?) Category.defaults
  let tracing ← field? entries "tracing" boolean? false
  return { categories := .ofList categories, tracing }

/-- The module of each patched package. -/
def patchMap? (v : Value) : Option (SortedMap String String) := do
  let pairs ← (← table? v).mapM fun (package, module) => do return (package, ← text? module)
  return .ofList pairs

/-- The names that the backend always has. -/
def available? (v : Value) : Option (SortedSet TypeName) := do
  let names ← field? (← table? v) "always_available" (list? text?) [TypeName.rootObject.text]
  return .ofList (names.map TypeName.mk)

/-- The configuration that a table writes. -/
def ofEntries? (entries : Entries) : Option Configuration := do
  let useHostSystemTypes ← field? entries "use_host_system_types" boolean? true
  let useHostRootType ← field? entries "use_host_root_object_type" boolean? true
  let backendFlags ← field? entries "backend_flags" (list? text?) []
  let patchMap ← field? entries "module_patch_map" patchMap? ∅
  let logging ← field? entries "logging" logging? {}
  let alwaysAvailable ← field? entries "closure" available? Closure.defaultAvailable
  let options := { useHostSystemTypes, useHostRootType, backendFlags, patchMap, logging }
  return { options, alwaysAvailable }

/-- The configuration with the flags that patch a module in their place. -/
def normalized (c : Configuration) : Except ConfigurationError Configuration :=
  match c.options.normalized with
  | .ok options => .ok { c with options }
  | .error e => .error (.options e)

/-- The configuration that a text writes. -/
def parse (s : String) : Except ConfigurationError Configuration :=
  match Toml.parse? s >>= ofEntries? with
  | some c => c.normalized
  | none => .error .malformed

/-- The configuration in a file with the given bytes, if there is a file. -/
def load (bytes : Option Bytes) : Except ConfigurationError Configuration :=
  match bytes.bind fun bytes => String.fromUTF8? ⟨bytes.toArray⟩ with
  | some s => parse s
  | none => .error .unreadable

/-- A compiler with this configuration. -/
def compiler (c : Configuration) : Compiler :=
  { options := c.options, alwaysAvailable := c.alwaysAvailable }

end Configuration

end VirtualClasspath
