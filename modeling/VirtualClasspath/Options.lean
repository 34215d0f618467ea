import VirtualClasspath.Category
import VirtualClasspath.Sorted.Map

/-!
# Options of a compiler

`Options` hold for the lifetime of a compiler. Among the flags for the backend, those that patch a
module are not passed on: `Options.withBackendFlags` and `Options.normalized` move them into the map
from packages to modules.

`withBackendFlags`, `normalized`, `moduleFor` and `patchLocations` are `with_backend_flags`,
`normalized`, `module_for_package` and `patch_module_locations`, and `LogSettings.enables` is
`enables` (sections 3, 4.4 and 10.3 of the specification). Out of scope: how options are written to a
text.
-/

namespace VirtualClasspath

/-- Which messages are wanted, and whether the calls of the backend are traced. -/
structure LogSettings where
  categories : SortedSet Category := .ofList Category.defaults
  tracing : Bool := false
  deriving DecidableEq

namespace LogSettings

/-- No messages, no trace. -/
def silent : LogSettings := ⟨∅, false⟩

/-- All messages and a trace. -/
def verbose : LogSettings := ⟨.ofList Category.all, true⟩

/-- Whether messages of the category are wanted. -/
def enables (s : LogSettings) (c : Category) : Bool := s.categories.contains c

theorem verbose_enables (c : Category) : verbose.enables c = true :=
  SortedSet.contains_iff.mpr (SortedSet.mem_ofList.mpr c.mem_all)

end LogSettings

/-- What is wrong with a flag that patches a module. -/
inductive OptionsError
  | missingValue
  | malformed (value : String)
  deriving DecidableEq

/-- The wording of an error. -/
def OptionsError.message : OptionsError → String
  | missingValue =>
    "`--patch-module` requires a value of the form <module>=<package>[:<package>...]"
  | malformed value => "malformed `--patch-module` value: " ++ value

/-- The options of a compiler. -/
structure Options where
  /-- Serve the host's own system types instead of asking the provider for them. -/
  useHostSystemTypes : Bool := true
  /-- Keep the host's root of the class hierarchy even when the other types of the host are
  replaced. -/
  useHostRootType : Bool := true
  /-- Flags for the backend. -/
  backendFlags : List String := []
  /-- The module that each patched package belongs to. -/
  patchMap : SortedMap String String := ∅
  logging : LogSettings := {}
  deriving DecidableEq

namespace Options

/-- The flag that patches a module. -/
def patchFlag : String := "--patch-module"

/-- The packages of a value, each with the module: `module=package:package`. -/
def parsePatch (value : String) : Except OptionsError (SortedMap String String) :=
  match Text.cutFirst '=' value.toList with
  | none => .error (.malformed value)
  | some (module, packages) =>
    let module := Text.trimChars module
    let packages := (Text.pieces ':' packages).map Text.trimChars
    if module.isEmpty || packages.any (·.isEmpty) then .error (.malformed value)
    else .ok (.ofList (packages.map fun p => (String.ofList p, String.ofList module)))

/-- The flags that do not patch a module, and what the last one that does says. -/
def splitFlags : List String → SortedMap String String →
    Except OptionsError (List String × SortedMap String String)
  | [], map => .ok ([], map)
  | flag :: rest, map =>
    if flag = patchFlag then
      match rest with
      | [] => .error .missingValue
      | value :: rest => do splitFlags rest (← parsePatch value)
    else
      match Text.stripBeginning? (patchFlag ++ "=") flag with
      | some value => do splitFlags rest (← parsePatch value)
      | none => do
        let (flags, map) ← splitFlags rest map
        return (flag :: flags, map)

/-- The options with these flags for the backend. A flag that patches a module replaces the map. -/
def withBackendFlags (o : Options) (flags : List String) : Except OptionsError Options := do
  let (backendFlags, patchMap) ← splitFlags flags o.patchMap
  return { o with backendFlags, patchMap }

/-- The options without flags that patch a module: what they say goes into the map, and a package
that they do not name stays where it was. -/
def normalized (o : Options) : Except OptionsError Options := do
  let p ← o.withBackendFlags o.backendFlags
  return { p with patchMap := o.patchMap.toList.foldl (fun m e => m.insertNew e.1 e.2) p.patchMap }

/-- The module that a package is patched into. -/
def moduleFor (o : Options) (package : String) : Option String := o.patchMap.find? package

/-- The patched packages of each module. -/
def patchLocations (o : Options) : SortedMap String (List String) :=
  o.patchMap.toList.foldl (fun m e => m.upsert e.2 fun ps => ps.getD [] ++ [e.1]) ∅

end Options

end VirtualClasspath
