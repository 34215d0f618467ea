import VirtualClasspath.Closure.Set
import VirtualClasspath.Host
import VirtualClasspath.Journal

/-!
# The class path that a backend sees

A `View` holds the names of the closure and of the provider's listing, each with its origin, and
lists them by package. Next to the class path, a backend can look at the system types of the host.
Either the host serves them itself, or they are served like the names of the class path: then the
root of the class hierarchy may still come from the host.

`make` is what makes a view, and `list`, `listLocation`, `contains`, `originOf`, `systemModules` and
`inferName` are `list`, `list_location`, `contains`, `origin_of`, `system_module_locations` and
`infer_binary_name` of section 4.4 of the specification; `scan` is the range scan of its listing.

Out of scope: a listing or a host that changes. The provider's listing is read once, when the view is
made, and the types, resources and modules of a host are the same whenever it is asked.
-/

namespace VirtualClasspath

/-- Who has the bytes of a listed type. -/
inductive Origin
  | provider
  | host
  deriving DecidableEq

/-- The name of an origin. -/
def Origin.name : Origin → String
  | provider => "Provider"
  | host => "Host"

/-- A listed type. -/
structure Entry where
  name : TypeName
  origin : Origin
  deriving DecidableEq

/-- How a listed type is shown. -/
def Entry.text (e : Entry) : String :=
  match e.origin with
  | .provider => e.name.text
  | .host => e.name.text ++ " (host)"

/-- The class path of a compilation. -/
structure View where
  entries : SortedMap TypeName Origin
  host : Host
  options : Options

namespace View

/-! ## Messages -/

/-- A listed text is an array type. -/
def ignoredArrayMessage (n : TypeName) : Message :=
  ⟨.ignoringNonTypes, "Ignoring array type from classpath listing: " ++ n.text⟩

/-- A listed text is the name of a hidden class. -/
def ignoredHiddenMessage (n : TypeName) : Message :=
  ⟨.ignoringNonTypes, "Ignoring lambda type from classpath listing: " ++ n.text⟩

/-- All names of a view. -/
def namesMessage (names : List TypeName) : Message :=
  ⟨.availableTypeNames, "All available type names: " ++ Text.quotedList (names.map (·.text))⟩

/-- A class is shown. -/
def exposedMessage (n : TypeName) : Message :=
  ⟨.exposingClass, "Exposing class to the compiler: \"" ++ n.text ++ "\""⟩

/-- A class is not shown, because it lies in a subpackage. For the unnamed package, all packages
are. -/
def passedMessage (package : String) (n : TypeName) : Message :=
  ⟨.skippingSubpackage, "Skipping over class from a " ++
    (if package = "" then "package" else "subpackage") ++ ": \"" ++ n.text ++ "\""⟩

/-- An object of the host is no class. -/
def resourceMessage (resource : String) : Message :=
  ⟨.skippingNonClass, "Skipping non-class object: \"" ++ resource ++ "\""⟩

/-! ## Making a view -/

/-- What is reported about a listed text: nothing if it may be a class name. -/
def listingMessages (n : TypeName) : List Message :=
  if n.isArray then [ignoredArrayMessage n]
  else if n.hasSeparator then [ignoredHiddenMessage n]
  else []

/-- The entries of the closure and of the admissible listed names. -/
def initialEntries (closure : ClosureSet) (listing : List TypeName) :
    SortedMap TypeName Origin :=
  (closure.toList ++ listing.filter TypeName.isAdmissible).foldl
    (fun m n => m.insertNew n .provider) ∅

/-- The class path of a closure and a provider's listing. -/
def make (closure : ClosureSet) (listing : List String) (host : Host) (options : Options) :
    Session View := do
  let names := listing.map TypeName.mk
  reportAll options.logging (names.flatMap listingMessages)
  let entries := initialEntries closure names
  report options.logging (namesMessage entries.keys)
  return { entries, host, options }

/-! ## Looking at a view -/

/-- The number of entries. -/
def size (v : View) : Nat := v.entries.size

/-- Whether there is no entry. -/
def isEmpty (v : View) : Bool := v.entries.isEmpty

/-- Whether there is an entry for `n`. -/
def contains (v : View) (n : TypeName) : Bool := v.entries.contains n

/-- The origin of the entry for `n`. -/
def originOf (v : View) (n : TypeName) : Option Origin := v.entries.find? n

/-- Goes through entries as long as their names begin with `pre`, and takes those in `package` or
below. -/
def scan (logging : LogSettings) (package pre : String) (recursive : Bool) :
    List (TypeName × Origin) → Session (List Entry)
  | [] => return []
  | (n, origin) :: rest =>
    match Text.stripBeginning? pre n.text with
    | none => return []
    | some tail =>
      if !recursive && Text.hasChar '.' tail then do
        report logging (passedMessage package n)
        scan logging package pre recursive rest
      else do
        report logging (exposedMessage n)
        return ⟨n, origin⟩ :: (← scan logging package pre recursive rest)

/-- What the names in `package` and below it begin with. -/
def packageBeginning (package : String) : String := if package = "" then "" else package ++ "."

/-- The entries in `package`, or also below it: a scan from the first name that can be there to the
first that cannot. -/
def select (v : View) (package : String) (recursive : Bool) : Session (List Entry) :=
  let pre := packageBeginning package
  scan v.options.logging package pre recursive (v.entries.listFrom ⟨pre⟩)

/-- The names in `package`, or also below it. -/
def list (v : View) (package : String) (recursive : Bool) : Session (List TypeName) := do
  traceCall v.options.logging (.list package recursive)
  return (← v.select package recursive).map (·.name)

/-! ## Types of the host -/

/-- The host's types in a package, or also below it. -/
def hostTypes (v : View) (package : String) (recursive : Bool) : Session (List TypeName) := do
  reportAll v.options.logging ((v.host.resources package recursive).map resourceMessage)
  return v.host.types package recursive

/-- The origin of a type that the host has, when it does not serve its types itself. -/
def hostOrigin (o : Options) (n : TypeName) : Origin :=
  if n = TypeName.rootObject && o.useHostRootType then .host else .provider

/-- The entries of a map. -/
def entriesOf (m : SortedMap TypeName Origin) : List Entry := m.toList.map fun e => ⟨e.1, e.2⟩

/-- The view that has taken over types of the host. -/
def absorb (v : View) (names : List TypeName) : View :=
  { v with entries := names.foldl (fun m n => m.insert n (hostOrigin v.options n)) v.entries }

/-- Entries together with types of the host that are not among them. -/
def merge (o : Options) (selected : List Entry) (names : List TypeName) : List Entry :=
  let own : SortedMap TypeName Origin := .ofList (selected.map fun e => (e.name, e.origin))
  entriesOf (names.foldl (fun m n => m.insertNew n (hostOrigin o n)) own)

/-- What is in a package of a location. When the host does not serve its types, asking for those of
a platform without modules makes them entries, to be listed under the class path. -/
def listLocation (v : View) (location : Location) (package : String) (recursive : Bool) :
    Session (List Entry × View) := do
  traceCall v.options.logging (.listLocation location package recursive)
  match location with
  | .classPath => return (← v.select package recursive, v)
  | .hostPlatformClassPath =>
    let names ← v.hostTypes package recursive
    if v.options.useHostSystemTypes then return (names.map (⟨·, .host⟩), v)
    else return ([], v.absorb names)
  | .hostSystemModules =>
    if v.options.useHostSystemTypes then
      return ((← v.hostTypes package recursive).map (⟨·, .host⟩), v)
    else
      let selected ← v.select package recursive
      let names ← v.hostTypes package recursive
      return (merge v.options selected names, v)

/-! ## Modules -/

/-- The modules of the host that a backend sees. -/
def systemModules (v : View) : List String :=
  if v.options.useHostSystemTypes then v.host.modules
  else v.host.modules.filter (· = baseModule)

/-- The view in one line. -/
def description (v : View) : String :=
  "ClasspathView \x7b entries: " ++ toString v.size ++ ", use_host_system_types: " ++
    toString v.options.useHostSystemTypes ++ ", .. \x7d"

/-- The name of the class that a cell stands for. -/
def inferName (v : View) (n : TypeName) : Session TypeName := do
  traceCall v.options.logging (.inferName n)
  return n

end View

end VirtualClasspath
