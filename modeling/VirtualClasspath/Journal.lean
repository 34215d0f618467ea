import VirtualClasspath.Issue
import VirtualClasspath.Options
import VirtualClasspath.Text.Quoted

/-!
# What a compilation exchanges with its surroundings

A compiler asks a provider for classes, offers sources for repair, sends messages to its user and
traces the calls of its backend. A `Journal` keeps all of it in order. Code that exchanges something
runs in a `Session`, which carries the journal along; collaborators whose answers change in time see
the part of the journal that concerns them.

The settings decide which messages are sent (`report`) and whether calls are traced (`traceCall`).
-/

namespace VirtualClasspath

/-- A message to the user. -/
structure Message where
  category : Category
  text : String
  deriving DecidableEq

/-- Where a backend looks for types. -/
inductive Location
  | classPath
  /-- The system classes of a host without modules. -/
  | hostPlatformClassPath
  /-- The system modules of the host. -/
  | hostSystemModules
  deriving DecidableEq

/-- The name of a location. -/
def Location.name : Location → String
  | classPath => "ClassPath"
  | hostPlatformClassPath => "HostPlatformClassPath"
  | hostSystemModules => "HostSystemModules"

/-- The location with a name. -/
def Location.ofName? (s : String) : Option Location :=
  [classPath, hostPlatformClassPath, hostSystemModules].find? fun l => l.name = s

/-- A call that a backend makes. -/
inductive Call
  | list (package : String) (recursive : Bool)
  | listLocation (location : Location) (package : String) (recursive : Bool)
  | read (name : TypeName)
  | openInput (name : TypeName)
  | createOutput (name : TypeName)
  | inferName (name : TypeName)
  deriving DecidableEq

namespace Call

/-- The name of the operation. -/
def operation : Call → String
  | list .. => "list"
  | listLocation .. => "list_location"
  | read _ => "read"
  | openInput _ => "open_input"
  | createOutput _ => "create_output"
  | inferName _ => "infer_binary_name"

/-- The arguments as one text. -/
def arguments : Call → String
  | list package recursive =>
    "package=" ++ Text.quoted package ++ " recursive=" ++ toString recursive
  | listLocation location package recursive =>
    "location=" ++ location.name ++ " package=" ++ Text.quoted package ++ " recursive=" ++
      toString recursive
  | read name | openInput name | createOutput name | inferName name => name.text

end Call

/-- A source that is offered for repair, with the issues that its unit has. -/
structure Offer where
  source : SourceUnit
  issues : List Issue
  deriving DecidableEq

/-- What was exchanged so far, the oldest first. -/
structure Journal where
  /-- The names of each request for classes. -/
  requests : Array (List TypeName) := #[]
  offers : Array Offer := #[]
  messages : Array Message := #[]
  trace : Array Call := #[]
  deriving DecidableEq

/-- A computation that exchanges things with its surroundings. -/
abbrev Session := StateM Journal

/-- Sends a message if its category is wanted. -/
def report (s : LogSettings) (m : Message) : Session Unit := fun j =>
  ((), if s.enables m.category then { j with messages := j.messages.push m } else j)

/-- Notes a call of the backend if calls are traced. -/
def traceCall (s : LogSettings) (c : Call) : Session Unit := fun j =>
  ((), if s.tracing then { j with trace := j.trace.push c } else j)

/-- Sends messages, one after the other. -/
def reportAll (s : LogSettings) (ms : List Message) : Session Unit := ms.forM (report s)

end VirtualClasspath
