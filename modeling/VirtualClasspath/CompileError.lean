import VirtualClasspath.ClassFile.Nesting
import VirtualClasspath.Issue
import VirtualClasspath.Options

/-!
# Errors of a compilation

A `CompileError` is the reason why a compilation, or a step of it, gives no result, and `message` is
its wording (section 7 of the specification). `ofNest` makes one of a failure to find a nest group,
and a `ConfigurationError` is one as well.

Out of scope: what the system says about a file that it does not read, and what the library for TOML
says about a text that is none. A configuration error has only the words that stand around theirs.
-/

namespace VirtualClasspath

/-- Why a configuration is not accepted. -/
inductive ConfigurationError
  /-- The file cannot be read as text. -/
  | unreadable
  /-- The text is no TOML, or a value in it has the wrong form. -/
  | malformed
  | options (e : OptionsError)
  deriving DecidableEq

/-- The wording of an error, without the words of the system or of the TOML reader. -/
def ConfigurationError.message : ConfigurationError → String
  | unreadable => "failed to read configuration"
  | malformed => "invalid configuration"
  | options e => e.message

/-- Why a compilation, or a step of it, gives no result. -/
inductive CompileError
  | malformedBytecode (name : TypeName) (fault : ClassFile.Fault)
  | missingBytecode (name : TypeName)
  /-- The provider has no class of that name. -/
  | unresolvable (name : TypeName)
  /-- The provider has several classes of that name. -/
  | ambiguous (name : TypeName) (count : Nat)
  /-- The sources have errors. -/
  | failed (issues : List Issue)
  /-- The backend broke down. -/
  | backend (text : String)
  | configuration (e : ConfigurationError)
  deriving DecidableEq

namespace CompileError

/-- A failure to find a nest group, as an error of the compilation. -/
def ofNest : Nest.Error → CompileError
  | .missing name => missingBytecode name
  | .malformed name fault => malformedBytecode name fault

/-- The issues of the sources, if they are the reason. -/
def issues : CompileError → List Issue
  | failed issues => issues
  | _ => []

/-- Issues, each on a line of its own. -/
def renderIssues : List Issue → String
  | [] => " no diagnostics reported"
  | issues => String.join (issues.map fun i => "\n  " ++ i.text)

/-- The wording of an error. -/
def message : CompileError → String
  | malformedBytecode name fault => (Nest.Error.malformed name fault).message
  | missingBytecode name => (Nest.Error.missing name).message
  | unresolvable name => "classes provider could not resolve " ++ name.text
  | ambiguous name count =>
    "classes provider returned " ++ toString count ++ " classes for " ++ name.text
  | failed issues => "compilation failed:" ++ renderIssues issues
  | backend text => "compiler backend failure: " ++ text
  | configuration e => e.message

end CompileError

end VirtualClasspath
