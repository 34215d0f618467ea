import VirtualClasspath.Backend
import VirtualClasspath.Closure.Draft
import VirtualClasspath.Repair

/-!
# Compiling without a class path

`Compiler.compile` computes the closure of the sources, shows it to the backend as a view, and tries
again with repaired sources until the backend succeeds or no source changes any more. Nothing bounds
the number of attempts but the repairer, so the function takes the number of attempts after which
the caller stops waiting; `none` says that the compilation was not over by then.

`attempt` is the loop of section 4.6 of the specification, and `compile` and `run` are the functions
of these names; `diagnosticMessage` is what `forward_diagnostics` sends.

Out of scope: events for a log, and a compilation that is cut off from outside. A collaborator may
depend on what was asked of it before, and the backend on a state of its own.
-/

namespace VirtualClasspath

/-- A compiler. Between compilations, it holds only its parts and the number of attempts that the
last one took. -/
structure Compiler where
  options : Options := {}
  alwaysAvailable : SortedSet TypeName := Closure.defaultAvailable
  host : Host := Host.none
  repairer : Repairer := Repairer.idle
  /-- The closure of the compilation in progress. -/
  closure : ClosureSet := ∅
  /-- The sources of the compilation in progress. -/
  sources : List SourceUnit := []
  lastAttempts : Nat := 0

namespace Compiler

variable {σ : Type}

/-! ## Messages -/

/-- A compilation begins. -/
def startMessage (sources : List SourceUnit) : Message :=
  ⟨.info, "Starting a compilation task of sources: " ++
    Text.quotedList (sources.map (·.name.text))⟩

/-- A class was written. -/
def resultMessage (b : Blob) : Message := ⟨.info, "Compilation result: " ++ b.name.text⟩

/-- The message about a diagnostic. -/
def diagnosticMessage (d : Diagnostic) : Message := ⟨d.category, d.text⟩

/-! ## Attempts -/

/-- What a compilation ends with: its result, the state of the backend, the compiler. -/
abbrev Ending (σ : Type) := Except CompileError (List Blob) × σ × Compiler

/-- Lets the backend compile the sources, at most `limit` times. -/
def attempt (p : Provider) (b : Backend σ) :
    (limit : Nat) → Compiler → σ → View → Session (Option (Ending σ))
  | 0, _, _, _ => return none
  | limit + 1, c, state, view => do
    let logging := c.options.logging
    let c := { c with lastAttempts := c.lastAttempts + 1 }
    let ((answer, state), a) ←
      (b.compile state c.sources c.options.backendFlags).run ⟨p, logging⟩ ⟨view, []⟩
    match answer with
    | .error e => return some (.error e, state, c)
    | .ok outcome => do
      reportAll logging (outcome.diagnostics.map diagnosticMessage)
      if outcome.success then
        match ← Cell.toBlobs p logging a.outputs with
        | .error e => return some (.error e, state, c)
        | .ok blobs => do
          reportAll logging (blobs.map resultMessage)
          return some (.ok blobs, state, c)
      else
        let issues := outcome.diagnostics.filterMap Diagnostic.toIssue?
        let (changed, sources) ←
          repairSources logging c.repairer (Issue.groupByUnit issues).toList c.sources
        let c := { c with sources }
        match RetryState.attempting.afterAttempt (.failure changed) with
        | .reattempting => attempt p b limit c state a.view
        | _ => return some (.error (.failed issues), state, c)

/-! ## Compilations -/

/-- Where the closure of a compilation comes from. -/
def setting (c : Compiler) (p : Provider) : Closure.Setting :=
  ⟨p, c.options.logging, c.alwaysAvailable⟩

/-- A compilation up to its end, with what it leaves in the compiler. -/
def run (c : Compiler) (limit : Nat) (sources : List SourceUnit) (p : Provider) (b : Backend σ)
    (state : σ) : Session (Option (Ending σ)) := do
  report c.options.logging (startMessage sources)
  let closure ← Closure.compute (c.setting p) sources
  let c := { c with sources, closure, lastAttempts := 0 }
  let view ← View.make closure p.listing c.host c.options
  attempt p b limit c state view

/-- The compiler without what belongs to a compilation in progress. -/
def reset (c : Compiler) : Compiler := { c with closure := ∅, sources := [] }

/-- Compiles sources: the classes that the backend writes, or the reason why there are none. -/
def compile (c : Compiler) (limit : Nat) (sources : List SourceUnit) (p : Provider) (b : Backend σ)
    (state : σ) : Session (Option (Ending σ)) := do
  let ending ← c.run limit sources p b state
  return ending.map fun (result, state, c) => (result, state, c.reset)

end Compiler

end VirtualClasspath
