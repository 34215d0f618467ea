import VirtualClasspath.ClassFile.Mention
import VirtualClasspath.Closure.Set
import VirtualClasspath.CompileError

/-!
# The closure of a compilation

Before a backend starts, it is told which types there are: the closure of the sources under what
their old class files refer to. It grows in three phases, each of which only adds names:

* `nestGroupPhase`: the nest groups of the sources that have a class already;
* `directReferencePhase`: what the classes in the closure refer to;
* `outerChainPhase`: the classes around those references, outward.

`finish` takes the sources' own classes out again. A class that cannot be read costs only what it
would have added: the phase notes that it was skipped and goes on.

These are the phases of section 4.3 of the specification, with `add` and `skip`, which they share;
`compute` is `compute_closure`. `walk` is the loop of the third phase. It ends because the provider
supplies finitely many names, which is the one thing that is asked of a provider here: it may change
its answers from one request to the next, and what the walk finds then depends on when it asks.

Out of scope: events for a log, which are sent next to the messages.
-/

namespace VirtualClasspath

namespace Closure

/-- How a name came into the closure. -/
inductive Phase
  | nestGroup
  | directReference
  | outerChain
  deriving DecidableEq

/-- What messages call a phase. -/
def Phase.text : Phase → String
  | nestGroup => "nested group"
  | directReference => "direct import"
  | outerChain => "enclosing class of direct import"

/-- How many names each phase has added. -/
structure Tally where
  nestGroup : Nat := 0
  directReference : Nat := 0
  outerChain : Nat := 0
  deriving DecidableEq

namespace Tally

/-- The number of names of one phase. -/
def count (t : Tally) : Phase → Nat
  | .nestGroup => t.nestGroup
  | .directReference => t.directReference
  | .outerChain => t.outerChain

/-- The number of names of all phases. -/
def total (t : Tally) : Nat := t.nestGroup + t.directReference + t.outerChain

/-- One more name of a phase. -/
def bump (t : Tally) : Phase → Tally
  | .nestGroup => { t with nestGroup := t.nestGroup + 1 }
  | .directReference => { t with directReference := t.directReference + 1 }
  | .outerChain => { t with outerChain := t.outerChain + 1 }

end Tally

/-- Where a closure comes from. -/
structure Setting where
  provider : Provider
  logging : LogSettings
  /-- The names that the backend always has, and that are not asked for on the way outward. -/
  alwaysAvailable : SortedSet TypeName

/-- The names that every backend has. -/
def defaultAvailable : SortedSet TypeName := .ofList [TypeName.rootObject]

/-- A closure that is being built. -/
structure Draft where
  closure : ClosureSet := ∅
  /-- The names that the second phase has added. -/
  referenced : SortedSet TypeName := ∅
  /-- The sources of the first phase, each once. -/
  sources : List TypeName := []
  added : Tally := {}
  /-- How often a class could not be read. -/
  skipped : Nat := 0

/-- A name was added. -/
def addedMessage (phase : Phase) (n : TypeName) : Message :=
  ⟨.extractionDetailed, "Adding class to classpath listing (" ++ phase.text ++ "): " ++ n.text⟩

/-- A class was not used. -/
def skippedMessage (n : TypeName) (e : CompileError) : Message :=
  ⟨.extractionDetailed, "Skipping dependency " ++ n.text ++ ": " ++ e.message⟩

/-- The totals of a closure of `size` names. -/
def summaryMessage (size : Nat) (added : Tally) (skipped : Nat) : Message :=
  ⟨.extractionSummary, "Found " ++ toString size ++ " type names in the bytecode (" ++
    toString added.nestGroup ++ " from nested groups, " ++ toString added.directReference ++
    " direct imports, " ++ toString added.outerChain ++ " enclosing classes, " ++
    toString skipped ++ " skipped)"⟩

/-- The names of a closure. -/
def namesMessage (c : ClosureSet) : Message :=
  ⟨.availableTypeNames, "Type names found in the bytecode: " ++
    Text.quotedList (c.toList.map (·.text))⟩

namespace Draft

/-! ## Steps -/

/-- Adds a name, unless it is a member already or not admissible. -/
def add (logging : LogSettings) (phase : Phase) (d : Draft) (n : TypeName) : Session Draft :=
  if d.closure.admits n then do
    report logging (addedMessage phase n)
    return { d with closure := d.closure.insert n, added := d.added.bump phase }
  else
    return d

/-- Notes that a class was not used. -/
def skip (logging : LogSettings) (d : Draft) (n : TypeName) (e : CompileError) : Session Draft := do
  report logging (skippedMessage n e)
  return { d with skipped := d.skipped + 1 }

/-! ## The phases -/

/-- Adds the nest group of a class of the source `source`. -/
def addNestGroup (s : Setting) (source : TypeName) (d : Draft) (b : Blob) : Session Draft := do
  match ← Nest.groupOf s.provider b with
  | .ok group => group.toList.foldlM (add s.logging .nestGroup) d
  | .error e => d.skip s.logging source (.ofNest e)

/-- The draft that knows of one more source. -/
def withSource (d : Draft) (source : TypeName) : Draft :=
  if source ∈ d.sources then d else { d with sources := d.sources ++ [source] }

/-- Adds the nest groups of the classes that a source has already. -/
def addSource (s : Setting) (d : Draft) (source : SourceUnit) : Session Draft := do
  let blobs ← s.provider.fetch source.name
  blobs.foldlM (addNestGroup s source.name) (d.withSource source.name)

/-- Adds the nest groups of all sources that have a class already. -/
def nestGroupPhase (s : Setting) (sources : List SourceUnit) (d : Draft) : Session Draft :=
  sources.foldlM (addSource s) d

/-- Adds a name that a class refers to. -/
def addReference (logging : LogSettings) (d : Draft) (n : TypeName) : Session Draft := do
  let e ← d.add logging .directReference n
  return if d.closure.admits n then { e with referenced := e.referenced.insert n } else e

/-- Adds what a class refers to. -/
def addReferences (s : Setting) (d : Draft) (b : Blob) : Session Draft :=
  match ClassFile.referencesOf b.bytes with
  | .ok names => names.toList.foldlM (addReference s.logging) d
  | .error fault => d.skip s.logging b.name (.malformedBytecode b.name fault)

/-- Adds what the classes in the closure refer to. They are asked for all at once. -/
def directReferencePhase (s : Setting) (d : Draft) : Session Draft :=
  if d.closure.isEmpty then
    return d
  else do
    let blobs ← s.provider.ask d.closure.toList
    blobs.foldlM (addReferences s) d

/-- Adds the class around a class of the name `n`, and has it walked from in turn. -/
def addOuter (s : Setting) (n : TypeName) (state : Draft × SortedSet TypeName) (b : Blob) :
    Session (Draft × SortedSet TypeName) :=
  match ClassFile.parse b.bytes with
  | .ok c =>
    match c.outerOf with
    | some outer => do
      let d ← state.1.add s.logging .outerChain outer
      return (d, state.2.insert outer)
    | none => return state
  | .error fault => do
    let d ← state.1.skip s.logging n (.malformedBytecode n fault)
    return (d, state.2)

/-- The names of `l` that were not walked from. -/
def unwalked (walked : SortedSet TypeName) (l : List TypeName) : List TypeName :=
  l.filter fun n => n ∉ walked

theorem unwalked_insert_le (walked : SortedSet TypeName) (n : TypeName) (l : List TypeName) :
    (unwalked (walked.insert n) l).length ≤ (unwalked walked l).length :=
  length_filter_le_of_imp fun _ hx => decide_eq_true fun h =>
    of_decide_eq_true hx (SortedSet.mem_insert.mpr (Or.inr h))

theorem unwalked_insert_lt {walked : SortedSet TypeName} {n : TypeName} {l : List TypeName}
    (hl : n ∈ l) (hn : n ∉ walked) :
    (unwalked (walked.insert n) l).length < (unwalked walked l).length :=
  length_filter_lt_of_imp (fun _ hx => decide_eq_true fun h =>
      of_decide_eq_true hx (SortedSet.mem_insert.mpr (Or.inr h)))
    hl (decide_eq_false fun h => h (SortedSet.mem_insert.mpr (Or.inl rfl))) (decide_eq_true hn)

/-- Walks outward from the names in `pending`, the largest first, and from each name once. -/
def walk (s : Setting) (d : Draft) (pending walked : SortedSet TypeName) (j : Journal) :
    Draft × Journal :=
  match _hp : pending.max? with
  | none => (d, j)
  | some n =>
    if _hw : n ∈ walked then walk s d (pending.erase n) walked j
    else if n ∈ s.alwaysAvailable then walk s d (pending.erase n) (walked.insert n) j
    else
      match _hf : s.provider.fetch n j with
      | ([], j₁) => walk s d (pending.erase n) (walked.insert n) j₁
      | (b :: bs, j₁) =>
        match (b :: bs).foldlM (addOuter s n) (d, pending.erase n) j₁ with
        | ((d, pending), j₂) => walk s d pending (walked.insert n) j₂
termination_by ((unwalked walked s.provider.supply).length, pending.size)
decreasing_by
  · exact Prod.Lex.right _ (SortedSet.size_erase_lt (SortedSet.mem_of_max?_eq_some _hp))
  · rcases Nat.lt_or_eq_of_le (unwalked_insert_le walked n s.provider.supply) with hlt | heq
    · exact Prod.Lex.left _ _ hlt
    · rw [heq]
      exact Prod.Lex.right _ (SortedSet.size_erase_lt (SortedSet.mem_of_max?_eq_some _hp))
  · rcases Nat.lt_or_eq_of_le (unwalked_insert_le walked n s.provider.supply) with hlt | heq
    · exact Prod.Lex.left _ _ hlt
    · rw [heq]
      exact Prod.Lex.right _ (SortedSet.size_erase_lt (SortedSet.mem_of_max?_eq_some _hp))
  · refine Prod.Lex.left _ _ (unwalked_insert_lt ?_ _hw)
    refine Provider.mem_supply_of_fetch (j := j) (b := b) ?_
    rw [_hf]
    exact List.mem_cons_self

/-- Adds the classes around the references that the second phase has found. -/
def outerChainPhase (s : Setting) (d : Draft) : Session Draft := walk s d d.referenced ∅

/-! ## The result -/

/-- Whether compiling the sources writes a class of that name. -/
def isOutput (d : Draft) (n : TypeName) : Bool := d.sources.any fun s => n.isOutputOf s

/-- The closure without the sources' own classes. -/
def result (d : Draft) : ClosureSet := d.closure.filter fun n => !d.isOutput n

/-- Reports the totals and gives the result. -/
def finish (logging : LogSettings) (d : Draft) : Session ClosureSet := do
  let c := d.result
  report logging (summaryMessage c.size d.added d.skipped)
  report logging (namesMessage c)
  return c

end Draft

/-- The closure of the sources. -/
def compute (s : Setting) (sources : List SourceUnit) : Session ClosureSet := do
  let d ← Draft.nestGroupPhase s sources {}
  let d ← d.directReferencePhase s
  let d ← d.outerChainPhase s
  d.finish s.logging

end Closure

end VirtualClasspath
