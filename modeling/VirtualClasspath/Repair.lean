import VirtualClasspath.Journal

/-!
# Repairing sources between attempts

After a failed attempt, each unit with issues is offered to a `Repairer`, which may change its text.
The compiler tries again as long as some text was changed: `RetryState` is the state machine of that
loop.

`afterAttempt` and `resume` are its transitions (section 4.6 of the specification), `repairSources`
is `postprocess_sources`, and a `Repairer` is what section 6 calls a postprocessor. Its answers may
depend on the offers before, and the name of the source that it answers with is not looked at.

Out of scope: how a repair is found, and a repairer that does not answer.
-/

namespace VirtualClasspath

/-! ## Attempts -/

/-- Where a compilation stands. -/
inductive RetryState
  | attempting
  | reattempting
  | succeeded
  | failed
  deriving DecidableEq

/-- How an attempt ended. -/
inductive AttemptResult
  | success
  | failure (sourcesChanged : Bool)
  deriving DecidableEq

namespace RetryState

/-- The name of a state. -/
def name : RetryState → String
  | attempting => "Attempting"
  | reattempting => "Reattempting"
  | succeeded => "Succeeded"
  | failed => "Failed"

/-- The state with a name. -/
def ofName? (s : String) : Option RetryState :=
  [attempting, reattempting, succeeded, failed].find? fun r => r.name = s

/-- Whether no attempt follows. -/
def isTerminal : RetryState → Bool
  | succeeded | failed => true
  | _ => false

/-- The state after an attempt. Only the state `attempting` looks at the result. -/
def afterAttempt : RetryState → AttemptResult → RetryState
  | attempting, .success => succeeded
  | attempting, .failure true => reattempting
  | attempting, .failure false => failed
  | state, _ => state

/-- The state in which the next attempt begins. -/
def resume : RetryState → RetryState
  | reattempting => attempting
  | state => state

end RetryState

/-! ## Repairs -/

/-- What became of a source that was offered. -/
structure Revision where
  changed : Bool
  source : SourceUnit
  deriving DecidableEq

/-- Changes sources that have issues. -/
structure Repairer where
  /-- The answer to an offer, after the offers before. -/
  revise : (past : Array Offer) → Offer → Revision

namespace Repairer

/-- Changes nothing. -/
def idle : Repairer := ⟨fun _ o => ⟨false, o.source⟩⟩

/-- A way to change a text: where `find` occurs in the text of the unit, it is replaced. -/
structure Rule where
  /-- The unit that the rule is for; `none` is every unit. -/
  unit : Option TypeName
  find : String
  replace : String
  deriving DecidableEq

/-- The text that a rule makes of a source, if it applies. -/
def Rule.apply? (r : Rule) (s : SourceUnit) : Option String :=
  if r.unit.all (· = s.name) then
    (Text.replaceFirst? r.find.toList r.replace.toList s.text.toList).map String.ofList
  else none

/-- Applies the first rule that can be applied, and gives the result under the name `name`. -/
def ofRules (name : TypeName) (rules : List Rule) : Repairer :=
  ⟨fun _ o =>
    match rules.findSome? fun r => r.apply? o.source with
    | some text => ⟨true, ⟨name, text⟩⟩
    | none => ⟨false, o.source⟩⟩

/-- Offers a source. -/
def offer (r : Repairer) (o : Offer) : Session Revision := fun j =>
  (r.revise j.offers o, { j with offers := j.offers.push o })

end Repairer

/-- A source was changed. -/
def changedMessage (unit : TypeName) : Message :=
  ⟨.info, "Source " ++ unit.text ++ " was modified by the postprocessor"⟩

/-- Offers the first of the sources that has the name `unit`, and puts the new text in its place.
The result says whether the text was changed. -/
def repairUnit (logging : LogSettings) (r : Repairer) (unit : TypeName) (issues : List Issue) :
    List SourceUnit → Session (Bool × List SourceUnit)
  | [] => return (false, [])
  | s :: rest =>
    if s.name = unit then do
      let revision ← r.offer ⟨s, issues⟩
      if revision.changed then
        report logging (changedMessage unit)
        return (true, { s with text := revision.source.text } :: rest)
      else
        return (false, s :: rest)
    else do
      let (changed, rest) ← repairUnit logging r unit issues rest
      return (changed, s :: rest)

/-- Offers the source of each unit that has issues, in the order of the units. The result says
whether any text was changed. -/
def repairSources (logging : LogSettings) (r : Repairer) :
    (issues : List (TypeName × List Issue)) → List SourceUnit → Session (Bool × List SourceUnit)
  | [], sources => return (false, sources)
  | (unit, issues) :: rest, sources => do
    let (changed, sources) ← repairUnit logging r unit issues sources
    let (changedLater, sources) ← repairSources logging r rest sources
    return (changed || changedLater, sources)

end VirtualClasspath
