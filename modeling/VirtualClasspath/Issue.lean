import VirtualClasspath.Category
import VirtualClasspath.Sorted.Map
import VirtualClasspath.TypeName

/-!
# Compilation units and what is wrong with them

A `SourceUnit` is the text of one compilation unit. A `Diagnostic` is what a backend reports; an
`Issue` is a diagnostic that is attributed to a unit, and so can be offered to whoever may repair the
source of that unit. `Diagnostic.toIssue?_eq_some_iff` says which diagnostics become issues, and
`Issue.groupByUnit` is `group_by_unit` (section 3 of the specification).
-/

namespace VirtualClasspath

/-- The source text of one compilation unit. -/
structure SourceUnit where
  name : TypeName
  text : String
  deriving DecidableEq

/-- The name of the file that a compiler expects the unit in. -/
def SourceUnit.fileName (s : SourceUnit) : String := s.name.internal ++ ".java"

/-- How bad a diagnostic is. -/
inductive Severity
  | error
  | warning
  | note
  deriving DecidableEq

namespace Severity

/-- The name of a severity. -/
def name : Severity → String
  | error => "error"
  | warning => "warning"
  | note => "note"

/-- What a code says about the severity; without a code it is an error. -/
def ofCode : Option String → Severity
  | none => error
  | some code =>
    if Text.beginsWith "compiler.warn" code then warning
    else if Text.beginsWith "compiler.note" code then note
    else error

/-- The category of the messages about diagnostics of a severity. -/
def category : Severity → Category
  | error => .diagnostics
  | warning => .warnings
  | note => .notes

end Severity

/-- A diagnostic of a compilation unit. -/
structure Issue where
  unit : TypeName
  line : UInt64
  column : UInt64
  code : Option String
  message : String
  deriving DecidableEq

namespace Issue

/-- How bad the issue is. -/
def severity (i : Issue) : Severity := .ofCode i.code

/-- The issue in one line. -/
def text (i : Issue) : String :=
  let place := i.unit.text ++ ":" ++ toString i.line.toNat ++ ":" ++ toString i.column.toNat
  let code := match i.code with
    | some code => " (code: " ++ code ++ ")"
    | none => ""
  place ++ ": " ++ i.message ++ code

/-- The issues of each unit, in the order in which they were reported. -/
def groupByUnit (issues : List Issue) : SortedMap TypeName (List Issue) :=
  issues.foldl (fun m i => m.upsert i.unit fun l => l.getD [] ++ [i]) ∅

end Issue

/-- What a backend reports about a source, or about no source in particular. -/
structure Diagnostic where
  unit : Option TypeName
  line : UInt64
  column : UInt64
  code : Option String
  message : String
  deriving DecidableEq

namespace Diagnostic

/-- How bad it is. -/
def severity (d : Diagnostic) : Severity := .ofCode d.code

/-- The category of the message about it. -/
def category (d : Diagnostic) : Category := d.severity.category

/-- The issue that it is, if it belongs to a unit. -/
def toIssue? (d : Diagnostic) : Option Issue :=
  d.unit.map fun unit => ⟨unit, d.line, d.column, d.code, d.message⟩

/-- A diagnostic becomes the issue of its unit that has the place, the code and the message of the
diagnostic; without a unit it becomes none. -/
theorem toIssue?_eq_some_iff {d : Diagnostic} {i : Issue} :
    d.toIssue? = some i ↔ d = ⟨some i.unit, i.line, i.column, i.code, i.message⟩ := by
  obtain ⟨unit, line, column, code, message⟩ := d
  cases unit with
  | none => simp [toIssue?]
  | some unit =>
    simp only [toIssue?, Option.map_some, Option.some_inj, mk.injEq]
    constructor
    · rintro rfl
      exact ⟨rfl, rfl, rfl, rfl, rfl⟩
    · rintro ⟨rfl, rfl, rfl, rfl, rfl⟩
      rfl

/-- **The issues of diagnostics** are, in their order, those that carry a unit: none is lost, and the
unit, the place, the code and the message are kept. -/
theorem map_filterMap_toIssue? (ds : List Diagnostic) :
    (ds.filterMap toIssue?).map (fun i =>
      { unit := some i.unit, line := i.line, column := i.column, code := i.code,
        message := i.message : Diagnostic }) = ds.filter fun d => d.unit.isSome := by
  induction ds with
  | nil => rfl
  | cons d ds ih =>
    cases hd : d.toIssue? with
    | none =>
      have hunit : d.unit.isSome = false := by simpa [toIssue?] using hd
      rw [List.filterMap_cons_none hd, ih, List.filter_cons, hunit, if_neg Bool.false_ne_true]
    | some i =>
      have he := toIssue?_eq_some_iff.mp hd
      have hunit : d.unit.isSome = true := by rw [he]; rfl
      rw [List.filterMap_cons_some hd, List.map_cons, ih, ← he, List.filter_cons, if_pos hunit]

/-- The message about it. -/
def text (d : Diagnostic) : String :=
  let unit := match d.unit with
    | some unit => "(" ++ unit.text ++ ") "
    | none => ""
  let place := "[" ++ toString d.line.toNat ++ ", " ++ toString d.column.toNat ++ "]"
  "Compiler diagnostic at " ++ unit ++ place ++ ": " ++ d.message ++
    " (code: " ++ d.code.getD "none" ++ ")"

end Diagnostic

end VirtualClasspath
