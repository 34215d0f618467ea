import VirtualClasspath.Sorted.Set
import VirtualClasspath.Text.Cut

/-!
# Message categories

Every message to the user belongs to a category, and a configuration says which categories are
wanted. Categories have a kebab-case name; reading a name is lenient about blanks around it, case
and underscores.
-/

namespace VirtualClasspath

/-- What a message is about. -/
inductive Category
  /-- Progress and results. -/
  | info
  /-- Each name that the closure gains or loses. -/
  | extractionDetailed
  /-- Totals of the closure. -/
  | extractionSummary
  /-- Entries of a listing that are no class names. -/
  | ignoringNonTypes
  /-- All names that the backend can see. -/
  | availableTypeNames
  /-- Each class shown to the backend. -/
  | exposingClass
  /-- Each class not shown because it lies in a subpackage. -/
  | skippingSubpackage
  /-- Objects of the host that are no classes. -/
  | skippingNonClass
  /-- Bytes served to the backend. -/
  | loadingBytecode
  /-- Failures of the backend itself. -/
  | critical
  | diagnostics
  | warnings
  | notes
  deriving DecidableEq, Inhabited

namespace Category

/-- All categories, in order. -/
def all : List Category :=
  [info, extractionDetailed, extractionSummary, ignoringNonTypes, availableTypeNames,
    exposingClass, skippingSubpackage, skippingNonClass, loadingBytecode, critical, diagnostics,
    warnings, notes]

theorem mem_all (c : Category) : c ∈ all := by cases c <;> decide

/-- The place of a category in the order. -/
def rank : Category → Nat
  | info => 0
  | extractionDetailed => 1
  | extractionSummary => 2
  | ignoringNonTypes => 3
  | availableTypeNames => 4
  | exposingClass => 5
  | skippingSubpackage => 6
  | skippingNonClass => 7
  | loadingBytecode => 8
  | critical => 9
  | diagnostics => 10
  | warnings => 11
  | notes => 12

theorem all_rank (c : Category) : all[c.rank]? = some c := by cases c <;> rfl

theorem rank_inj {a b : Category} (h : a.rank = b.rank) : a = b :=
  Option.some.inj (by rw [← all_rank a, ← all_rank b, h])

instance : LT Category := ⟨fun a b => a.rank < b.rank⟩
instance : LE Category := ⟨fun a b => a.rank ≤ b.rank⟩

instance : DecidableLT Category := fun a b => inferInstanceAs (Decidable (a.rank < b.rank))

instance : Std.IsLinearOrder Category where
  le_refl a := Nat.le_refl a.rank
  le_trans _ _ _ h h' := Nat.le_trans h h'
  le_antisymm _ _ h h' := rank_inj (Nat.le_antisymm h h')
  le_total a b := Nat.le_total a.rank b.rank

instance : Std.LawfulOrderLT Category where
  lt_iff _ _ := Nat.lt_iff_le_and_not_ge

/-- The name of a category. -/
def name : Category → String
  | info => "info"
  | extractionDetailed => "bytecode-extraction-detailed"
  | extractionSummary => "bytecode-extraction-summary"
  | ignoringNonTypes => "ignoring-non-types"
  | availableTypeNames => "available-type-names"
  | exposingClass => "exposing-class-from-provider"
  | skippingSubpackage => "skipping-subpackage"
  | skippingNonClass => "skipping-non-class-object"
  | loadingBytecode => "loading-bytecode"
  | critical => "compiler-critical"
  | diagnostics => "compiler-diagnostics"
  | warnings => "compiler-diagnostics-warning"
  | notes => "compiler-diagnostics-note"

/-- The category with exactly this name. -/
def ofName? (s : String) : Option Category := all.find? fun c => c.name = s

theorem ofName?_name (c : Category) : ofName? c.name = some c := by cases c <;> decide

/-- The categories that are wanted if nothing is configured. -/
def defaults : List Category :=
  [info, extractionSummary, critical, diagnostics, warnings, notes]

/-- Whether a category has a message for each name or each call. -/
def isVerbose : Category → Bool
  | extractionDetailed | ignoringNonTypes | availableTypeNames | exposingClass
  | skippingSubpackage | skippingNonClass | loadingBytecode => true
  | _ => false

/-- A text that names no category. -/
structure Unknown where
  text : String
  deriving DecidableEq

/-- The wording of the error. -/
def Unknown.message (u : Unknown) : String := "unknown logging category: " ++ u.text

/-- The form in which names are compared: no blanks around it, ASCII letters in lower case, hyphens
instead of underscores. -/
def normalForm (s : String) : String :=
  Text.exchange '_' '-' ((Text.trim s).map Char.toLower)

/-- The category that a text names. -/
def parse (s : String) : Except Unknown Category :=
  match ofName? (normalForm s) with
  | some c => .ok c
  | none => .error ⟨s⟩

/-- How urgent a message is in an event log. -/
inductive Level
  | error
  | warn
  | info
  | debug
  deriving DecidableEq

/-- The name of a level. -/
def Level.name : Level → String
  | error => "ERROR"
  | warn => "WARN"
  | info => "INFO"
  | debug => "DEBUG"

/-- The level of the messages of a category. -/
def level : Category → Level
  | critical | diagnostics => .error
  | warnings => .warn
  | info | extractionSummary | notes => .info
  | _ => .debug

end Category

end VirtualClasspath
