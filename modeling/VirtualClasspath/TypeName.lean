import VirtualClasspath.Text.Cut

/-!
# Type names

A `TypeName` is the fully qualified name of a class with dots between its segments, such as
`java.util.Map$Entry`. Class files use the internal form, with slashes instead of dots; `ofInternal`
and `internal` pass between the two. Names are ordered by code point.
-/

namespace VirtualClasspath

/-- A fully qualified type name. Any text is allowed; `Admissible` singles out the names of
classes. -/
structure TypeName where
  text : String
  deriving DecidableEq, Inhabited

namespace TypeName

instance : LT TypeName := ⟨fun a b => a.text < b.text⟩
instance : LE TypeName := ⟨fun a b => a.text ≤ b.text⟩

instance : DecidableLT TypeName := fun a b => inferInstanceAs (Decidable (a.text < b.text))
instance : DecidableLE TypeName := fun a b => inferInstanceAs (Decidable (a.text ≤ b.text))

theorem text_inj {a b : TypeName} : a.text = b.text ↔ a = b := by
  cases a; cases b; simp

instance : Std.IsLinearOrder TypeName where
  le_refl a := String.le_refl a.text
  le_trans _ _ _ h h' := String.le_trans h h'
  le_antisymm _ _ h h' := text_inj.mp (String.le_antisymm h h')
  le_total a b := String.le_total a.text b.text

instance : Std.LawfulOrderLT TypeName where
  lt_iff a b := Std.LawfulOrderLT.lt_iff a.text b.text

/-- The root of the class hierarchy. -/
def rootObject : TypeName := ⟨"java.lang.Object"⟩

/-- The name written with slashes between its segments. -/
def ofInternal (s : String) : TypeName := ⟨Text.exchange '/' '.' s⟩

/-- The internal form, with slashes between the segments. -/
def internal (n : TypeName) : String := Text.exchange '.' '/' n.text

/-- What precedes the last dot; the empty text for a name without a dot. -/
def package (n : TypeName) : String :=
  match Text.cutLast '.' n.text.toList with
  | some (pre, _) => String.ofList pre
  | none => ""

/-- What follows the last dot; the whole name if there is none. -/
def simpleName (n : TypeName) : String :=
  match Text.cutLast '.' n.text.toList with
  | some (_, post) => String.ofList post
  | none => n.text

/-- Whether the name is an array descriptor, such as `[Ljava.lang.String;`. -/
def isArray (n : TypeName) : Bool := Text.beginsWith "[" n.text

/-- Whether the name holds a path separator, as the names of hidden classes do. -/
def hasSeparator (n : TypeName) : Bool := Text.hasChar '/' n.text

/-- Whether the name may stand for a class: not empty, no array descriptor, no path separator. -/
def isAdmissible (n : TypeName) : Bool :=
  n.text ≠ "" && !n.isArray && !n.hasSeparator

/-- Whether compiling the source of `source` writes `n`: the class itself, or a class whose name
extends it by `$` and more. -/
def isOutputOf (n source : TypeName) : Bool :=
  match Text.after? source.text.toList n.text.toList with
  | some [] => true
  | some (c :: _) => c = '$'
  | none => false

/-- Whether `n` lies in `package`: directly, or anywhere below it when `recursive`. The unnamed
package is the empty text. -/
def inPackage (n : TypeName) (package : String) (recursive : Bool) : Bool :=
  if package = "" then recursive || !Text.hasChar '.' n.text
  else
    match Text.after? (package.toList ++ ['.']) n.text.toList with
    | some rest => !rest.isEmpty && (recursive || !rest.contains '.')
    | none => false

end TypeName

end VirtualClasspath
