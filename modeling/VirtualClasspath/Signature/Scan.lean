import VirtualClasspath.ClassFile.Fault
import VirtualClasspath.TypeName

/-!
# Types in descriptors and signatures

Descriptors say what types a field or a method has, signatures say the same with type arguments and
type variables. One scanner reads both, from the first character to the last, and reports the
classes that are named, in order of appearance: primitive types, type variables and wildcards name
none. A nested class after its outer class, as in `Lp/Outer<TT;>.Inner;`, is reported as
`p.Outer$Inner`.

Every step of the scanner takes a nonempty start of what is left and returns a rest that is shorter
(`Rest`), so each loop ends. Type arguments may nest `maxArgumentDepth` levels: the scanner of a
type is built level by level from the scanner of the types in its arguments.

`typeNames`, `operandNames` and `returnNames` are `referenced_types`, `class_operand_types` and
`return_descriptor_types` (section 4.1 of the specification). Out of scope: what a type variable
stands for, and whether a type has as many arguments as it should.
-/

namespace VirtualClasspath.Signature

open ClassFile (Fault)

/-- How many dimensions an array type may have. -/
def maxDimensions : Nat := 255

/-- How deep type arguments may nest. -/
def maxArgumentDepth : Nat := 255

/-- What is left of `s` after a nonempty start of it. -/
abbrev Rest (s : List Char) := { r : List Char // r.length < s.length }

/-- Reads the start of a text: the classes that it names, and what is left. -/
abbrev Scanner := (s : List Char) → Option (List TypeName × Rest s)

/-- The rest of `s` is also the rest of a longer text. -/
def Rest.widen {s t : List Char} (r : Rest s) (h : s.length ≤ t.length) : Rest t :=
  ⟨r.1, Nat.lt_of_lt_of_le r.2 h⟩

/-! ## Names -/

/-- Whether no slash stands beside another one. -/
def noDoubleSlash : List Char → Bool
  | '/' :: '/' :: _ => false
  | _ :: rest => noDoubleSlash rest
  | [] => true

/-- Whether a text is the internal name of a class: segments that are not empty, separated by
slashes, without the characters that have a meaning in signatures. -/
def isInternalName (cs : List Char) : Bool :=
  !cs.isEmpty && cs.head? ≠ some '/' && cs.getLast? ≠ some '/' && noDoubleSlash cs &&
    !cs.any fun c => ['.', ';', '[', '<', '>', ':'].contains c

/-- Whether a character ends a name in a class type. -/
def endsName (c : Char) : Bool := c = '<' || c = '.' || c = ';'

/-- The name that `s` starts with, and the rest from the character that ends it. -/
def nameAndRest? (s : List Char) : Option (List Char × Rest s) :=
  let name := s.takeWhile (!endsName ·)
  let rest := s.dropWhile (!endsName ·)
  if h : name = [] ∨ rest = [] then none
  else
    some (name, ⟨rest, by
      have hs : name ++ rest = s := List.takeWhile_append_dropWhile
      have hn : 0 < name.length := List.length_pos_iff.mpr fun e => h (Or.inl e)
      have hl := congrArg List.length hs
      rw [List.length_append] at hl
      omega⟩)

/-! ## Types -/

/-- Whether a character is the descriptor of a primitive type. -/
def isPrimitive (c : Char) : Bool := ['B', 'C', 'D', 'F', 'I', 'J', 'S', 'Z'].contains c

/-- After the name of a class: type arguments, names of nested classes, and the closing `;`. -/
def classSuffix (arguments : Scanner) (name : TypeName) (s : List Char) :
    Option (List TypeName × Rest s) :=
  match s with
  | '<' :: r =>
    match arguments r with
    | none => none
    | some (inArguments, ⟨t, ht⟩) =>
      match classSuffix arguments name t with
      | none => none
      | some (more, rest) => some (inArguments ++ more, rest.widen (by simp; omega))
  | '.' :: r =>
    match nameAndRest? r with
    | none => none
    | some (simple, ⟨t, ht⟩) =>
      if simple.contains '/' || !isInternalName simple then none
      else
        let nested : TypeName := ⟨name.text ++ "$" ++ String.ofList simple⟩
        match classSuffix arguments nested t with
        | none => none
        | some (more, rest) => some (nested :: more, rest.widen (by simp; omega))
  | ';' :: r => some ([], ⟨r, by simp⟩)
  | _ => none
termination_by s.length
decreasing_by all_goals (simp only [List.length_cons] at *; omega)

/-- A class type, after its `L`. -/
def classType (arguments : Scanner) : Scanner := fun s =>
  match nameAndRest? s with
  | none => none
  | some (internal, rest) =>
    if !isInternalName internal then none
    else
      let name := TypeName.ofInternal (String.ofList internal)
      match classSuffix arguments name rest.1 with
      | none => none
      | some (more, rest') => some (name :: more, rest'.widen (Nat.le_of_lt rest.2))

/-- A type variable, after its `T`. -/
def typeVariable : Scanner := fun s =>
  match s with
  | [] => none
  | c :: r =>
    if c = ';' then none
    else
      match h : r.dropWhile (· ≠ ';') with
      | [] => none
      | _ :: rest => some ([], ⟨rest, by
          have := (List.dropWhile_sublist (l := r) (· ≠ ';')).length_le
          rw [h] at this
          simp only [List.length_cons] at this ⊢
          omega⟩)

/-- A type, given how type arguments are read after their `<`. -/
def typeWith (arguments : Scanner) : Scanner := fun s =>
  if maxDimensions < (s.takeWhile (· = '[')).length then none
  else
    match h : s.dropWhile (· = '[') with
    | [] => none
    | c :: r =>
      have hr : r.length < s.length := by
        have := (List.dropWhile_sublist (l := s) (· = '[')).length_le
        rw [h, List.length_cons] at this
        exact this
      if isPrimitive c then some ([], ⟨r, hr⟩)
      else if c = 'T' then
        (typeVariable r).map fun p => (p.1, p.2.widen (Nat.le_of_lt hr))
      else if c = 'L' then
        (classType arguments r).map fun p => (p.1, p.2.widen (Nat.le_of_lt hr))
      else none

/-- Type arguments up to the closing `>`, given how a type is read. -/
def argumentList (type : Scanner) (s : List Char) : Option (List TypeName × Rest s) :=
  match s with
  | [] => none
  | c :: r =>
    if c = '>' then some ([], ⟨r, by simp⟩)
    else if c = '*' then
      (argumentList type r).map fun p => (p.1, p.2.widen (by simp))
    else if c = '+' ∨ c = '-' then
      match type r with
      | none => none
      | some (names, ⟨t, ht⟩) =>
        match argumentList type t with
        | none => none
        | some (more, rest) => some (names ++ more, rest.widen (by simp; omega))
    else
      match type (c :: r) with
      | none => none
      | some (names, ⟨t, ht⟩) =>
        match argumentList type t with
        | none => none
        | some (more, rest) => some (names ++ more, rest.widen (Nat.le_of_lt ht))
termination_by s.length
decreasing_by all_goals (simp only [List.length_cons] at *; omega)

/-- Type arguments after their `<`: at least one. -/
def typeArguments (type : Scanner) : Scanner := fun s =>
  if s.head? = some '>' then none else argumentList type s

/-- A type whose type arguments may nest `room` levels deep. -/
def typeSignature : (room : Nat) → Scanner
  | 0 => typeWith fun _ => none
  | room + 1 => typeWith (typeArguments (typeSignature room))

/-! ## Whole signatures -/

/-- What is left of `s`, perhaps all of it. -/
abbrev Remainder (s : List Char) := { r : List Char // r.length ≤ s.length }

/-- The bounds of a type parameter, after the first `:`. A bound may be left out. -/
def bounds (type : Scanner) (s : List Char) : Option (List TypeName × Remainder s) :=
  match s with
  | [] => none
  | c :: r =>
    if c = 'L' ∨ c = 'T' ∨ c = '[' then
      match type (c :: r) with
      | none => none
      | some (names, ⟨t, ht⟩) =>
        if t.head? = some ':' then
          match bounds type t.tail with
          | none => none
          | some (more, ⟨rest, h⟩) => some (names ++ more, ⟨rest, by simp at *; omega⟩)
        else some (names, ⟨t, Nat.le_of_lt ht⟩)
    else if c = ':' then
      match bounds type r with
      | none => none
      | some (more, ⟨rest, h⟩) => some (more, ⟨rest, by simp; omega⟩)
    else some ([], ⟨c :: r, Nat.le_refl _⟩)
termination_by s.length
decreasing_by all_goals (simp only [List.length_cons, List.length_tail] at *; omega)

/-- The type parameters of a class or a method, after the `<`. -/
def typeParameters (type : Scanner) (s : List Char) : Option (List TypeName × Rest s) :=
  match s with
  | [] => none
  | c :: r =>
    if c = '>' then some ([], ⟨r, by simp⟩)
    else if c = ':' then none
    else
      match h : r.dropWhile (· ≠ ':') with
      | [] => none
      | _ :: t =>
        have ht : t.length < r.length := by
          have := (List.dropWhile_sublist (l := r) (· ≠ ':')).length_le
          rw [h, List.length_cons] at this
          exact this
        match bounds type t with
        | none => none
        | some (names, ⟨u, hu⟩) =>
          match typeParameters type u with
          | none => none
          | some (more, rest) => some (names ++ more, rest.widen (by simp; omega))
termination_by s.length
decreasing_by all_goals (simp only [List.length_cons] at *; omega)

/-- The parameter types of a method, after the `(`. -/
def parameters (type : Scanner) (s : List Char) : Option (List TypeName × Rest s) :=
  match s with
  | [] => none
  | c :: r =>
    if c = ')' then some ([], ⟨r, by simp⟩)
    else
      match type (c :: r) with
      | none => none
      | some (names, ⟨t, ht⟩) =>
        match parameters type t with
        | none => none
        | some (more, rest) => some (names ++ more, rest.widen (Nat.le_of_lt ht))
termination_by s.length
decreasing_by all_goals (simp only [List.length_cons] at *; omega)

/-- The result type of a method, which may be `V`. -/
def resultType (type : Scanner) : Scanner := fun s =>
  match s with
  | 'V' :: r => some ([], ⟨r, by simp⟩)
  | s => type s

/-- The types that a method throws, each after a `^`, to the end of the text. -/
def thrownTypes (type : Scanner) (s : List Char) : Option (List TypeName) :=
  match s with
  | [] => some []
  | '^' :: r =>
    match type r with
    | none => none
    | some (names, ⟨t, _⟩) => (thrownTypes type t).map (names ++ ·)
  | _ => none
termination_by s.length
decreasing_by all_goals (simp only [List.length_cons] at *; omega)

/-- Types to the end of the text. -/
def types (type : Scanner) (s : List Char) : Option (List TypeName) :=
  match s with
  | [] => some []
  | c :: r =>
    match type (c :: r) with
    | none => none
    | some (names, ⟨t, _⟩) => (types type t).map (names ++ ·)
termination_by s.length
decreasing_by all_goals (simp only [List.length_cons] at *; omega)

/-- What follows the type parameters: the types of a method, or else at least one type. -/
def body (type : Scanner) (s : List Char) : Option (List TypeName) :=
  match s with
  | [] => none
  | '(' :: r => do
    let (inParameters, ⟨t, _⟩) ← parameters type r
    let (inResult, ⟨u, _⟩) ← resultType type t
    let thrown ← thrownTypes type u
    return inParameters ++ inResult ++ thrown
  | s => types type s

/-- A whole descriptor or signature. -/
def whole (type : Scanner) (s : List Char) : Option (List TypeName) :=
  match s with
  | '<' :: r => do
    let (inParameters, ⟨t, _⟩) ← typeParameters type r
    let names ← body type t
    return inParameters ++ names
  | s => body type s

/-! ## The classes that a text names -/

/-- The classes that a descriptor or a signature names, in order of appearance. -/
def typeNames (text : String) : Except Fault (List TypeName) :=
  match whole (typeSignature maxArgumentDepth) text.toList with
  | some names => .ok names
  | none => .error (.badSignature text)

/-- The classes that the operand of an instruction names: an array type is written as a descriptor,
a class by its internal name. -/
def operandNames (text : String) : Except Fault (List TypeName) :=
  if Text.beginsWith "[" text then typeNames text
  else if isInternalName text.toList then .ok [.ofInternal text]
  else .error (.badSignature text)

/-- The classes that a return descriptor names, which may be `V`. -/
def returnNames (text : String) : Except Fault (List TypeName) :=
  if text = "V" then .ok [] else typeNames text

end VirtualClasspath.Signature
