import VirtualClasspath.Signature.Scan

/-!
# Syntax trees of signatures

The grammar of descriptors and signatures as data: a `Tree` is the signature of a field, a method or
a class. `chars` writes a tree out, and `names` lists the classes that it names, in the order in
which they are written. `widestArray` and `argumentDepth` measure what a scanner puts a limit on: the
dimensions of arrays, and how deep type arguments stand in one another.

Descriptors are the trees without type arguments, type parameters and type variables.
-/

namespace VirtualClasspath.Signature

/-! ## Names -/

/-- The characters that have a meaning between identifiers. -/
def reserved : List Char := ['.', ';', '[', '/', '<', '>', ':']

/-- A segment of a name: not empty, and without reserved characters. -/
structure Identifier where
  chars : List Char
  ne_nil : chars ≠ []
  unreserved : ∀ c ∈ chars, c ∉ reserved

/-- The segments of a package, a separator after each. -/
def packageChars (separator : Char) (package : List Identifier) : List Char :=
  package.flatMap fun i => i.chars ++ [separator]

/-- The name of a class in a package. -/
def dottedName (package : List Identifier) (simple : Identifier) : TypeName :=
  ⟨String.ofList (packageChars '.' package ++ simple.chars)⟩

/-- The name of a member of the class `outer`. -/
def nestedName (outer : TypeName) (simple : Identifier) : TypeName :=
  ⟨outer.text ++ "$" ++ String.ofList simple.chars⟩

/-! ## Types -/

/-- The primitive types. -/
inductive BaseType
  | byte
  | char
  | double
  | float
  | int
  | long
  | short
  | boolean
  deriving DecidableEq

/-- The letter of a primitive type. -/
def BaseType.letter : BaseType → Char
  | byte => 'B'
  | char => 'C'
  | double => 'D'
  | float => 'F'
  | int => 'I'
  | long => 'J'
  | short => 'S'
  | boolean => 'Z'

/-- How a type argument is bounded by a type: it is the type, below it, or above it. -/
inductive Variance
  | exact
  | below
  | above
  deriving DecidableEq

/-- The mark of a type argument. -/
def Variance.chars : Variance → List Char
  | exact => []
  | below => ['+']
  | above => ['-']

mutual

/-- Any type. -/
inductive JavaType
  | base (b : BaseType)
  | reference (r : ReferenceType)

/-- A type that is not primitive. -/
inductive ReferenceType
  | ofClass (c : ClassType)
  | named (name : Identifier)
  | array (element : JavaType)

/-- A class in a package, and the way from it to one of the classes nested in it. -/
inductive ClassType
  | mk (package : List Identifier) (outer : SimpleClass) (inner : List SimpleClass)

/-- A class with its type arguments; no arguments are no empty brackets. -/
inductive SimpleClass
  | mk (name : Identifier) (arguments : List TypeArgument)

/-- A type argument, which may be the wildcard without a bound. -/
inductive TypeArgument
  | any
  | bounded (variance : Variance) (bound : ReferenceType)

end

/-! ### The text -/

mutual

def JavaType.chars : JavaType → List Char
  | .base b => [b.letter]
  | .reference r => r.chars

def ReferenceType.chars : ReferenceType → List Char
  | .ofClass c => c.chars
  | .named name => 'T' :: (name.chars ++ [';'])
  | .array element => '[' :: element.chars

def ClassType.chars : ClassType → List Char
  | .mk package outer inner =>
    'L' :: (packageChars '/' package ++ (outer.chars ++ (innerChars inner ++ [';'])))

def SimpleClass.chars : SimpleClass → List Char
  | .mk name [] => name.chars
  | .mk name (a :: arguments) => name.chars ++ '<' :: (a.chars ++ (argumentChars arguments ++ ['>']))

def TypeArgument.chars : TypeArgument → List Char
  | .any => ['*']
  | .bounded variance bound => variance.chars ++ bound.chars

/-- Classes, each after a dot. -/
def innerChars : List SimpleClass → List Char
  | [] => []
  | s :: rest => '.' :: (s.chars ++ innerChars rest)

/-- Type arguments, without the brackets. -/
def argumentChars : List TypeArgument → List Char
  | [] => []
  | a :: rest => a.chars ++ argumentChars rest

end

/-! ### The classes that are named -/

mutual

def JavaType.names : JavaType → List TypeName
  | .base _ => []
  | .reference r => r.names

def ReferenceType.names : ReferenceType → List TypeName
  | .ofClass c => c.names
  | .named _ => []
  | .array element => element.names

/-- The outermost class, its arguments, and then the nested classes, each with its arguments. -/
def ClassType.names : ClassType → List TypeName
  | .mk package (.mk name arguments) inner =>
    dottedName package name ::
      (argumentNames arguments ++ innerNames (dottedName package name) inner)

def TypeArgument.names : TypeArgument → List TypeName
  | .any => []
  | .bounded _ bound => bound.names

/-- The classes on the way inward from `outer`. -/
def innerNames (outer : TypeName) : List SimpleClass → List TypeName
  | [] => []
  | .mk name arguments :: rest =>
    nestedName outer name :: (argumentNames arguments ++ innerNames (nestedName outer name) rest)

def argumentNames : List TypeArgument → List TypeName
  | [] => []
  | a :: rest => a.names ++ argumentNames rest

end

/-! ### What is limited -/

mutual

/-- The dimensions of a type that is an array. -/
def JavaType.dimensions : JavaType → Nat
  | .base _ => 0
  | .reference r => r.dimensions

def ReferenceType.dimensions : ReferenceType → Nat
  | .ofClass _ => 0
  | .named _ => 0
  | .array element => element.dimensions + 1

end

mutual

/-- The most dimensions that an array has in a type, its type arguments included. -/
def JavaType.widestArray : JavaType → Nat
  | .base _ => 0
  | .reference r => r.widestArray

def ReferenceType.widestArray : ReferenceType → Nat
  | .ofClass c => c.widestArray
  | .named _ => 0
  | .array element => max (element.dimensions + 1) element.widestArray

def ClassType.widestArray : ClassType → Nat
  | .mk _ outer inner => max outer.widestArray (widestInInner inner)

def SimpleClass.widestArray : SimpleClass → Nat
  | .mk _ arguments => widestInArguments arguments

def TypeArgument.widestArray : TypeArgument → Nat
  | .any => 0
  | .bounded _ bound => bound.widestArray

def widestInInner : List SimpleClass → Nat
  | [] => 0
  | s :: rest => max s.widestArray (widestInInner rest)

def widestInArguments : List TypeArgument → Nat
  | [] => 0
  | a :: rest => max a.widestArray (widestInArguments rest)

end

mutual

/-- How deep type arguments stand in one another. -/
def JavaType.argumentDepth : JavaType → Nat
  | .base _ => 0
  | .reference r => r.argumentDepth

def ReferenceType.argumentDepth : ReferenceType → Nat
  | .ofClass c => c.argumentDepth
  | .named _ => 0
  | .array element => element.argumentDepth

def ClassType.argumentDepth : ClassType → Nat
  | .mk _ outer inner => max outer.argumentDepth (deepestInInner inner)

def SimpleClass.argumentDepth : SimpleClass → Nat
  | .mk _ [] => 0
  | .mk _ (a :: arguments) => max a.argumentDepth (deepestInArguments arguments) + 1

def TypeArgument.argumentDepth : TypeArgument → Nat
  | .any => 0
  | .bounded _ bound => bound.argumentDepth

def deepestInInner : List SimpleClass → Nat
  | [] => 0
  | s :: rest => max s.argumentDepth (deepestInInner rest)

def deepestInArguments : List TypeArgument → Nat
  | [] => 0
  | a :: rest => max a.argumentDepth (deepestInArguments rest)

end

/-! ## Whole signatures -/

/-- A type parameter with its bounds, at least one of which is written. -/
structure TypeParameter where
  name : Identifier
  classBound : Option ReferenceType
  interfaceBounds : List ReferenceType
  bounded : classBound.isSome = true ∨ interfaceBounds ≠ []

/-- What a method returns. -/
inductive Result
  | void
  | type (t : JavaType)

/-- The type that is returned, if any. -/
def Result.types : Result → List JavaType
  | void => []
  | type t => [t]

/-- What a method throws. -/
inductive Thrown
  | ofClass (c : ClassType)
  | named (name : Identifier)

/-- What is thrown, as a type. -/
def Thrown.toReference : Thrown → ReferenceType
  | ofClass c => .ofClass c
  | named name => .named name

/-- A signature or a descriptor. -/
inductive Tree
  | field (type : JavaType)
  | method (typeParameters : List TypeParameter) (parameters : List JavaType) (result : Result)
    (throws : List Thrown)
  | ofClass (typeParameters : List TypeParameter) (superClass : ClassType)
    (interfaces : List ClassType)

/-- The bounds, in the order in which they are written. -/
def TypeParameter.bounds (p : TypeParameter) : List ReferenceType :=
  p.classBound.toList ++ p.interfaceBounds

def TypeParameter.chars (p : TypeParameter) : List Char :=
  p.name.chars ++ ':' :: ((p.classBound.elim [] ReferenceType.chars) ++
    p.interfaceBounds.flatMap fun r => ':' :: r.chars)

/-- Type parameters in brackets, or nothing. -/
def parameterChars : List TypeParameter → List Char
  | [] => []
  | p :: rest => '<' :: (p.chars ++ (rest.flatMap TypeParameter.chars ++ ['>']))

def Result.chars : Result → List Char
  | void => ['V']
  | type t => t.chars

def Tree.chars : Tree → List Char
  | field type => type.chars
  | method typeParameters parameters result throws =>
    parameterChars typeParameters ++ '(' :: (parameters.flatMap JavaType.chars ++
      ')' :: (result.chars ++ throws.flatMap fun t => '^' :: t.toReference.chars))
  | ofClass typeParameters superClass interfaces =>
    parameterChars typeParameters ++ (superClass.chars ++ interfaces.flatMap ClassType.chars)

/-- The text of a signature. -/
def Tree.text (t : Tree) : String := String.ofList t.chars

/-- The types that a signature is made of, in the order in which they are written. -/
def Tree.types : Tree → List JavaType
  | field type => [type]
  | method typeParameters parameters result throws =>
    (typeParameters.flatMap TypeParameter.bounds).map .reference ++
      (parameters ++ (result.types ++ (throws.map Thrown.toReference).map .reference))
  | ofClass typeParameters superClass interfaces =>
    (typeParameters.flatMap TypeParameter.bounds).map .reference ++
      ((superClass :: interfaces).map .ofClass).map .reference

/-- The classes that a signature names, in the order in which they are written. -/
def Tree.names (t : Tree) : List TypeName := t.types.flatMap JavaType.names

/-- The signature `<T::Lp/B;>(TT;)Lp/O<+[Lp/B;*>.I;` of a method. -/
example :
    let p : Identifier := ⟨['p'], by simp, by simp [reserved]⟩
    let v : Identifier := ⟨['T'], by simp, by simp [reserved]⟩
    let b : ReferenceType := .ofClass (.mk [p] (.mk ⟨['B'], by simp, by simp [reserved]⟩ []) [])
    let o : ClassType := .mk [p] (.mk ⟨['O'], by simp, by simp [reserved]⟩
      [.bounded .below (.array (.reference b)), .any]) [.mk ⟨['I'], by simp, by simp [reserved]⟩ []]
    let t : Tree := .method [⟨v, none, [b], by simp⟩] [.reference (.named v)]
      (.type (.reference (.ofClass o))) []
    t.text = "<T::Lp/B;>(TT;)Lp/O<+[Lp/B;*>.I;" ∧
      t.names = [⟨"p.B"⟩, ⟨"p.O"⟩, ⟨"p.B"⟩, ⟨"p.O$I"⟩] := by decide

end VirtualClasspath.Signature
