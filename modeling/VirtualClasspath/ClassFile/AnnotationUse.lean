import VirtualClasspath.ClassFile.Pool

/-!
# Annotations

An annotation names its interface by a field descriptor and gives a value to each of its elements.
Values nest, through arrays and through annotations that are themselves values; the reader carries
the number of levels that are still allowed, so its recursion is bounded by `maxValueDepth` and not
by the input.
-/

namespace VirtualClasspath.ClassFile

mutual

/-- The value of an annotation element. -/
inductive ElementValue
  /-- A number or a text, of which only the tag is kept. -/
  | const (tag : UInt8)
  /-- A constant of the enumeration with descriptor `type`. -/
  | enumConstant (type name : String)
  /-- A class literal, by its return descriptor. -/
  | classLiteral (descriptor : String)
  | nested (value : AnnotationUse)
  | array (values : List ElementValue)

/-- An annotation. -/
structure AnnotationUse where
  /-- Field descriptor of the annotation interface. -/
  type : String
  /-- The name and the value of each element. -/
  elements : List (String × ElementValue)

end

/-- An annotation on the use of a type. -/
structure TypeAnnotationUse where
  /-- What kind of use it is. -/
  target : UInt8
  value : AnnotationUse

open Reader

/-- Whether a value with the tag is a number or a text: one of `BCDFIJSZs`. -/
def isConstTag (tag : UInt8) : Bool :=
  [0x42, 0x43, 0x44, 0x46, 0x49, 0x4a, 0x53, 0x5a, 0x73].contains tag

namespace AnnotationUse

/-- An annotation whose element values are read by `value`. -/
def readWith (pool : Pool) (value : Reader ElementValue) : Reader AnnotationUse := do
  let type ← pool.readUtf8
  let elements ← table do
    let name ← pool.readUtf8
    return (name, ← value)
  return { type, elements }

end AnnotationUse

/-- A value below which values may nest `room - 1` levels deep. -/
def ElementValue.read (pool : Pool) : (room : Nat) → Reader ElementValue
  | 0 => liftResult (.error (.malformedAttribute "annotation" .valuesTooDeep))
  | room + 1 => do
    let tag ← u1
    if isConstTag tag then
      let _ ← liftResult (pool.get (← u2))
      return .const tag
    else if tag = 0x65 then
      return .enumConstant (← pool.readUtf8) (← pool.readUtf8)
    else if tag = 0x63 then
      return .classLiteral (← pool.readUtf8)
    else if tag = 0x40 then
      return .nested (← AnnotationUse.readWith pool (read pool room))
    else if tag = 0x5b then
      return .array (← table (read pool room))
    else
      liftResult (.error (.malformedAttribute "annotation" (.unknownValueTag tag)))

/-- An annotation on a declaration. -/
def AnnotationUse.read (pool : Pool) : Reader AnnotationUse :=
  readWith pool (ElementValue.read pool maxValueDepth)

namespace TypeAnnotationUse

/-- The number of bytes that say more about a target of a fixed form. -/
def targetWidth? (target : UInt8) : Option Nat :=
  let n := target.toNat
  if n ≤ 0x01 then some 1
  else if n < 0x10 then none
  else if n ≤ 0x12 then some 2
  else if n ≤ 0x15 then some 0
  else if n = 0x16 then some 1
  else if n = 0x17 then some 2
  else if n < 0x42 then none
  else if n ≤ 0x46 then some 2
  else if n ≤ 0x4b then some 3
  else none

/-- Whether the target is a local variable, which has a table of the places where it lives. -/
def isLocalTarget (target : UInt8) : Bool := target = 0x40 || target = 0x41

/-- Passes over what says more about the target. -/
def skipTarget (target : UInt8) : Reader Unit :=
  if isLocalTarget target then do
    let n ← u2
    skip (n.toNat * 6)
  else
    match targetWidth? target with
    | some width => skip width
    | none => liftResult (.error (.malformedAttribute "type annotation" (.unknownTarget target)))

/-- An annotation on the use of a type: the target, the path into the type, the annotation. -/
def read (pool : Pool) : Reader TypeAnnotationUse := do
  let target ← u1
  skipTarget target
  let steps ← u1
  skip (steps.toNat * 2)
  let value ← AnnotationUse.read pool
  return { target, value }

end TypeAnnotationUse

end VirtualClasspath.ClassFile
