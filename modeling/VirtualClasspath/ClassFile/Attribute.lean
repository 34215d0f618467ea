import VirtualClasspath.ClassFile.AnnotationUse
import VirtualClasspath.ClassFile.Instruction

/-!
# Attributes

Everything that a class says about itself beyond its members stands in named attributes. An
attribute has a length, so one that is not known is passed over; of the known ones the body must be
used up. Attributes nest, inside method bodies and record components; the reader carries the number
of levels that are still allowed, as for element values.
-/

namespace VirtualClasspath.ClassFile

/-- The part of a method body that an exception handler guards, and what it catches. -/
structure Handler where
  start : UInt16
  stop : UInt16
  target : UInt16
  /-- The class that is caught; `none` catches everything. -/
  catches : Option String
  deriving DecidableEq

/-- What a class says about a nested class. -/
structure InnerClass where
  inner : String
  outer : Option String
  name : Option String
  access : UInt16
  deriving DecidableEq

/-- A local variable of a method body. -/
structure LocalVariable where
  name : String
  /-- Its descriptor, or its signature in a table of signatures. -/
  descriptor : String
  index : UInt16
  deriving DecidableEq

mutual

/-- An attribute of a class, a member, a method body or a record component. -/
inductive Attribute
  | signature (text : String)
  /-- The exceptions that a method declares. -/
  | exceptions (names : List String)
  | code (body : Code)
  | innerClasses (entries : List InnerClass)
  /-- The class, and if there is one the method, that a local class is declared in. -/
  | enclosingMethod (owner : String) (method : Option (String × String))
  | annotations (visible : Bool) (values : List AnnotationUse)
  | parameterAnnotations (visible : Bool) (parameters : List (List AnnotationUse))
  | typeAnnotations (visible : Bool) (values : List TypeAnnotationUse)
  | annotationDefault (value : ElementValue)
  | localVariables (table : List LocalVariable)
  | localVariableTypes (table : List LocalVariable)
  | record (components : List Component)
  /-- An attribute that is not known, with the length of its body. -/
  | other (name : String) (length : Nat)

/-- A method body. -/
structure Code where
  maxStack : UInt16
  maxLocals : UInt16
  /-- The instructions with symbolic operands, in code order. -/
  instructions : List Instruction
  handlers : List Handler
  attributes : List Attribute

/-- A component of a record. -/
structure Component where
  name : String
  descriptor : String
  attributes : List Attribute

end

namespace Attribute

open Reader

/-- A guarded part of a method body. -/
def readHandler (pool : Pool) : Reader Handler := do
  let start ← u2
  let stop ← u2
  let target ← u2
  let catches ← pool.readClassName?
  return { start, stop, target, catches }

/-- An entry of the table of nested classes. -/
def readInnerClass (pool : Pool) : Reader InnerClass := do
  let inner ← pool.readClassName
  let outer ← pool.readClassName?
  let name ← pool.readUtf8?
  let access ← u2
  return { inner, outer, name, access }

/-- A local variable, after the part of the body where it lives. -/
def readLocalVariable (pool : Pool) : Reader LocalVariable := do
  skip 4
  let name ← pool.readUtf8
  let descriptor ← pool.readUtf8
  let index ← u2
  return { name, descriptor, index }

/-- The enclosing class, and the name and descriptor of the enclosing method unless that is 0. -/
def readEnclosingMethod (pool : Pool) : Reader Attribute := do
  let owner ← pool.readClassName
  let index ← u2
  if index = 0 then
    return .enclosingMethod owner none
  else
    return .enclosingMethod owner (some (← liftResult (pool.nameAndType index)))

/-- A method body, whose attributes are read by `nested`. -/
def readCode (pool : Pool) (nested : Reader (List Attribute)) : Reader Code := do
  let maxStack ← u2
  let maxLocals ← u2
  let length ← u4
  let code ← take length.toNat
  let instructions ← liftResult (Instruction.decode pool code)
  let handlers ← table (readHandler pool)
  let attributes ← nested
  return { maxStack, maxLocals, instructions, handlers, attributes }

/-- A record component, whose attributes are read by `nested`. -/
def readComponent (pool : Pool) (nested : Reader (List Attribute)) : Reader Component := do
  let name ← pool.readUtf8
  let descriptor ← pool.readUtf8
  let attributes ← nested
  return { name, descriptor, attributes }

/-- A list of annotations for each parameter. -/
def readParameters (pool : Pool) : Reader (List (List AnnotationUse)) := do
  let count ← u1
  repeated (table (AnnotationUse.read pool)) count.toNat

/-- How the body of an attribute is read, if its name is known. -/
def bodyReader? (pool : Pool) (nested : Reader (List Attribute)) :
    (name : String) → Option (Reader Attribute)
  | "Signature" => some do return .signature (← pool.readUtf8)
  | "Exceptions" => some do return .exceptions (← table pool.readClassName)
  | "Code" => some do return .code (← readCode pool nested)
  | "InnerClasses" => some do return .innerClasses (← table (readInnerClass pool))
  | "EnclosingMethod" => some (readEnclosingMethod pool)
  | "RuntimeVisibleAnnotations" => some do
    return .annotations true (← table (AnnotationUse.read pool))
  | "RuntimeInvisibleAnnotations" => some do
    return .annotations false (← table (AnnotationUse.read pool))
  | "RuntimeVisibleParameterAnnotations" => some do
    return .parameterAnnotations true (← readParameters pool)
  | "RuntimeInvisibleParameterAnnotations" => some do
    return .parameterAnnotations false (← readParameters pool)
  | "RuntimeVisibleTypeAnnotations" => some do
    return .typeAnnotations true (← table (TypeAnnotationUse.read pool))
  | "RuntimeInvisibleTypeAnnotations" => some do
    return .typeAnnotations false (← table (TypeAnnotationUse.read pool))
  | "AnnotationDefault" => some do
    return .annotationDefault (← ElementValue.read pool (maxValueDepth + 1))
  | "LocalVariableTable" => some do return .localVariables (← table (readLocalVariable pool))
  | "LocalVariableTypeTable" => some do
    return .localVariableTypes (← table (readLocalVariable pool))
  | "Record" => some do return .record (← table (readComponent pool nested))
  | _ => none

/-- A table of attributes: the name, the length and the body of each. -/
def readTable (pool : Pool) (parse : String → Bytes → Except Fault Attribute) :
    Reader (List Attribute) :=
  table do
    let name ← pool.readUtf8
    let length ← u4
    let body ← take length.toNat
    liftResult (parse name body)

/-- The attribute that a name and a body make, where attributes may still nest `room - 1` levels
below it. -/
def parse (pool : Pool) : (room : Nat) → String → Bytes → Except Fault Attribute
  | 0, name, _ => .error (.malformedAttribute name .nestedTooDeep)
  | room + 1, name, body =>
    match bodyReader? pool (readTable pool (parse pool room)) name with
    | none => .ok (.other name body.length)
    | some reader =>
      match reader body with
      | .error fault => .error fault
      | .ok (value, []) => .ok value
      | .ok (_, rest) => .error (.malformedAttribute name (.unread rest.length))

/-- The attributes of a class or of a member. -/
def readAll (pool : Pool) : Reader (List Attribute) :=
  readTable pool (parse pool (maxAttributeDepth + 1))

end Attribute

end VirtualClasspath.ClassFile
