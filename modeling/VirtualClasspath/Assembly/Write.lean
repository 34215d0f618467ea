import VirtualClasspath.Assembly.Pool
import VirtualClasspath.Assembly.Spec
import VirtualClasspath.ClassFile.Basic

/-!
# Writing class files

`ClassSpec.bytes` writes the class that a description says. The pool is filled while the members and
attributes are written, in the order of the file, so it comes last although it stands first. The
name of an attribute is put into the pool after everything that its body refers to.
-/

namespace VirtualClasspath.Assembly

open ClassFile (Instruction)
open Writer

/-- An attribute: its name, the length of its body, the body. -/
def attributeBytes (name : String) (body : Bytes) : Writer Bytes := do
  let index ← utf8 name
  return u2Bytes index ++ u4Bytes (.ofNat body.length) ++ body

/-- The attribute that `write` makes of `a`, if there is an `a`. -/
def optionalAttribute {α : Type} (name : String) (write : α → Writer Bytes) :
    Option α → Writer (List Bytes)
  | none => return []
  | some a => do
    let body ← write a
    return [← attributeBytes name body]

/-- The attribute that holds a table of the elements of `l`, unless `l` is empty. -/
def tableAttribute {α : Type} (name : String) (write : α → Writer Bytes) (l : List α) :
    Writer (List Bytes) :=
  optionalAttribute name (table write) (if l.isEmpty then none else some l)

/-- A table of attributes. -/
def attributeTable (attributes : List Bytes) : Bytes :=
  countBytes attributes ++ attributes.flatten

/-- A reference to a signature. -/
def signatureBytes (signature : String) : Writer Bytes := do
  return u2Bytes (← utf8 signature)

/-- A reference to a class. -/
def classBytes (name : String) : Writer Bytes := do
  return u2Bytes (← classRef name)

/-! ## Annotations -/

mutual

/-- The value of an annotation element, its tag first. -/
def ElementSpec.write : ElementSpec → Writer Bytes
  | .int value => do return 0x49 :: u2Bytes (← add (.integer value))
  | .string text => do return 0x73 :: u2Bytes (← utf8 text)
  | .enumConstant type name => do
    let type ← utf8 type
    let name ← utf8 name
    return 0x65 :: u2Bytes type ++ u2Bytes name
  | .classLiteral descriptor => do return 0x63 :: u2Bytes (← utf8 descriptor)
  | .nested value => do return 0x40 :: (← value.write)
  | .array values => do return 0x5b :: countBytes values ++ (← writeValues values)

/-- An annotation. -/
def AnnotationSpec.write : AnnotationSpec → Writer Bytes
  | ⟨type, elements⟩ => do
    let type ← utf8 type
    return u2Bytes type ++ countBytes elements ++ (← writeElements elements)

/-- The elements of an annotation. -/
def writeElements : List (String × ElementSpec) → Writer Bytes
  | [] => return []
  | (name, value) :: rest => do
    let name ← utf8 name
    let value ← value.write
    return u2Bytes name ++ value ++ (← writeElements rest)

/-- The values of an array. -/
def writeValues : List ElementSpec → Writer Bytes
  | [] => return []
  | value :: rest => do
    let value ← value.write
    return value ++ (← writeValues rest)

end

/-- The number of bytes that say more about a target other than a local variable. -/
def targetLength (target : UInt8) : Nat :=
  let n := target.toNat
  if n ≤ 0x01 ∨ n = 0x16 then 1
  else if 0x13 ≤ n ∧ n ≤ 0x15 then 0
  else if 0x47 ≤ n ∧ n ≤ 0x4b then 3
  else 2

/-- What says more about the target of an annotation on a type: a table without entries for a
local variable, zeros otherwise. -/
def targetBytes (target : UInt8) : Bytes :=
  if target = 0x40 ∨ target = 0x41 then u2Bytes 0
  else .replicate (targetLength target) 0

/-- An annotation on a type, with an empty path. -/
def writeOnType (a : UInt8 × AnnotationSpec) : Writer Bytes := do
  return a.1 :: targetBytes a.1 ++ 0 :: (← a.2.write)

/-- The attributes that hold the annotations of a declaration. -/
def AnnotationSet.write (s : AnnotationSet) : Writer (List Bytes) := do
  let visible ← tableAttribute "RuntimeVisibleAnnotations" AnnotationSpec.write s.visible
  let onTypes ← tableAttribute "RuntimeInvisibleTypeAnnotations" writeOnType s.onTypes
  return visible ++ onTypes

/-! ## Code -/

/-- An opcode and a reference to a type. -/
def typeOp (opcode : UInt8) (name : String) : Writer Bytes := do
  return opcode :: u2Bytes (← classRef name)

/-- An opcode and a reference to a member. -/
def memberOp (opcode : UInt8) (kind : UInt16 → UInt16 → PoolEntry) (m : MemberSpec) :
    Writer Bytes := do
  let owner ← classRef m.owner
  let nat ← nameAndType m.name m.descriptor
  return opcode :: u2Bytes (← add (kind owner nat))

/-- The number of targets in a table switch. -/
def tableSize (low high : Int32) : Nat := (high.toInt - low.toInt + 1).toNat

open ClassFile.Instruction in
/-- The bytes of an operation at `offset` in the method body. -/
def Op.write (offset : Nat) : Op → Writer Bytes
  | new name => typeOp opNew name
  | newArray name => typeOp opNewArray name
  | checkCast name => typeOp opCheckCast name
  | instanceOf name => typeOp opInstanceOf name
  | multiNewArray name dimensions => do
    return (← typeOp opMultiNewArray name) ++ [dimensions]
  | getField m => memberOp opGetField .fieldRef m
  | putStatic m => memberOp opPutStatic .fieldRef m
  | invokeVirtual m => memberOp opInvokeVirtual .methodRef m
  | invokeInterface m => do
    return (← memberOp opInvokeInterface .interfaceMethodRef m) ++ [1, 0]
  | invokeDynamic name descriptor => do
    let nat ← nameAndType name descriptor
    return opInvokeDynamic :: u2Bytes (← add (.invokeDynamic 0 nat)) ++ [0, 0]
  | loadClass name => typeOp opLdcWide name
  | loadMethodType descriptor => do
    let descriptor ← utf8 descriptor
    return opLdcWide :: u2Bytes (← add (.methodType descriptor))
  | loadString text => do
    let text ← utf8 text
    return opLdcWide :: u2Bytes (← add (.string text))
  | loadLong value => do
    return opLdc2Wide :: u2Bytes (← add (.long value))
  | tableSwitch low high =>
    return opTableSwitch :: .replicate (ClassFile.Layout.padding offset) 0 ++ u4Bytes 0 ++
      u4Bytes low.toUInt32 ++ u4Bytes high.toUInt32 ++ .replicate (tableSize low high * 4) 0
  | lookupSwitch pairs =>
    return opLookupSwitch :: .replicate (ClassFile.Layout.padding offset) 0 ++ u4Bytes 0 ++
      u4Bytes pairs ++ .replicate (pairs.toNat * 8) 0
  | raw bytes => return bytes

/-- The bytes of operations laid end to end from `offset`. -/
def writeOps (offset : Nat) : List Op → Writer Bytes
  | [] => return []
  | op :: rest => do
    let head ← op.write offset
    return head ++ (← writeOps (offset + head.length) rest)

/-- The bytes of the operations of a method body, a return after them. -/
def CodeSpec.instructions (c : CodeSpec) : Writer Bytes := do
  return (← writeOps 0 c.ops) ++ [Instruction.opReturn]

/-- An exception handler that guards a body of `length` bytes up to its return. -/
def writeHandler (length : UInt16) (catches : Option String) : Writer Bytes := do
  return u2Bytes 0 ++ u2Bytes (length - 1) ++ u2Bytes 0 ++ u2Bytes (← classRef? catches)

/-- Local variables that live in a body of `length` bytes, numbered from `slot`. -/
def writeLocals (length : UInt16) (slot : UInt16) : List (String × String) → Writer Bytes
  | [] => return []
  | (name, descriptor) :: rest => do
    let name ← utf8 name
    let descriptor ← utf8 descriptor
    let entry : Bytes :=
      u2Bytes 0 ++ u2Bytes length ++ u2Bytes name ++ u2Bytes descriptor ++ u2Bytes slot
    return entry ++ (← writeLocals length (slot + 1) rest)

/-- The attribute that holds a table of local variables, unless there are none. -/
def localsAttribute (name : String) (length : UInt16) (locals : List (String × String)) :
    Writer (List Bytes) :=
  optionalAttribute name (fun l => do return countBytes l ++ (← writeLocals length 0 l))
    (if locals.isEmpty then none else some locals)

/-- The body of the attribute that holds a method body. -/
def CodeSpec.write (c : CodeSpec) : Writer Bytes := do
  let code ← c.instructions
  let length : UInt16 := .ofNat code.length
  let handlers ← table (writeHandler length) c.handlers
  let locals ← localsAttribute "LocalVariableTable" length c.locals
  let localTypes ← localsAttribute "LocalVariableTypeTable" length c.localTypes
  let annotations ← AnnotationSet.write { onTypes := c.annotationsOnTypes }
  return u2Bytes 8 ++ u2Bytes 8 ++ u4Bytes (.ofNat code.length) ++ code ++ handlers ++
    attributeTable (locals ++ localTypes ++ annotations)

/-! ## Members and classes -/

/-- A member: flags, name, descriptor and attributes. -/
def memberBytes (name descriptor : String) (attributes : Writer (List Bytes)) : Writer Bytes := do
  let name ← utf8 name
  let descriptor ← utf8 descriptor
  return u2Bytes accPublic ++ u2Bytes name ++ u2Bytes descriptor ++ attributeTable (← attributes)

/-- A field. -/
def FieldSpec.write (f : FieldSpec) : Writer Bytes :=
  memberBytes f.name f.descriptor do
    let signature ← optionalAttribute "Signature" signatureBytes f.signature
    let annotations ← f.annotations.write
    return signature ++ annotations

/-- The annotations of the parameters of a method: how many have some in one byte, then a table
for each. -/
def writeParameters (parameters : List (List AnnotationSpec)) : Writer Bytes := do
  return .ofNat parameters.length :: (← each (table AnnotationSpec.write) parameters)

/-- A method. -/
def MethodSpec.write (m : MethodSpec) : Writer Bytes :=
  memberBytes m.name m.descriptor do
    let signature ← optionalAttribute "Signature" signatureBytes m.signature
    let exceptions ← tableAttribute "Exceptions" classBytes m.exceptions
    let code ← optionalAttribute "Code" CodeSpec.write m.code
    let annotations ← m.annotations.write
    let parameters ← optionalAttribute "RuntimeVisibleParameterAnnotations" writeParameters
      (if m.parameterAnnotations.isEmpty then none else some m.parameterAnnotations)
    let default ← optionalAttribute "AnnotationDefault" ElementSpec.write m.annotationDefault
    return signature ++ exceptions ++ code ++ annotations ++ parameters ++ default

/-- An entry of the table of nested classes. -/
def InnerClassSpec.write (e : InnerClassSpec) : Writer Bytes := do
  let inner ← classRef e.inner
  let outer ← classRef? e.outer
  let name ← utf8? e.name
  return u2Bytes inner ++ u2Bytes outer ++ u2Bytes name ++ u2Bytes e.access

/-- The class, and the method unless there is none, that a class is declared in. -/
def writeEnclosing (e : String × Option (String × String)) : Writer Bytes := do
  let owner ← classRef e.1
  let method ← match e.2 with
    | some (name, descriptor) => nameAndType name descriptor
    | none => pure 0
  return u2Bytes owner ++ u2Bytes method

/-- Attributes as they are. -/
def writeRaw : List (String × Bytes) → Writer (List Bytes)
  | [] => return []
  | (name, body) :: rest => do
    let head ← attributeBytes name body
    return head :: (← writeRaw rest)

/-- The attributes of a class. -/
def ClassSpec.attributes (c : ClassSpec) : Writer (List Bytes) := do
  let signature ← optionalAttribute "Signature" signatureBytes c.signature
  let innerClasses ← tableAttribute "InnerClasses" InnerClassSpec.write c.innerClasses
  let enclosing ← optionalAttribute "EnclosingMethod" writeEnclosing c.enclosingMethod
  let annotations ← c.annotations.write
  let raw ← writeRaw c.rawAttributes
  return signature ++ innerClasses ++ enclosing ++ annotations ++ raw

/-- Everything that follows the pool. -/
def ClassSpec.body (c : ClassSpec) : Writer Bytes := do
  let name ← classRef c.name
  let superClass ← classRef? c.superClass
  let interfaces ← table classBytes c.interfaces
  let fields ← table FieldSpec.write c.fields
  let methods ← table MethodSpec.write c.methods
  let attributes ← c.attributes
  return u2Bytes c.access ++ u2Bytes name ++ u2Bytes superClass ++ interfaces ++ fields ++ methods ++
    attributeTable attributes

/-- The version of the class files that are written. -/
def majorVersion : UInt16 := 61

/-- The class file. -/
def ClassSpec.bytes (c : ClassSpec) : Bytes :=
  let (body, pool) := c.body.run .empty
  u4Bytes ClassFile.magic ++ u2Bytes 0 ++ u2Bytes majorVersion ++ pool.bytes ++ body

end VirtualClasspath.Assembly
