import VirtualClasspath.Text.Quoted

/-!
# What can be wrong with a class file

A `Fault` is the reason why a byte string is not read as a class, or why a descriptor in a class is
not understood. `Fault.message` is its wording.
-/

namespace VirtualClasspath

namespace ClassFile

/-- How many attributes may enclose an attribute. -/
def maxAttributeDepth : Nat := 4

/-- How deep values of annotation elements may nest. -/
def maxValueDepth : Nat := 64

/-- What a reference into the constant pool has to find. -/
inductive Expected
  | utf8
  | classRef
  | nameAndType
  | member
  | callSite
  deriving DecidableEq

/-- The wording of an expectation. -/
def Expected.message : Expected → String
  | utf8 => "Utf8"
  | .classRef => "Class"
  | nameAndType => "NameAndType"
  | member => "member reference"
  | callSite => "InvokeDynamic"

/-- What can be wrong with the body of an attribute. -/
inductive Flaw
  /-- It is enclosed by more than `maxAttributeDepth` attributes. -/
  | nestedTooDeep
  /-- Bytes of its body are left over. -/
  | unread (count : Nat)
  /-- Element values nest deeper than `maxValueDepth`. -/
  | valuesTooDeep
  | unknownValueTag (tag : UInt8)
  | unknownTarget (target : UInt8)
  deriving DecidableEq

/-- The wording of a flaw. -/
def Flaw.message : Flaw → String
  | nestedTooDeep => s!"attributes nested deeper than {maxAttributeDepth}"
  | unread count => s!"{count} unread bytes"
  | valuesTooDeep => s!"element values nested deeper than {maxValueDepth}"
  | unknownValueTag tag =>
    "unknown element value tag " ++ Text.quotedSingle (Char.ofNat tag.toNat)
  | unknownTarget target => "unknown target type " ++ Text.hexByte target

/-- Why a class file is refused. -/
inductive Fault
  | unexpectedEnd
  | badMagic
  | unsupportedConstant (tag : UInt8)
  | badIndex (index : UInt16)
  | wrongConstant (index : UInt16) (expected : Expected)
  | badText
  | badSignature (text : String)
  | badOpcode (opcode : UInt8) (offset : Nat)
  | malformedAttribute (name : String) (flaw : Flaw)
  | trailingBytes (count : Nat)
  deriving DecidableEq

/-- The wording of a fault. -/
def Fault.message : Fault → String
  | unexpectedEnd => "unexpected end of class file"
  | badMagic => "invalid class file magic header"
  | unsupportedConstant tag => s!"unsupported constant pool tag {tag}"
  | badIndex index => s!"invalid constant pool index {index}"
  | wrongConstant index expected =>
    s!"constant pool entry {index} is not a {expected.message}"
  | badText => "invalid modified UTF-8 string in constant pool"
  | badSignature text => s!"malformed descriptor or signature: {text}"
  | badOpcode opcode offset =>
    s!"invalid opcode {Text.hexByte opcode} at code offset {offset}"
  | malformedAttribute name flaw => s!"malformed {name} attribute: {flaw.message}"
  | trailingBytes count => s!"{count} trailing bytes after the class file"

end ClassFile

end VirtualClasspath
