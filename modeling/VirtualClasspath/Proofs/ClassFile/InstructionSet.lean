import VirtualClasspath.Assembly.Pool
import VirtualClasspath.ClassFile.Instruction

/-!
# The instruction set of the virtual machine

A `MachineInstruction` is any instruction that a method body can hold, with its operands. Those that
name something carry the name next to the index that stands for it; of the others, all that matters
is how long they are, which `Family.shape` says for each family of consecutive opcodes.

`bytes` is how an instruction stands in a method body and `symbol` is what it names. `LaidOut` says
that instructions lie end to end from an offset: each name is the one that the pool has for the
index, and the operands of a switch begin at the next multiple of four.
-/

namespace VirtualClasspath.ClassFile

open Assembly (u2Bytes u4Bytes)

/-! ## Instructions that name nothing -/

/-- Instructions with operands of a fixed length, none of them a name. -/
inductive Family
  /-- No operation; pushes null or a small number. -/
  | constants
  | pushByte
  | pushShort
  /-- Pushes a long or a double of the pool. -/
  | pushLongConstant
  /-- Loads an int, long, float, double or reference from a local variable. -/
  | load
  /-- The same for the first four local variables. -/
  | loadFirst
  | loadElement
  | store
  | storeFirst
  | storeElement
  /-- Drops, copies and exchanges values on the stack. -/
  | stack
  /-- The four operations, remainders and negation, for ints, longs, floats and doubles. -/
  | arithmetic
  | shift
  | bitwise
  /-- Adds to an int in a local variable. -/
  | increment
  | convert
  | compare
  | branch
  /-- Jumps, or jumps to a subroutine. -/
  | jump
  /-- Returns from a subroutine. -/
  | leaveSubroutine
  | leave
  | newPrimitiveArray
  | arrayLength
  | throwException
  | monitor
  | branchNull
  /-- As `jump`, with twice the distance. -/
  | jumpFar
  deriving DecidableEq

/-- Consecutive opcodes, and the length of the operands of each. -/
structure Shape where
  first : Nat
  count : Nat
  width : Nat

/-- The opcodes of a family. -/
def Family.shape : Family → Shape
  | constants => ⟨0x00, 16, 0⟩
  | pushByte => ⟨0x10, 1, 1⟩
  | pushShort => ⟨0x11, 1, 2⟩
  | pushLongConstant => ⟨0x14, 1, 2⟩
  | load => ⟨0x15, 5, 1⟩
  | loadFirst => ⟨0x1a, 20, 0⟩
  | loadElement => ⟨0x2e, 8, 0⟩
  | store => ⟨0x36, 5, 1⟩
  | storeFirst => ⟨0x3b, 20, 0⟩
  | storeElement => ⟨0x4f, 8, 0⟩
  | stack => ⟨0x57, 9, 0⟩
  | arithmetic => ⟨0x60, 24, 0⟩
  | shift => ⟨0x78, 6, 0⟩
  | bitwise => ⟨0x7e, 6, 0⟩
  | increment => ⟨0x84, 1, 2⟩
  | convert => ⟨0x85, 15, 0⟩
  | compare => ⟨0x94, 5, 0⟩
  | branch => ⟨0x99, 14, 2⟩
  | jump => ⟨0xa7, 2, 2⟩
  | leaveSubroutine => ⟨0xa9, 1, 1⟩
  | leave => ⟨0xac, 6, 0⟩
  | newPrimitiveArray => ⟨0xbc, 1, 1⟩
  | arrayLength => ⟨0xbe, 1, 0⟩
  | throwException => ⟨0xbf, 1, 0⟩
  | monitor => ⟨0xc2, 2, 0⟩
  | branchNull => ⟨0xc6, 2, 2⟩
  | jumpFar => ⟨0xc8, 2, 4⟩

/-- The opcode of a member of a family. -/
def Family.opcode (f : Family) (member : Fin f.shape.count) : UInt8 := .ofNat (f.shape.first + member)

/-- The families whose one operand is the number of a local variable, which can be made wider. -/
def Family.OnLocal : Family → Prop
  | load | store | leaveSubroutine => True
  | _ => False

/-! ## Instructions that name something -/

/-- What a field is used for. -/
inductive FieldUse
  | getStatic
  | putStatic
  | get
  | put

def FieldUse.opcode : FieldUse → UInt8
  | getStatic => 0xb2
  | putStatic => 0xb3
  | get => 0xb4
  | put => 0xb5

/-- How a method is called that is not called on an interface. -/
inductive MethodUse
  | virtual
  | special
  | static

def MethodUse.opcode : MethodUse → UInt8
  | virtual => 0xb6
  | special => 0xb7
  | static => 0xb8

/-- What a type is used for. -/
inductive TypeUse
  | new
  | newArray
  | checkCast
  | instanceOf

def TypeUse.opcode : TypeUse → UInt8
  | new => 0xbb
  | newArray => 0xbd
  | checkCast => 0xc0
  | instanceOf => 0xc1

/-- A constant that an instruction loads. -/
inductive Loaded
  | classLiteral (name : String)
  | methodType (descriptor : String)
  /-- Anything else. -/
  | value

/-- What loading the constant names. -/
def Loaded.symbol : Loaded → Option Instruction
  | classLiteral name => some (.loadClass name)
  | methodType descriptor => some (.loadMethodType descriptor)
  | value => none

/-- An instruction. The indices are those of the pool, and what stands behind an index is what the
pool has there. -/
inductive MachineInstruction
  | plain (f : Family) (member : Fin f.shape.count) (operands : Vector UInt8 f.shape.width)
  | loadConstant (index : UInt8) (constant : Loaded)
  | loadConstantWide (index : UInt16) (constant : Loaded)
  | field (use : FieldUse) (index : UInt16) (member : MemberRef)
  | method (use : MethodUse) (index : UInt16) (member : MemberRef)
  | interfaceMethod (index : UInt16) (member : MemberRef) (count zero : UInt8)
  | callSite (index : UInt16) (name descriptor : String) (zeros : UInt16)
  | type (use : TypeUse) (index : UInt16) (name : String)
  | multiArray (index : UInt16) (name : String) (dimensions : UInt8)
  | tableSwitch (pad : Bytes) (default : UInt32) (low high : Int32) (targets : List UInt32)
  | lookupSwitch (pad : Bytes) (default : UInt32) (pairs : List (UInt32 × UInt32))
  | wide (f : Family) (member : Fin f.shape.count) (number : UInt16)
  | wideIncrement (number amount : UInt16)

namespace MachineInstruction

/-! ## Instructions as bytes -/

def opcode : MachineInstruction → UInt8
  | plain f member _ => f.opcode member
  | loadConstant _ _ => 0x12
  | loadConstantWide _ _ => 0x13
  | field use _ _ => use.opcode
  | method use _ _ => use.opcode
  | interfaceMethod _ _ _ _ => 0xb9
  | callSite _ _ _ _ => 0xba
  | type use _ _ => use.opcode
  | multiArray _ _ _ => 0xc5
  | tableSwitch _ _ _ _ _ => 0xaa
  | lookupSwitch _ _ _ => 0xab
  | wide _ _ _ => 0xc4
  | wideIncrement _ _ => 0xc4

def operands : MachineInstruction → Bytes
  | plain _ _ operands => operands.toList
  | loadConstant index _ => [index]
  | loadConstantWide index _ => u2Bytes index
  | field _ index _ => u2Bytes index
  | method _ index _ => u2Bytes index
  | interfaceMethod index _ count zero => u2Bytes index ++ [count, zero]
  | callSite index _ _ zeros => u2Bytes index ++ u2Bytes zeros
  | type _ index _ => u2Bytes index
  | multiArray index _ dimensions => u2Bytes index ++ [dimensions]
  | tableSwitch pad default low high targets =>
    pad ++ u4Bytes default ++ u4Bytes low.toUInt32 ++ u4Bytes high.toUInt32 ++
      targets.flatMap u4Bytes
  | lookupSwitch pad default pairs =>
    pad ++ u4Bytes default ++ u4Bytes (.ofNat pairs.length) ++
      pairs.flatMap fun p => u4Bytes p.1 ++ u4Bytes p.2
  | wide f member number => f.opcode member :: u2Bytes number
  | wideIncrement number amount => 0x84 :: (u2Bytes number ++ u2Bytes amount)

/-- The instruction as it stands in a method body. -/
def bytes (i : MachineInstruction) : Bytes := i.opcode :: i.operands

/-- What the instruction names. -/
def symbol : MachineInstruction → Option Instruction
  | loadConstant _ constant => constant.symbol
  | loadConstantWide _ constant => constant.symbol
  | field use _ m => some (.field use.opcode m.owner m.name m.descriptor)
  | method use _ m => some (.method use.opcode m)
  | interfaceMethod _ m _ _ => some (.method 0xb9 m)
  | callSite _ name descriptor _ => some (.callSite name descriptor)
  | type use _ name => some (.type use.opcode name)
  | multiArray _ name dimensions => some (.multiArray name dimensions)
  | _ => none

end MachineInstruction

/-! ## What the pool has for an index -/

section References

variable (P : Pool)

def TextAt (i : UInt16) (text : String) : Prop := P.get i = .ok (.utf8 text)

def ClassAt (i : UInt16) (name : String) : Prop := ∃ n, P.get i = .ok (.classRef n) ∧ TextAt P n name

def NameAndTypeAt (i : UInt16) (name descriptor : String) : Prop :=
  ∃ n d, P.get i = .ok (.nameAndType n d) ∧ TextAt P n name ∧ TextAt P d descriptor

def CallSiteAt (i : UInt16) (name descriptor : String) : Prop :=
  ∃ bootstrap nat, P.get i = .ok (.invokeDynamic bootstrap nat) ∧ NameAndTypeAt P nat name descriptor

/-- A field, a method, or a method of an interface. -/
inductive MemberAt (i : UInt16) : MemberRef → Prop
  | field {c nat : UInt16} {owner name descriptor : String} (h : P.get i = .ok (.fieldRef c nat))
    (hc : ClassAt P c owner) (hnat : NameAndTypeAt P nat name descriptor) :
    MemberAt i ⟨owner, name, descriptor, false⟩
  | method {c nat : UInt16} {owner name descriptor : String} (h : P.get i = .ok (.methodRef c nat))
    (hc : ClassAt P c owner) (hnat : NameAndTypeAt P nat name descriptor) :
    MemberAt i ⟨owner, name, descriptor, false⟩
  | interfaceMethod {c nat : UInt16} {owner name descriptor : String}
    (h : P.get i = .ok (.interfaceMethodRef c nat)) (hc : ClassAt P c owner)
    (hnat : NameAndTypeAt P nat name descriptor) : MemberAt i ⟨owner, name, descriptor, true⟩

/-- Any constant can be loaded; what it names matters for class literals and method types. -/
inductive LoadedAt (i : UInt16) : Loaded → Prop
  | classLiteral {name : String} (h : ClassAt P i name) : LoadedAt i (.classLiteral name)
  | methodType {d : UInt16} {descriptor : String} (h : P.get i = .ok (.methodType d))
    (ht : TextAt P d descriptor) : LoadedAt i (.methodType descriptor)
  | value {c : Constant} (h : P.get i = .ok c) (hclass : ∀ n, c ≠ .classRef n)
    (htype : ∀ d, c ≠ .methodType d) : LoadedAt i .value

/-! ## Instructions end to end -/

/-- After an opcode at `offset`, `pad` leads to the next multiple of four. -/
def Pads (offset : Nat) (pad : Bytes) : Prop :=
  pad.length < 4 ∧ (offset + 1 + pad.length) % 4 = 0

instance (offset : Nat) (pad : Bytes) : Decidable (Pads offset pad) :=
  inferInstanceAs (Decidable (_ ∧ _))

/-- The operands of the instruction are in order where it stands. -/
def MachineInstruction.Valid (offset : Nat) : MachineInstruction → Prop
  | plain _ _ _ => True
  | loadConstant index constant => LoadedAt P index.toUInt16 constant
  | loadConstantWide index constant => LoadedAt P index constant
  | field _ index m => MemberAt P index m
  | method _ index m => MemberAt P index m
  | interfaceMethod index m _ _ => MemberAt P index m
  | callSite index name descriptor _ => CallSiteAt P index name descriptor
  | type _ index name => ClassAt P index name
  | multiArray index name _ => ClassAt P index name
  | tableSwitch pad _ low high targets =>
    Pads offset pad ∧ low ≤ high ∧ (targets.length : Int) = high.toInt - low.toInt + 1
  | lookupSwitch pad _ pairs => Pads offset pad ∧ pairs.length < 2147483648
  | wide f _ _ => f.OnLocal
  | wideIncrement _ _ => True

/-- Instructions laid end to end from `offset`. -/
def LaidOut (offset : Nat) : List MachineInstruction → Prop
  | [] => True
  | i :: rest => i.Valid P offset ∧ LaidOut (offset + i.bytes.length) rest

end References

/-- Instructions as they stand in a method body. -/
def machineCode (l : List MachineInstruction) : Bytes := l.flatMap MachineInstruction.bytes

/-- No instruction has the opcode. -/
def Undefined (opcode : UInt8) : Prop := ∀ i : MachineInstruction, i.opcode ≠ opcode

end VirtualClasspath.ClassFile
