import VirtualClasspath.ClassFile.Pool

/-!
# Instructions

A method body is a byte string of instructions laid end to end. Only the instructions whose
operands name a type, a member or a call site are kept; the others are passed over, and for that
their length has to be known: `Layout.of?` gives the shape of the operands of each opcode, and
`decode` walks from instruction to instruction. The offset of an instruction, on which the padding
of the switch instructions depends, is the size of the body less what is left of it.
-/

namespace VirtualClasspath.ClassFile

/-- An instruction with a symbolic operand. -/
inductive Instruction
  /-- Makes, casts to or tests for a type. -/
  | type (opcode : UInt8) (name : String)
  /-- Makes an array of several dimensions. -/
  | multiArray (name : String) (dimensions : UInt8)
  /-- Reads or writes a field. -/
  | field (opcode : UInt8) (owner name descriptor : String)
  /-- Calls a method. -/
  | method (opcode : UInt8) (callee : MemberRef)
  /-- Calls through a call site. -/
  | callSite (name descriptor : String)
  /-- Loads a class literal. -/
  | loadClass (name : String)
  /-- Loads a method type. -/
  | loadMethodType (descriptor : String)
  deriving DecidableEq

namespace Instruction

/-! ## Opcodes -/

def opLdc : UInt8 := 0x12
def opLdcWide : UInt8 := 0x13
def opLdc2Wide : UInt8 := 0x14
def opIncrement : UInt8 := 0x84
def opTableSwitch : UInt8 := 0xaa
def opLookupSwitch : UInt8 := 0xab
def opReturn : UInt8 := 0xb1
def opPutStatic : UInt8 := 0xb3
def opGetField : UInt8 := 0xb4
def opInvokeVirtual : UInt8 := 0xb6
def opInvokeInterface : UInt8 := 0xb9
def opInvokeDynamic : UInt8 := 0xba
def opNew : UInt8 := 0xbb
def opNewArray : UInt8 := 0xbd
def opCheckCast : UInt8 := 0xc0
def opInstanceOf : UInt8 := 0xc1
def opWide : UInt8 := 0xc4
def opMultiNewArray : UInt8 := 0xc5

end Instruction

/-- The shape of the operands that follow an opcode. -/
inductive Layout
  /-- As many bytes, without a name among them. -/
  | plain (width : Nat)
  /-- The index of a constant in one byte. -/
  | constant
  /-- The index of a constant in two bytes. -/
  | constantWide
  | field
  | method
  /-- As `method`, then two bytes. -/
  | interfaceMethod
  | callSite
  | type
  /-- As `type`, then a count of dimensions. -/
  | multiArray
  | tableSwitch
  | lookupSwitch
  /-- An opcode whose operands are twice as wide. -/
  | wide
  deriving DecidableEq

namespace Layout

/-- The layout of an opcode; `none` for the opcodes that are not defined. -/
def of? (opcode : UInt8) : Option Layout :=
  let n := opcode.toNat
  if n ≤ 0x0f then some (.plain 0)
  else if n = 0x10 then some (.plain 1)
  else if n = 0x11 then some (.plain 2)
  else if n = 0x12 then some .constant
  else if n = 0x13 then some .constantWide
  else if n = 0x14 then some (.plain 2)
  else if n ≤ 0x19 then some (.plain 1)
  else if n ≤ 0x35 then some (.plain 0)
  else if n ≤ 0x3a then some (.plain 1)
  else if n ≤ 0x83 then some (.plain 0)
  else if n = 0x84 then some (.plain 2)
  else if n ≤ 0x98 then some (.plain 0)
  else if n ≤ 0xa8 then some (.plain 2)
  else if n = 0xa9 then some (.plain 1)
  else if n = 0xaa then some .tableSwitch
  else if n = 0xab then some .lookupSwitch
  else if n ≤ 0xb1 then some (.plain 0)
  else if n ≤ 0xb5 then some .field
  else if n ≤ 0xb8 then some .method
  else if n = 0xb9 then some .interfaceMethod
  else if n = 0xba then some .callSite
  else if n = 0xbb then some .type
  else if n = 0xbc then some (.plain 1)
  else if n = 0xbd then some .type
  else if n ≤ 0xbf then some (.plain 0)
  else if n ≤ 0xc1 then some .type
  else if n ≤ 0xc3 then some (.plain 0)
  else if n = 0xc4 then some .wide
  else if n = 0xc5 then some .multiArray
  else if n ≤ 0xc7 then some (.plain 2)
  else if n ≤ 0xc9 then some (.plain 4)
  else none

/-- The bytes between a switch opcode at `offset` and the next multiple of four. -/
def padding (offset : Nat) : Nat := (4 - (offset + 1) % 4) % 4

open Reader

/-- Loads the constant at `index`, which is symbolic if it is a class or a method type. -/
def readConstant (pool : Pool) (index : UInt16) : Reader (Option Instruction) := do
  match ← liftResult (pool.get index) with
  | .classRef name => return some (.loadClass (← liftResult (pool.utf8 name)))
  | .methodType descriptor => return some (.loadMethodType (← liftResult (pool.utf8 descriptor)))
  | _ => return none

/-- The offset of the instruction whose operands come next, in a body of `size` bytes. -/
def offset (size : Nat) : Reader Nat := fun operands =>
  .ok (size - (operands.length + 1), operands)

/-- The default target, the bounds, and a target for each number between them. -/
def readTableSwitch (opcode : UInt8) (size : Nat) : Reader Unit := do
  let offset ← offset size
  skip (padding offset)
  skip 4
  let low ← i4
  let high ← i4
  if high < low then liftResult (.error (.badOpcode opcode offset))
  else skip ((high.toInt - low.toInt + 1).toNat * 4)

/-- The default target, the number of pairs, and the pairs. -/
def readLookupSwitch (opcode : UInt8) (size : Nat) : Reader Unit := do
  let offset ← offset size
  skip (padding offset)
  skip 4
  let pairs ← i4
  if pairs < 0 then liftResult (.error (.badOpcode opcode offset))
  else skip (pairs.toInt.toNat * 8)

/-- The operands of an instruction in a body of `size` bytes, and what it names. -/
def read (pool : Pool) (opcode : UInt8) (size : Nat) : Layout → Reader (Option Instruction)
  | plain width => do
    skip width
    return none
  | constant => do readConstant pool (← u1).toUInt16
  | constantWide => do readConstant pool (← u2)
  | field => do
    let m ← liftResult (pool.memberRef (← u2))
    return some (.field opcode m.owner m.name m.descriptor)
  | method => do
    let m ← liftResult (pool.memberRef (← u2))
    return some (.method opcode m)
  | interfaceMethod => do
    let m ← liftResult (pool.memberRef (← u2))
    skip 2
    return some (.method opcode m)
  | callSite => do
    let (name, descriptor) ← liftResult (pool.callSite (← u2))
    skip 2
    return some (.callSite name descriptor)
  | type => do
    let name ← pool.readClassName
    return some (.type opcode name)
  | multiArray => do
    let name ← pool.readClassName
    let dimensions ← u1
    return some (.multiArray name dimensions)
  | tableSwitch => do
    readTableSwitch opcode size
    return none
  | lookupSwitch => do
    readLookupSwitch opcode size
    return none
  | wide => do
    let widened ← u1
    skip (if widened = Instruction.opIncrement then 4 else 2)
    return none

/-! ## What is left after the operands -/

theorem shrinks_readConstant (pool : Pool) (index : UInt16) :
    Shrinks (readConstant pool index) := by
  refine shrinks_bind (shrinks_liftResult _) fun c => ?_
  split
  · exact shrinks_bind (shrinks_liftResult _) fun _ => shrinks_pure _
  · exact shrinks_bind (shrinks_liftResult _) fun _ => shrinks_pure _
  · exact shrinks_pure _

theorem shrinks_offset (size : Nat) : Shrinks (offset size) := by
  intro s a t h
  cases h
  exact Nat.le_refl _

theorem shrinks_readTableSwitch (opcode : UInt8) (size : Nat) :
    Shrinks (readTableSwitch opcode size) := by
  refine shrinks_bind (shrinks_offset _) fun _ => shrinks_bind (shrinks_skip _) fun _ =>
    shrinks_bind (shrinks_skip _) fun _ => shrinks_bind shrinks_i4 fun _ =>
    shrinks_bind shrinks_i4 fun _ => ?_
  split
  · exact shrinks_liftResult _
  · exact shrinks_skip _

theorem shrinks_readLookupSwitch (opcode : UInt8) (size : Nat) :
    Shrinks (readLookupSwitch opcode size) := by
  refine shrinks_bind (shrinks_offset _) fun _ => shrinks_bind (shrinks_skip _) fun _ =>
    shrinks_bind (shrinks_skip _) fun _ => shrinks_bind shrinks_i4 fun _ => ?_
  split
  · exact shrinks_liftResult _
  · exact shrinks_skip _

theorem shrinks_read (pool : Pool) (opcode : UInt8) (size : Nat) (layout : Layout) :
    Shrinks (layout.read pool opcode size) := by
  have lift : ∀ {α : Type} (f : UInt16 → Except Fault α),
      Shrinks (do liftResult (f (← u2))) := fun f =>
    shrinks_bind shrinks_u2 fun _ => shrinks_liftResult _
  cases layout with
  | plain width => exact shrinks_bind (shrinks_skip _) fun _ => shrinks_pure _
  | constant => exact shrinks_bind shrinks_u1 fun _ => shrinks_readConstant _ _
  | constantWide => exact shrinks_bind shrinks_u2 fun _ => shrinks_readConstant _ _
  | field => exact shrinks_bind shrinks_u2 fun _ => shrinks_bind (shrinks_liftResult _) fun _ =>
      shrinks_pure _
  | method => exact shrinks_bind shrinks_u2 fun _ => shrinks_bind (shrinks_liftResult _) fun _ =>
      shrinks_pure _
  | interfaceMethod =>
    exact shrinks_bind shrinks_u2 fun _ => shrinks_bind (shrinks_liftResult _) fun _ =>
      shrinks_bind (shrinks_skip _) fun _ => shrinks_pure _
  | callSite =>
    exact shrinks_bind shrinks_u2 fun _ => shrinks_bind (shrinks_liftResult _) fun _ =>
      shrinks_bind (shrinks_skip _) fun _ => shrinks_pure _
  | type => exact shrinks_bind (lift _) fun _ => shrinks_pure _
  | multiArray => exact shrinks_bind (lift _) fun _ => shrinks_bind shrinks_u1 fun _ =>
      shrinks_pure _
  | tableSwitch => exact shrinks_bind (shrinks_readTableSwitch _ _) fun _ => shrinks_pure _
  | lookupSwitch => exact shrinks_bind (shrinks_readLookupSwitch _ _) fun _ => shrinks_pure _
  | wide => exact shrinks_bind shrinks_u1 fun _ => shrinks_bind (shrinks_skip _) fun _ =>
      shrinks_pure _

end Layout

namespace Instruction

/-- The symbolic instructions of `code`, which is the end of a method body of `size` bytes. -/
def decodeRest (pool : Pool) (size : Nat) (code : Bytes) : Except Fault (List Instruction) :=
  match code with
  | [] => .ok []
  | opcode :: operands =>
    match Layout.of? opcode with
    | none => .error (.badOpcode opcode (size - (operands.length + 1)))
    | some layout =>
      match _h : layout.read pool opcode size operands with
      | .error fault => .error fault
      | .ok (symbol, rest) => (decodeRest pool size rest).map (symbol.toList ++ ·)
termination_by code.length
decreasing_by exact Nat.lt_succ_of_le (layout.shrinks_read pool opcode size _ _ _ _h)

/-- The symbolic instructions of a method body. -/
def decode (pool : Pool) (code : Bytes) : Except Fault (List Instruction) :=
  decodeRest pool code.length code

end Instruction

end VirtualClasspath.ClassFile
