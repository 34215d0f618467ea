import VirtualClasspath.Assembly.Write
import VirtualClasspath.Proofs.Assembly.Pool

/-!
# Method bodies are decoded as they were written

`Decodes P size offset c symbols` says that the bytes `c`, where they stand in a method body, are
whole instructions, of which `symbols` name something. It composes along the body
(`Decodes.append`). Every operation is written as such a stretch (`ensures_op`), the raw ones if they
are `Silent`: complete instructions that name nothing.

**`ensures_instructions`**: decoding a method body gives the symbolic instructions of its operations,
in their order.
-/

namespace VirtualClasspath.Assembly

open ClassFile (Pool Constant Reader Instruction Layout MemberRef Fault)
open ClassFile.Reader
open ClassFile.Instruction

/-! ## What is read -/

/-- The symbolic instructions of an operation. -/
def Op.symbols : Op → List Instruction
  | new name => [.type opNew name]
  | newArray name => [.type opNewArray name]
  | checkCast name => [.type opCheckCast name]
  | instanceOf name => [.type opInstanceOf name]
  | multiNewArray name dimensions => [.multiArray name dimensions]
  | getField m => [.field opGetField m.owner m.name m.descriptor]
  | putStatic m => [.field opPutStatic m.owner m.name m.descriptor]
  | invokeVirtual m => [.method opInvokeVirtual ⟨m.owner, m.name, m.descriptor, false⟩]
  | invokeInterface m => [.method opInvokeInterface ⟨m.owner, m.name, m.descriptor, true⟩]
  | invokeDynamic name descriptor => [.callSite name descriptor]
  | loadClass name => [.loadClass name]
  | loadMethodType descriptor => [.loadMethodType descriptor]
  | _ => []

/-- The number of bytes of an operation at `offset`. -/
def Op.size (offset : Nat) : Op → Nat
  | multiNewArray _ _ => 4
  | invokeInterface _ => 5
  | invokeDynamic _ _ => 5
  | tableSwitch low high => 13 + Layout.padding offset + tableSize low high * 4
  | lookupSwitch pairs => 9 + Layout.padding offset + pairs.toNat * 8
  | raw bytes => bytes.length
  | _ => 3

/-- The number of bytes of operations laid end to end from `offset`. -/
def sizeOfOps (offset : Nat) : List Op → Nat
  | [] => 0
  | op :: rest => op.size offset + sizeOfOps (offset + op.size offset) rest

/-- The number of bytes of the instructions of a method body. -/
def CodeSpec.codeSize (c : CodeSpec) : Nat := sizeOfOps 0 c.ops + 1

/-! ## Raw bytes -/

/-- Whether loading the constant is an instruction that names a type. -/
def isSymbolic : Constant → Bool
  | .classRef _ | .methodType _ => true
  | _ => false

/-- The operands that follow an opcode at `offset`, all of them, if they name nothing. A constant
that is loaded has to be in the pool. -/
inductive Operands (P : Pool) (offset : Nat) : Layout → Bytes → Prop
  | plain {width : Nat} {c : Bytes} (h : c.length = width) : Operands P offset (.plain width) c
  | constant {i : UInt8} {k : Constant} (h : P.get i.toUInt16 = .ok k) (hs : isSymbolic k = false) :
    Operands P offset .constant [i]
  | constantWide {i : UInt16} {k : Constant} (h : P.get i = .ok k) (hs : isSymbolic k = false) :
    Operands P offset .constantWide (u2Bytes i)
  | tableSwitch {pad target targets : Bytes} {low high : Int32}
    (hp : pad.length = Layout.padding offset) (ht : target.length = 4) (hle : low ≤ high)
    (hts : targets.length = tableSize low high * 4) :
    Operands P offset .tableSwitch
      (pad ++ (target ++ (u4Bytes low.toUInt32 ++ (u4Bytes high.toUInt32 ++ targets))))
  | lookupSwitch {pad target pairs : Bytes} {n : UInt32}
    (hp : pad.length = Layout.padding offset) (ht : target.length = 4)
    (hn : n.toNat < 2147483648) (hps : pairs.length = n.toNat * 8) :
    Operands P offset .lookupSwitch (pad ++ (target ++ (u4Bytes n ++ pairs)))
  | wide {widened : UInt8} {c : Bytes}
    (h : c.length = if widened = opIncrement then 4 else 2) :
    Operands P offset .wide (widened :: c)

/-- Complete instructions from `offset` on that name nothing. -/
inductive Silent (P : Pool) : (offset : Nat) → Bytes → Prop
  | nil {offset : Nat} : Silent P offset []
  | cons {offset : Nat} {opcode : UInt8} {layout : Layout} {operands rest : Bytes}
    (hl : Layout.of? opcode = some layout) (h : Operands P offset layout operands)
    (hrest : Silent P (offset + (opcode :: operands).length) rest) :
    Silent P offset (opcode :: operands ++ rest)

/-- An operation that is written as complete instructions. -/
def Op.Fits (P : Pool) (offset : Nat) : Op → Prop
  | tableSwitch low high => low ≤ high
  | lookupSwitch pairs => pairs.toNat < 2147483648
  | raw bytes => Silent P offset bytes
  | _ => True

/-- Operations, laid end to end from `offset`, that are written as complete instructions. -/
def OpsFit (P : Pool) (offset : Nat) : List Op → Prop
  | [] => True
  | op :: rest => op.Fits P offset ∧ OpsFit P (offset + op.size offset) rest

/-! ## Stretches of a method body -/

/-- At `offset` in a method body of `size` bytes, `c` is decoded to the instructions `symbols`. -/
def Decodes (P : Pool) (size offset : Nat) (c : Bytes) (symbols : List Instruction) : Prop :=
  ∀ rest : Bytes, offset + c.length + rest.length = size →
    decodeRest P size (c ++ rest) = (decodeRest P size rest).map (symbols ++ ·)

section Decoding

variable {P : Pool} {size offset : Nat}

theorem map_nil_append (x : Except Fault (List Instruction)) : x.map ([] ++ ·) = x := by
  cases x <;> rfl

theorem decodes_nil : Decodes P size offset [] [] := fun _ _ => (map_nil_append _).symm

theorem Decodes.append {c c' : Bytes} {symbols symbols' : List Instruction}
    (h : Decodes P size offset c symbols) (h' : Decodes P size (offset + c.length) c' symbols') :
    Decodes P size offset (c ++ c') (symbols ++ symbols') := by
  intro rest hsize
  rw [List.length_append] at hsize
  have hlen : offset + c.length + (c' ++ rest).length = size := by
    rw [List.length_append]
    omega
  rw [List.append_assoc, h _ hlen, h' rest (by omega)]
  cases decodeRest P size rest with
  | error e => rfl
  | ok more =>
    change Except.ok (symbols ++ (symbols' ++ more)) = Except.ok (symbols ++ symbols' ++ more)
    rw [List.append_assoc]

/-- A method body, decoded up to `rest`. -/
theorem Decodes.decode_append {c rest : Bytes} {symbols : List Instruction}
    (h : Decodes P (c ++ rest).length 0 c symbols) :
    decode P (c ++ rest) =
      (decodeRest P (c ++ rest).length rest).map (symbols ++ ·) := by
  refine h rest ?_
  rw [Nat.zero_add, List.length_append]

/-- A whole method body. -/
theorem Decodes.decode_eq {c : Bytes} {symbols : List Instruction}
    (h : Decodes P c.length 0 c symbols) : decode P c = .ok symbols := by
  have hall : Decodes P (c ++ []).length 0 c symbols := by rwa [List.append_nil]
  have heq := hall.decode_append
  rw [decodeRest, List.append_nil] at heq
  rw [heq]
  change Except.ok (symbols ++ []) = _
  rw [List.append_nil]

/-- One instruction, whose operands are read where they stand. -/
theorem decodes_instruction {opcode : UInt8} {layout : Layout} {operands : Bytes}
    {symbol : Option Instruction} (hl : Layout.of? opcode = some layout)
    (h : ∀ rest : Bytes, offset + (opcode :: operands).length + rest.length = size →
      layout.read P opcode size (operands ++ rest) = .ok (symbol, rest)) :
    Decodes P size offset (opcode :: operands) symbol.toList := by
  intro rest hsize
  rw [List.cons_append, decodeRest]
  split
  · rename_i hnone
    rw [hl] at hnone
    cases hnone
  · rename_i layout' hsome
    rw [hl] at hsome
    cases hsome
    split
    · rename_i hread
      rw [h rest hsize] at hread
      cases hread
    · rename_i hread
      rw [h rest hsize] at hread
      cases hread
      rfl

/-- One instruction, whose operands are read the same everywhere. -/
theorem decodes_of_reads {opcode : UInt8} {layout : Layout} {operands : Bytes}
    {symbol : Option Instruction} (hl : Layout.of? opcode = some layout)
    (h : Reads (layout.read P opcode size) operands symbol) :
    Decodes P size offset (opcode :: operands) symbol.toList :=
  decodes_instruction hl fun rest _ => h rest

/-! ## Switches -/

/-- The offset of an instruction, seen from its operands. -/
theorem offset_eq {opcode : UInt8} {operands rest : Bytes}
    (hsize : offset + (opcode :: operands).length + rest.length = size) :
    Layout.offset size (operands ++ rest) = .ok (offset, operands ++ rest) := by
  unfold Layout.offset
  have hoffset : size - ((operands ++ rest).length + 1) = offset := by
    rw [List.length_cons] at hsize
    rw [List.length_append]
    omega
  rw [hoffset]

theorem read_tableSwitch {opcode : UInt8} {pad target targets rest : Bytes} {low high : Int32}
    (hp : pad.length = Layout.padding offset) (ht : target.length = 4) (hle : low ≤ high)
    (hts : targets.length = tableSize low high * 4)
    (hsize : offset + (opcode :: (pad ++ (target ++ (u4Bytes low.toUInt32 ++
      (u4Bytes high.toUInt32 ++ targets))))).length + rest.length = size) :
    Layout.readTableSwitch opcode size (pad ++ (target ++ (u4Bytes low.toUInt32 ++
      (u4Bytes high.toUInt32 ++ targets))) ++ rest) = .ok ((), rest) := by
  unfold Layout.readTableSwitch
  rw [bind_of_ok (offset_eq hsize)]
  refine (reads_skip hp).bind ((reads_skip ht).bind ((reads_i4 low).bind ((reads_i4 high).bind ?_)))
    rest
  rw [if_neg (Int32.not_lt.mpr hle)]
  exact reads_skip hts

theorem read_lookupSwitch {opcode : UInt8} {pad target pairs rest : Bytes} {n : UInt32}
    (hp : pad.length = Layout.padding offset) (ht : target.length = 4) (hn : n.toNat < 2147483648)
    (hps : pairs.length = n.toNat * 8)
    (hsize : offset + (opcode :: (pad ++ (target ++ (u4Bytes n ++ pairs)))).length + rest.length =
      size) :
    Layout.readLookupSwitch opcode size (pad ++ (target ++ (u4Bytes n ++ pairs)) ++ rest) =
      .ok ((), rest) := by
  have hint : n.toInt32.toInt = n.toNat := by
    refine BitVec.toInt_eq_toNat_of_lt ?_
    change 2 * n.toNat < 2 ^ 32
    omega
  unfold Layout.readLookupSwitch
  rw [bind_of_ok (offset_eq hsize)]
  refine (reads_skip hp).bind ((reads_skip ht).bind (((reads_u4 n).map UInt32.toInt32).bind ?_)) rest
  have hneg : ¬ n.toInt32 < 0 := by
    rw [Int32.not_lt, Int32.le_iff_toInt_le, hint]
    exact Int.natCast_nonneg _
  rw [if_neg hneg]
  refine reads_skip ?_
  rw [hint, hps]
  rfl

/-! ## Constants -/

theorem get_of_className {i : UInt16} {text : String} (h : P.className i = .ok text) :
    ∃ n, P.get i = .ok (.classRef n) ∧ P.utf8 n = .ok text := by
  unfold Pool.className at h
  cases hget : P.get i with
  | error e =>
    rw [hget] at h
    cases h
  | ok c =>
    rw [hget] at h
    cases c with
    | classRef n => exact ⟨n, rfl, h⟩
    | _ => cases h

theorem reads_classLiteral {i : UInt16} {name : String} (h : P.className i = .ok name) :
    Reads (Layout.readConstant P i) [] (some (.loadClass name)) := by
  obtain ⟨n, hget, htext⟩ := get_of_className h
  exact (reads_liftResult hget).bind_nil ((reads_liftResult htext).bind_nil (reads_pure _))

theorem reads_methodType {i d : UInt16} {descriptor : String} (h : P.get i = .ok (.methodType d))
    (ht : P.utf8 d = .ok descriptor) :
    Reads (Layout.readConstant P i) [] (some (.loadMethodType descriptor)) :=
  (reads_liftResult h).bind_nil ((reads_liftResult ht).bind_nil (reads_pure _))

theorem reads_value {i : UInt16} {k : Constant} (h : P.get i = .ok k)
    (hs : isSymbolic k = false) : Reads (Layout.readConstant P i) [] none := by
  refine (reads_liftResult h).bind_nil ?_
  cases k with
  | classRef name => cases hs
  | methodType descriptor => cases hs
  | _ => exact reads_pure none

/-! ## Instructions that name nothing -/

/-- Complete operands that name nothing are read as such. -/
theorem read_operands {opcode : UInt8} {layout : Layout}
    {operands rest : Bytes} (h : Operands P offset layout operands)
    (hsize : offset + (opcode :: operands).length + rest.length = size) :
    layout.read P opcode size (operands ++ rest) = .ok (none, rest) := by
  cases h with
  | plain h => exact reads_skip_pure h none rest
  | constant h hs => exact (reads_u1 _).bind_nil (reads_value h hs) rest
  | constantWide h hs => exact (reads_u2 _).bind_nil (reads_value h hs) rest
  | tableSwitch hp ht hle hts =>
    change (Layout.readTableSwitch opcode size >>= fun _ => pure none) _ = _
    rw [bind_of_ok (read_tableSwitch hp ht hle hts hsize)]
    rfl
  | lookupSwitch hp ht hn hps =>
    change (Layout.readLookupSwitch opcode size >>= fun _ => pure none) _ = _
    rw [bind_of_ok (read_lookupSwitch hp ht hn hps hsize)]
    rfl
  | wide h => exact (reads_u1 _).bind (reads_skip_pure h none) rest

/-- One instruction that names nothing. -/
theorem decodes_of_operands {opcode : UInt8} {layout : Layout} {operands : Bytes}
    (hl : Layout.of? opcode = some layout) (h : Operands P offset layout operands) :
    Decodes P size offset (opcode :: operands) [] :=
  decodes_instruction hl fun _ hsize => read_operands h hsize

/-- **Silent bytes are decoded to nothing.** -/
theorem decodes_of_silent {c : Bytes} (h : Silent P offset c) :
    Decodes P size offset c [] := by
  induction h with
  | nil => exact decodes_nil
  | cons hl hoperands _ ih => exact (decodes_of_operands hl hoperands).append ih

/-! ## Instructions that name something -/

section Named

variable {opcode : UInt8} {i : UInt16} {name descriptor : String} {m : MemberRef}

theorem decodes_type (hl : Layout.of? opcode = some .type) (h : P.className i = .ok name) :
    Decodes P size offset (opcode :: u2Bytes i) [.type opcode name] := by
  have hread : Reads (Layout.type.read P opcode size) (u2Bytes i) (some (.type opcode name)) :=
    (reads_reference h).map _
  exact decodes_of_reads hl hread

theorem decodes_multiArray (hl : Layout.of? opcode = some .multiArray)
    (h : P.className i = .ok name) (dimensions : UInt8) :
    Decodes P size offset (opcode :: (u2Bytes i ++ [dimensions])) [.multiArray name dimensions] := by
  have hread : Reads (Layout.multiArray.read P opcode size) (u2Bytes i ++ [dimensions])
      (some (.multiArray name dimensions)) :=
    (reads_reference h).bind ((reads_u1 dimensions).map _)
  exact decodes_of_reads hl hread

theorem decodes_field (hl : Layout.of? opcode = some .field) (h : P.memberRef i = .ok m) :
    Decodes P size offset (opcode :: u2Bytes i) [.field opcode m.owner m.name m.descriptor] := by
  have hread : Reads (Layout.field.read P opcode size) (u2Bytes i)
      (some (.field opcode m.owner m.name m.descriptor)) :=
    (reads_u2 i).bind_nil ((reads_liftResult h).bind_nil (reads_pure _))
  exact decodes_of_reads hl hread

theorem decodes_method (hl : Layout.of? opcode = some .method) (h : P.memberRef i = .ok m) :
    Decodes P size offset (opcode :: u2Bytes i) [.method opcode m] := by
  have hread : Reads (Layout.method.read P opcode size) (u2Bytes i) (some (.method opcode m)) :=
    (reads_u2 i).bind_nil ((reads_liftResult h).bind_nil (reads_pure _))
  exact decodes_of_reads hl hread

theorem decodes_interfaceMethod (hl : Layout.of? opcode = some .interfaceMethod)
    (h : P.memberRef i = .ok m) {c : Bytes} (hc : c.length = 2) :
    Decodes P size offset (opcode :: (u2Bytes i ++ c)) [.method opcode m] := by
  have hread : Reads (Layout.interfaceMethod.read P opcode size) (u2Bytes i ++ c)
      (some (.method opcode m)) :=
    (reads_u2 i).bind ((reads_liftResult h).bind (reads_skip_pure hc _))
  exact decodes_of_reads hl hread

theorem decodes_callSite (hl : Layout.of? opcode = some .callSite)
    (h : P.callSite i = .ok (name, descriptor)) {c : Bytes} (hc : c.length = 2) :
    Decodes P size offset (opcode :: (u2Bytes i ++ c)) [.callSite name descriptor] := by
  have hread : Reads (Layout.callSite.read P opcode size) (u2Bytes i ++ c)
      (some (.callSite name descriptor)) :=
    (reads_u2 i).bind ((reads_liftResult h).bind (reads_skip_pure hc _))
  exact decodes_of_reads hl hread

theorem decodes_constantWide {symbol : Option Instruction}
    (hl : Layout.of? opcode = some .constantWide)
    (h : Reads (Layout.readConstant P i) [] symbol) :
    Decodes P size offset (opcode :: u2Bytes i) symbol.toList :=
  decodes_of_reads hl ((reads_u2 i).bind_nil h)

end Named

end Decoding

/-! ## Operations -/

section Operations

variable {P : Pool} {size offset : Nat}

theorem ensures_typeOp (opcode : UInt8) (name : String) :
    Ensures P (typeOp opcode name) fun c =>
      ∃ i, c = opcode :: u2Bytes i ∧ P.className i = .ok name :=
  (ensures_classRef name).bind fun i => ensures_pure fun ⟨hi, _⟩ => ⟨i, rfl, hi⟩

theorem ensures_memberOp (opcode : UInt8) {kind : UInt16 → UInt16 → PoolEntry} {isInterface : Bool}
    (hk : ∀ {owner nat i : UInt16}, P.get i = .ok (kind owner nat).constant →
      P.memberRef i = P.member owner nat isInterface) (m : MemberSpec) :
    Ensures P (memberOp opcode kind m) fun c => ∃ i, c = opcode :: u2Bytes i ∧
      P.memberRef i = .ok ⟨m.owner, m.name, m.descriptor, isInterface⟩ := by
  refine (ensures_classRef m.owner).bind fun owner =>
    (ensures_nameAndType m.name m.descriptor).bind fun nat =>
    (ensures_add (kind owner nat)).bind fun i => ensures_pure ?_
  rintro ⟨hi, -⟩ ⟨hnat, -⟩ ⟨howner, -⟩
  refine ⟨i, rfl, ?_⟩
  rw [hk hi]
  unfold Pool.member
  rw [howner, hnat]
  rfl

theorem memberRef_of_get {i : UInt16} {k : Constant} :
    P.get i = .ok k → P.memberRef i = match k with
      | .fieldRef owner nat => P.member owner nat false
      | .methodRef owner nat => P.member owner nat false
      | .interfaceMethodRef owner nat => P.member owner nat true
      | _ => throw (.wrongConstant i .member) := by
  intro h
  unfold Pool.memberRef
  rw [h]
  rfl

/-- An instruction that names a type. -/
theorem ensures_type {opcode : UInt8} (hl : Layout.of? opcode = some .type) (name : String) :
    Ensures P (typeOp opcode name) fun c =>
      c.length = 3 ∧ Decodes P size offset c [.type opcode name] := by
  refine (ensures_typeOp opcode name).imp ?_
  rintro c ⟨i, rfl, hi⟩
  exact ⟨rfl, decodes_type hl hi⟩

/-- An instruction that names a field. -/
theorem ensures_fieldRef {opcode : UInt8} (hl : Layout.of? opcode = some .field) (m : MemberSpec) :
    Ensures P (memberOp opcode .fieldRef m) fun c =>
      c.length = 3 ∧ Decodes P size offset c [.field opcode m.owner m.name m.descriptor] := by
  refine (ensures_memberOp opcode memberRef_of_get m).imp ?_
  rintro c ⟨i, rfl, hi⟩
  exact ⟨rfl, decodes_field hl hi⟩

/-- An operation is written as bytes of a known length, and as whole instructions if it fits. -/
structure OpEncodes (P : Pool) (size offset : Nat) (op : Op) (c : Bytes) : Prop where
  length : c.length = op.size offset
  decodes : op.Fits P offset → Decodes P size offset c op.symbols

/-- **An operation is decoded as it was written.** -/
theorem ensures_op (size : Nat) (op : Op) :
    Ensures P (op.write offset) (OpEncodes P size offset op) := by
  cases op with
  | new name => exact (ensures_type rfl name).imp fun _ h => ⟨h.1, fun _ => h.2⟩
  | newArray name => exact (ensures_type rfl name).imp fun _ h => ⟨h.1, fun _ => h.2⟩
  | checkCast name => exact (ensures_type rfl name).imp fun _ h => ⟨h.1, fun _ => h.2⟩
  | instanceOf name => exact (ensures_type rfl name).imp fun _ h => ⟨h.1, fun _ => h.2⟩
  | multiNewArray name dimensions =>
    refine (ensures_typeOp opMultiNewArray name).bind fun c => ensures_pure ?_
    rintro ⟨i, rfl, hi⟩
    exact ⟨rfl, fun _ => decodes_multiArray rfl hi dimensions⟩
  | getField m => exact (ensures_fieldRef rfl m).imp fun _ h => ⟨h.1, fun _ => h.2⟩
  | putStatic m => exact (ensures_fieldRef rfl m).imp fun _ h => ⟨h.1, fun _ => h.2⟩
  | invokeVirtual m =>
    refine (ensures_memberOp opInvokeVirtual memberRef_of_get m).imp ?_
    rintro c ⟨i, rfl, hi⟩
    exact ⟨rfl, fun _ => decodes_method rfl hi⟩
  | invokeInterface m =>
    refine (ensures_memberOp opInvokeInterface memberRef_of_get m).bind fun c =>
      ensures_pure ?_
    rintro ⟨i, rfl, hi⟩
    exact ⟨rfl, fun _ => decodes_interfaceMethod rfl hi rfl⟩
  | invokeDynamic name descriptor =>
    refine (ensures_nameAndType name descriptor).bind fun nat =>
      (ensures_add (.invokeDynamic 0 nat)).bind fun i => ensures_pure ?_
    rintro ⟨hi, -⟩ ⟨hnat, -⟩
    have hsite : P.callSite i = .ok (name, descriptor) := by
      unfold Pool.callSite
      rw [hi]
      exact hnat
    exact ⟨rfl, fun _ => decodes_callSite rfl hsite rfl⟩
  | loadClass name =>
    refine (ensures_typeOp opLdcWide name).imp ?_
    rintro c ⟨i, rfl, hi⟩
    exact ⟨rfl, fun _ => decodes_constantWide rfl (reads_classLiteral hi)⟩
  | loadMethodType descriptor =>
    refine (ensures_utf8 descriptor).bind fun d => (ensures_add (.methodType d)).bind fun i =>
      ensures_pure ?_
    rintro ⟨hi, -⟩ ⟨htext, -⟩
    exact ⟨rfl, fun _ => decodes_constantWide rfl (reads_methodType hi htext)⟩
  | loadString text =>
    refine (ensures_utf8 text).bind fun t => (ensures_add (.string t)).bind fun i =>
      ensures_pure ?_
    rintro ⟨hi, -⟩ -
    exact ⟨rfl, fun _ => decodes_of_operands rfl (.constantWide hi rfl)⟩
  | loadLong value =>
    exact (ensures_add (.long value)).bind fun i => ensures_pure fun _ =>
      ⟨rfl, fun _ => decodes_of_operands rfl (.plain (length_u2Bytes i))⟩
  | tableSwitch low high =>
    refine ensures_pure ⟨?_, fun h => ?_⟩
    · simp only [List.length_cons, List.length_append, List.length_replicate, length_u4Bytes,
        Op.size]
      omega
    · simp only [List.cons_append, List.append_assoc]
      have hoperands : Operands P offset .tableSwitch _ := .tableSwitch
        (List.length_replicate (a := (0 : UInt8))) (length_u4Bytes 0) h
        (List.length_replicate (a := (0 : UInt8)))
      exact decodes_of_operands rfl hoperands
  | lookupSwitch pairs =>
    refine ensures_pure ⟨?_, fun h => ?_⟩
    · simp only [List.length_cons, List.length_append, List.length_replicate, length_u4Bytes,
        Op.size]
      omega
    · simp only [List.cons_append, List.append_assoc]
      have hoperands : Operands P offset .lookupSwitch _ := .lookupSwitch
        (List.length_replicate (a := (0 : UInt8))) (length_u4Bytes 0) h
        (List.length_replicate (a := (0 : UInt8)))
      exact decodes_of_operands rfl hoperands
  | raw bytes => exact ensures_pure ⟨rfl, fun h => decodes_of_silent h⟩

/-- Operations laid end to end are decoded as they were written. -/
theorem ensures_ops (size : Nat) (ops : List Op) :
    Ensures P (writeOps offset ops) fun c => c.length = sizeOfOps offset ops ∧
      (OpsFit P offset ops → Decodes P size offset c (ops.flatMap Op.symbols)) := by
  induction ops generalizing offset with
  | nil => exact ensures_pure ⟨rfl, fun _ => decodes_nil⟩
  | cons op ops ih =>
    refine (ensures_op size op).bind fun head => ih.bind fun tail => ensures_pure ?_
    -- the rest is laid out from where the head ends, which is where `OpsFit` looks
    rintro ⟨hlen, htail⟩ hhead
    refine ⟨?_, fun h => (hhead.decodes h.1).append (htail ?_)⟩
    · rw [List.length_append, hlen, hhead.length]
      rfl
    · rw [hhead.length]
      exact h.2

/-- **A method body is decoded to the symbolic instructions of its operations.** -/
theorem ensures_instructions {c : CodeSpec} (h : OpsFit P 0 c.ops) :
    Ensures P c.instructions fun code =>
      code.length = c.codeSize ∧ decode P code = .ok (c.ops.flatMap Op.symbols) := by
  refine (ensures_ops c.codeSize c.ops).bind fun code => ensures_pure ?_
  rintro ⟨hlen, hdecodes⟩
  have hsize : (code ++ [opReturn]).length = c.codeSize := by
    rw [List.length_append, hlen]
    rfl
  refine ⟨hsize, ?_⟩
  have hreturn : Decodes P c.codeSize (0 + code.length) [opReturn] [] :=
    decodes_of_operands rfl (.plain List.length_nil)
  have hall := (hdecodes h).append hreturn
  rw [List.append_nil, ← hsize] at hall
  exact hall.decode_eq

end Operations

end VirtualClasspath.Assembly
