import Mathlib.Tactic.ByContra
import VirtualClasspath.Proofs.Assembly.Code
import VirtualClasspath.Proofs.ClassFile.InstructionSet

/-!
# Decoding stays in step with the instructions

Every instruction has the layout that `Layout.of?` gives for its opcode
(`MachineInstruction.layout_opcode`), and no other opcode has a layout (`layout_eq_none_iff`,
`undefined_iff`). So an instruction, where it stands, is read to its last byte and to what the pool
has for its index (`MachineInstruction.Valid.decodes`). `LaidOut` carries the offset from one
instruction to the next, and by induction along it a run of instructions is decoded as a whole
(`LaidOut.decodes`).

**`decode_machineCode`**: instructions laid end to end are decoded to what they name, in their order;
and where they are followed by an opcode that no instruction has, that opcode is refused, at the
offset where they end.
-/

namespace VirtualClasspath.ClassFile

open Assembly
open Instruction (decode decodeRest)

/-! ## Opcodes -/

namespace MachineInstruction

/-- What the operands are made of. -/
def layout : MachineInstruction → Layout
  | plain f _ _ => .plain f.shape.width
  | loadConstant _ _ => .constant
  | loadConstantWide _ _ => .constantWide
  | field _ _ _ => .field
  | method _ _ _ => .method
  | interfaceMethod _ _ _ _ => .interfaceMethod
  | callSite _ _ _ _ => .callSite
  | type _ _ _ => .type
  | multiArray _ _ _ => .multiArray
  | tableSwitch _ _ _ _ _ => .tableSwitch
  | lookupSwitch _ _ _ => .lookupSwitch
  | wide _ _ _ => .wide
  | wideIncrement _ _ => .wide

end MachineInstruction

theorem Family.layout_opcode (f : Family) (member : Fin f.shape.count) :
    Layout.of? (f.opcode member) = some (.plain f.shape.width) := by
  revert member
  cases f <;> decide

/-- **An instruction has the layout of its opcode.** -/
theorem MachineInstruction.layout_opcode (i : MachineInstruction) :
    Layout.of? i.opcode = some i.layout := by
  cases i with
  | plain f member _ => exact f.layout_opcode member
  | field use _ _ => cases use <;> rfl
  | method use _ _ => cases use <;> rfl
  | type use _ _ => cases use <;> rfl
  | _ => rfl

/-- Every family. -/
def families : List Family :=
  [.constants, .pushByte, .pushShort, .pushLongConstant, .load, .loadFirst, .loadElement, .store,
    .storeFirst, .storeElement, .stack, .arithmetic, .shift, .bitwise, .increment, .convert,
    .compare, .branch, .jump, .leaveSubroutine, .leave, .newPrimitiveArray, .arrayLength,
    .throwException, .monitor, .branchNull, .jumpFar]

/-- An instruction for each of the other opcodes. -/
def remaining : List MachineInstruction :=
  let m : MemberRef := ⟨"", "", "", false⟩
  [.loadConstant 0 .value, .loadConstantWide 0 .value, .tableSwitch [] 0 0 0 [],
    .lookupSwitch [] 0 [], .field .getStatic 0 m, .field .putStatic 0 m, .field .get 0 m,
    .field .put 0 m, .method .virtual 0 m, .method .special 0 m, .method .static 0 m,
    .interfaceMethod 0 m 0 0, .callSite 0 "" "" 0, .type .new 0 "", .type .newArray 0 "",
    .type .checkCast 0 "", .type .instanceOf 0 "", .wideIncrement 0 0, .multiArray 0 "" 0]

theorem covered : ∀ n : Fin 0xca,
    (∃ f ∈ families, f.shape.first ≤ n ∧ n < f.shape.first + f.shape.count) ∨
      ∃ i ∈ remaining, i.opcode = .ofNat n := by
  decide +kernel

theorem Family.exists_opcode {f : Family} {opcode : UInt8} (h : f.shape.first ≤ opcode.toNat)
    (h' : opcode.toNat < f.shape.first + f.shape.count) : ∃ member, f.opcode member = opcode := by
  refine ⟨⟨opcode.toNat - f.shape.first, by omega⟩, ?_⟩
  unfold Family.opcode
  rw [Nat.add_sub_cancel' h, UInt8.ofNat_toNat]

theorem layout_eq_none_iff {opcode : UInt8} :
    Layout.of? opcode = none ↔ 0xc9 < opcode.toNat := by
  have hall : ∀ n : Fin 256, Layout.of? (.ofNat n) = none ↔ 0xc9 < n.val := by decide +kernel
  have := hall ⟨opcode.toNat, opcode.toNat_lt⟩
  rwa [UInt8.ofNat_toNat] at this

/-- **The opcodes of the instructions are those up to `0xc9`.** -/
theorem undefined_iff {opcode : UInt8} : Undefined opcode ↔ 0xc9 < opcode.toNat := by
  constructor
  · intro h
    by_contra hle
    have hcovered := covered ⟨opcode.toNat, by omega⟩
    rw [UInt8.ofNat_toNat] at hcovered
    obtain ⟨f, -, hfirst, hlast⟩ | ⟨i, -, hi⟩ := hcovered
    · obtain ⟨member, hf⟩ := Family.exists_opcode hfirst hlast
      exact h (.plain f member (.replicate _ 0)) hf
    · exact h i hi
  · rintro h i rfl
    have hnone := layout_eq_none_iff.mpr h
    rw [i.layout_opcode] at hnone
    cases hnone

/-! ## Names in the pool -/

section References

variable {P : Pool} {i : UInt16} {name descriptor : String}

theorem TextAt.utf8_eq (h : TextAt P i name) : P.utf8 i = .ok name := by
  unfold Pool.utf8
  rw [h]
  rfl

theorem ClassAt.className_eq (h : ClassAt P i name) : P.className i = .ok name := by
  obtain ⟨n, hget, htext⟩ := h
  unfold Pool.className
  rw [hget]
  exact htext.utf8_eq

theorem NameAndTypeAt.nameAndType_eq (h : NameAndTypeAt P i name descriptor) :
    P.nameAndType i = .ok (name, descriptor) := by
  obtain ⟨n, d, hget, hname, hdescriptor⟩ := h
  unfold Pool.nameAndType
  rw [hget]
  change (do return (← P.utf8 n, ← P.utf8 d)) = _
  rw [hname.utf8_eq, hdescriptor.utf8_eq]
  rfl

theorem CallSiteAt.callSite_eq (h : CallSiteAt P i name descriptor) :
    P.callSite i = .ok (name, descriptor) := by
  obtain ⟨bootstrap, nat, hget, hnat⟩ := h
  unfold Pool.callSite
  rw [hget]
  exact hnat.nameAndType_eq

theorem member_eq {c nat : UInt16} {owner : String} {isInterface : Bool} (hc : ClassAt P c owner)
    (hnat : NameAndTypeAt P nat name descriptor) :
    P.member c nat isInterface = .ok ⟨owner, name, descriptor, isInterface⟩ := by
  unfold Pool.member
  rw [hc.className_eq, hnat.nameAndType_eq]
  rfl

theorem MemberAt.memberRef_eq {m : MemberRef} (h : MemberAt P i m) : P.memberRef i = .ok m := by
  cases h with
  | field h hc hnat => exact (memberRef_of_get h).trans (member_eq hc hnat)
  | method h hc hnat => exact (memberRef_of_get h).trans (member_eq hc hnat)
  | interfaceMethod h hc hnat => exact (memberRef_of_get h).trans (member_eq hc hnat)

/-- A constant that is loaded is looked at for what it names. -/
theorem LoadedAt.reads {constant : Loaded} (h : LoadedAt P i constant) :
    Reads (Layout.readConstant P i) [] constant.symbol := by
  cases h with
  | classLiteral h => exact reads_classLiteral h.className_eq
  | methodType h ht => exact reads_methodType h ht.utf8_eq
  | @value c h hclass htype =>
    have hs : isSymbolic c = false := by
      cases c with
      | classRef n => exact absurd rfl (hclass n)
      | methodType d => exact absurd rfl (htype d)
      | _ => rfl
    exact reads_value h hs

end References

/-! ## One instruction -/

section Steps

variable {P : Pool} {offset size : Nat}

theorem Pads.length_eq {pad : Bytes} (h : Pads offset pad) :
    pad.length = Layout.padding offset := by
  obtain ⟨hlt, haligned⟩ := h
  unfold Layout.padding
  omega

theorem length_flatMap_eq {α : Type} {f : α → Bytes} {n : Nat} (hf : ∀ a, (f a).length = n)
    (l : List α) : (l.flatMap f).length = l.length * n := by
  simp only [List.length_flatMap, hf, sum_map_const]
  exact Nat.mul_comm n l.length

/-- The operations whose operand is the number of a local variable are not the one that has a
second operand. -/
theorem Family.OnLocal.opcode_ne {f : Family} (h : f.OnLocal) (member : Fin f.shape.count) :
    f.opcode member ≠ Instruction.opIncrement := by
  revert member
  cases f with
  | load => decide
  | store => decide
  | leaveSubroutine => decide
  | _ => cases h

theorem MachineInstruction.Valid.operands_tableSwitch {pad : Bytes} {default : UInt32}
    {low high : Int32} {targets : List UInt32}
    (h : (tableSwitch pad default low high targets).Valid P offset) :
    Operands P offset .tableSwitch (tableSwitch pad default low high targets).operands := by
  obtain ⟨hpad, hle, hcount⟩ := h
  have htargets : (targets.flatMap u4Bytes).length = tableSize low high * 4 := by
    rw [length_flatMap_eq length_u4Bytes]
    unfold tableSize
    omega
  simp only [operands, List.append_assoc]
  exact .tableSwitch hpad.length_eq (length_u4Bytes default) hle htargets

theorem MachineInstruction.Valid.operands_lookupSwitch {pad : Bytes} {default : UInt32}
    {pairs : List (UInt32 × UInt32)} (h : (lookupSwitch pad default pairs).Valid P offset) :
    Operands P offset .lookupSwitch (lookupSwitch pad default pairs).operands := by
  obtain ⟨hpad, hcount⟩ := h
  have hn : (UInt32.ofNat pairs.length).toNat = pairs.length :=
    UInt32.toNat_ofNat_of_lt' (Nat.lt_trans hcount (by decide))
  have hpairs : (pairs.flatMap fun p => u4Bytes p.1 ++ u4Bytes p.2).length =
      (UInt32.ofNat pairs.length).toNat * 8 := by
    rw [hn]
    exact length_flatMap_eq (n := 8) (fun p => rfl) pairs
  simp only [operands, List.append_assoc]
  exact .lookupSwitch hpad.length_eq (length_u4Bytes default) (by omega) hpairs

/-- **An instruction is decoded to what it names.** -/
theorem MachineInstruction.Valid.decodes {i : MachineInstruction} (h : i.Valid P offset) :
    Decodes P size offset i.bytes i.symbol.toList := by
  have hl := i.layout_opcode
  cases i with
  | plain f member operands => exact decodes_of_operands hl (.plain operands.length_toList)
  | loadConstant index constant => exact decodes_of_reads hl ((reads_u1 index).bind_nil h.reads)
  | loadConstantWide index constant => exact decodes_constantWide hl h.reads
  | field use index m => exact decodes_field hl h.memberRef_eq
  | method use index m => exact decodes_method hl h.memberRef_eq
  | interfaceMethod index m count zero => exact decodes_interfaceMethod hl h.memberRef_eq rfl
  | callSite index name descriptor zeros => exact decodes_callSite hl h.callSite_eq rfl
  | type use index name => exact decodes_type hl h.className_eq
  | multiArray index name dimensions => exact decodes_multiArray hl h.className_eq dimensions
  | tableSwitch pad default low high targets => exact decodes_of_operands hl h.operands_tableSwitch
  | lookupSwitch pad default pairs => exact decodes_of_operands hl h.operands_lookupSwitch
  | wide f member number =>
    refine decodes_of_operands hl (.wide ?_)
    rw [if_neg (Family.OnLocal.opcode_ne h member)]
    exact length_u2Bytes number
  | wideIncrement number amount => exact decodes_of_operands hl (.wide rfl)

end Steps

/-! ## Runs of instructions -/

section Runs

variable {P : Pool} {offset size : Nat} {l : List MachineInstruction}

theorem filterMap_symbol_cons (i : MachineInstruction) (l : List MachineInstruction) :
    (i :: l).filterMap MachineInstruction.symbol =
      i.symbol.toList ++ l.filterMap MachineInstruction.symbol := by
  rw [List.filterMap_cons]
  cases i.symbol <;> rfl

/-- **Instructions laid end to end are decoded to what they name.** -/
theorem LaidOut.decodes (h : LaidOut P offset l) :
    Decodes P size offset (machineCode l) (l.filterMap MachineInstruction.symbol) := by
  induction l generalizing offset with
  | nil => exact decodes_nil
  | cons i l ih =>
    rw [filterMap_symbol_cons]
    exact h.1.decodes.append (ih h.2)

/-- **Decoding stays in step with the instructions.** Laid end to end from the beginning of a method
body, they are decoded to what they name, in their order; an opcode that no instruction has is
refused where they end. -/
theorem decode_machineCode (P : Pool) (l : List MachineInstruction) (h : LaidOut P 0 l) :
    decode P (machineCode l) = .ok (l.filterMap MachineInstruction.symbol) ∧
      ∀ opcode rest, Undefined opcode → decode P (machineCode l ++ opcode :: rest) =
        .error (.badOpcode opcode (machineCode l).length) := by
  refine ⟨h.decodes.decode_eq, fun opcode rest hundefined => ?_⟩
  have hsize : (machineCode l ++ opcode :: rest).length - (rest.length + 1) =
      (machineCode l).length := by
    rw [List.length_append, List.length_cons, Nat.add_sub_cancel]
  rw [h.decodes.decode_append, decodeRest]
  split
  · rw [hsize]
    rfl
  · rename_i layout hlayout
    rw [layout_eq_none_iff.mpr (undefined_iff.mp hundefined)] at hlayout
    cases hlayout

/-- A pool with one entry of every kind that an instruction refers to. -/
def onePool : Pool :=
  ⟨#[none, some (.utf8 "a/T"), some (.classRef 1), some (.utf8 "m"), some (.utf8 "()V"),
    some (.nameAndType 3 4), some (.interfaceMethodRef 2 5), some (.invokeDynamic 0 5),
    some (.utf8 "I"), some (.nameAndType 3 8), some (.fieldRef 2 9), some (.methodType 4),
    some .integer]⟩

/-- Instructions of every layout. The switches stand at 31 and at 60, so that the first one has no
padding and the second one has three bytes of it. -/
def oneOfEach : List MachineInstruction :=
  [.plain .increment ⟨0, by decide⟩ #v[1, 255], .loadConstant 2 (.classLiteral "a/T"),
    .loadConstant 12 .value, .loadConstantWide 11 (.methodType "()V"),
    .field .get 10 ⟨"a/T", "m", "I", false⟩, .method .static 6 ⟨"a/T", "m", "()V", true⟩,
    .interfaceMethod 6 ⟨"a/T", "m", "()V", true⟩ 1 0, .callSite 7 "m" "()V" 0,
    .type .instanceOf 2 "a/T", .plain .pushByte ⟨0, by decide⟩ #v[0xb8],
    .tableSwitch [] 0 (-1) 1 [0xc1000000, 0xbb, 7], .multiArray 2 "a/T" 3,
    .lookupSwitch [0, 0, 0] 0 [(5, 0xb2b2b2b2), (6, 9)], .wide .store ⟨4, by decide⟩ 300,
    .wideIncrement 300 700, .plain .leave ⟨5, by decide⟩ #v[]]

/-- Operands that would be opcodes elsewhere are passed over, in both switches too. -/
theorem decode_oneOfEach :
    LaidOut onePool 0 oneOfEach ∧ Undefined 0xca ∧
      decode onePool (machineCode oneOfEach) =
        .ok [.loadClass "a/T", .loadMethodType "()V", .field 0xb4 "a/T" "m" "I",
          .method 0xb8 ⟨"a/T", "m", "()V", true⟩, .method 0xb9 ⟨"a/T", "m", "()V", true⟩,
          .callSite "m" "()V", .type 0xc1 "a/T", .multiArray "a/T" 3] ∧
      decode onePool (machineCode oneOfEach ++ [0xca, 0xbb]) = .error (.badOpcode 0xca 99) := by
  have hclass : ClassAt onePool 2 "a/T" := ⟨1, rfl, rfl⟩
  have hnat : NameAndTypeAt onePool 5 "m" "()V" := ⟨3, 4, rfl, rfl, rfl⟩
  have hmethod : MemberAt onePool 6 ⟨"a/T", "m", "()V", true⟩ := .interfaceMethod rfl hclass hnat
  have h : LaidOut onePool 0 oneOfEach := by
    refine .intro trivial <| .intro (.classLiteral hclass) <|
      .intro (.value rfl nofun nofun) <| .intro (.methodType rfl rfl) <|
      .intro (.field rfl hclass ⟨3, 8, rfl, rfl, rfl⟩) <| .intro hmethod <| .intro hmethod <|
      .intro ⟨0, 5, rfl, hnat⟩ <| .intro hclass <| .intro trivial <|
      .intro ⟨by decide, by decide, by decide⟩ <| .intro hclass <|
      .intro ⟨by decide, by decide⟩ <| .intro trivial <| .intro trivial <| .intro trivial trivial
  have hundefined : Undefined 0xca := undefined_iff.mpr (by decide)
  obtain ⟨hok, hrefused⟩ := decode_machineCode onePool oneOfEach h
  exact ⟨h, hundefined, hok, hrefused 0xca [0xbb] hundefined⟩

end Runs

end VirtualClasspath.ClassFile
