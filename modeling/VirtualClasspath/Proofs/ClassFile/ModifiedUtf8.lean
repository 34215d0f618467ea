import VirtualClasspath.ClassFile.Pool
import VirtualClasspath.Proofs.Assembly.Bytes

/-!
# The texts of a class file, decoded

A text of a class file is read in one of two ways: as UTF-8, or, if it is none, as groups of bytes
that write UTF-16 units. What either way accepts is described here without it: UTF-8 by the
library's own encoder, the other by `ByteGroup`, the groups as data, and by `unitsOf`, the units of
a character. `units?_eq_some_iff` and `charsOfUnits?_eq_some_iff` say that the two steps of the
second way undo the two descriptions.

The two ways never disagree (`eq_of_decodeGroups?`). They share the characters of the basic plane,
which both write with the same bytes; a character beyond it takes four bytes in UTF-8, and the first
of these begins no group. **`decodeText?_exact`** puts it together: both encodings of a text are
read as the text, no bytes have two readings, and the bytes without a reading are those that neither
description covers.
-/

namespace VirtualClasspath.ClassFile

/-! ## Groups of bytes -/

/-- A group of one, two or three bytes, by the bits that the bytes carry. -/
inductive ByteGroup
  | one (a : Fin 128)
  | two (a : Fin 32) (b : Fin 64)
  | three (a : Fin 16) (b c : Fin 64)

namespace ByteGroup

/-- The bytes of a group. -/
def bytes : ByteGroup → Bytes
  | one a => [.ofNat a]
  | two a b => [.ofNat (0xC0 + a), .ofNat (0x80 + b)]
  | three a b c => [.ofNat (0xE0 + a), .ofNat (0x80 + b), .ofNat (0x80 + c)]

/-- The UTF-16 unit that a group writes. -/
def unit : ByteGroup → Nat
  | one a => a
  | two a b => a * 64 + b
  | three a b c => a * 4096 + b * 64 + c

theorem unit_lt (g : ByteGroup) : g.unit < 0x10000 := by
  cases g <;> simp only [unit] <;> omega

end ByteGroup

/-! ### Bytes by their high bits -/

theorem and_C0_iff (a : UInt8) : a &&& 0xC0 = 0x80 ↔ a.toNat / 64 = 2 := by
  have h : ∀ n : Fin 256, UInt8.ofNat n &&& 0xC0 = 0x80 ↔ n.val / 64 = 2 := by decide +kernel
  simpa using h ⟨a.toNat, a.toNat_lt⟩

theorem and_E0_iff (a : UInt8) : a &&& 0xE0 = 0xC0 ↔ a.toNat / 32 = 6 := by
  have h : ∀ n : Fin 256, UInt8.ofNat n &&& 0xE0 = 0xC0 ↔ n.val / 32 = 6 := by decide +kernel
  simpa using h ⟨a.toNat, a.toNat_lt⟩

theorem and_F0_iff (a : UInt8) : a &&& 0xF0 = 0xE0 ↔ a.toNat / 16 = 14 := by
  have h : ∀ n : Fin 256, UInt8.ofNat n &&& 0xF0 = 0xE0 ↔ n.val / 16 = 14 := by decide +kernel
  simpa using h ⟨a.toNat, a.toNat_lt⟩

theorem lt_80_iff (a : UInt8) : a < 0x80 ↔ a.toNat < 128 := UInt8.lt_iff_toNat_lt

theorem continuation?_eq_some_iff {b : UInt8} {x : Nat} :
    continuation? b = some x ↔ b.toNat / 64 = 2 ∧ b.toNat % 64 = x := by
  simp only [continuation?, and_C0_iff]
  split
  · rename_i h
    simp [h]
  · rename_i h
    simp [h]

/-! ### One step of the reading -/

section Step

variable {a b c : UInt8} {rest : Bytes}

theorem units?_one (ha : a.toNat < 128) :
    units? (a :: rest) = (units? rest).map (a.toNat :: ·) := by
  rw [units?.eq_def]
  simp only [lt_80_iff, ha, if_true]

theorem units?_two (ha : a.toNat / 32 = 6) (hb : b.toNat / 64 = 2) :
    units? (a :: b :: rest) =
      (units? rest).map ((a.toNat % 32 * 64 + b.toNat % 64) :: ·) := by
  have hfirst : ¬ a.toNat < 128 := by omega
  rw [units?.eq_def]
  simp only [lt_80_iff, and_E0_iff, hfirst, ha, if_true, if_false,
    continuation?_eq_some_iff.mpr ⟨hb, rfl⟩]
  cases units? rest <;> rfl

theorem units?_three (ha : a.toNat / 16 = 14) (hb : b.toNat / 64 = 2) (hc : c.toNat / 64 = 2) :
    units? (a :: b :: c :: rest) =
      (units? rest).map ((a.toNat % 16 * 4096 + b.toNat % 64 * 64 + c.toNat % 64) :: ·) := by
  have hfirst : ¬ a.toNat < 128 := by omega
  have hsecond : ¬ a.toNat / 32 = 6 := by omega
  rw [units?.eq_def]
  simp only [lt_80_iff, and_E0_iff, and_F0_iff, hfirst, hsecond, ha, if_true, if_false,
    continuation?_eq_some_iff.mpr ⟨hb, rfl⟩, continuation?_eq_some_iff.mpr ⟨hc, rfl⟩]
  cases units? rest <;> rfl

/-- A byte of four high bits begins no group. -/
theorem units?_four (ha : a.toNat / 16 = 15) : units? (a :: rest) = none := by
  have hfirst : ¬ a.toNat < 128 := by omega
  have hsecond : ¬ a.toNat / 32 = 6 := by omega
  have hthird : ¬ a.toNat / 16 = 14 := by omega
  rw [units?.eq_def]
  simp only [lt_80_iff, and_E0_iff, and_F0_iff, hfirst, hsecond, hthird, if_false]

end Step

theorem toNat_byte {n : Nat} (h : n < 256) : (UInt8.ofNat n).toNat = n :=
  UInt8.toNat_ofNat_of_lt' h

theorem ofNat_eq {a : UInt8} {n : Nat} (h : n = a.toNat) : UInt8.ofNat n = a := by
  rw [h, UInt8.ofNat_toNat]

theorem units?_bytes (g : ByteGroup) (rest : Bytes) :
    units? (g.bytes ++ rest) = (units? rest).map (g.unit :: ·) := by
  cases g with
  | one a =>
    have ha : (UInt8.ofNat a).toNat = a := toNat_byte (by omega)
    rw [ByteGroup.bytes, List.singleton_append, units?_one (by omega), ha, ByteGroup.unit]
  | two a b =>
    have ha : (UInt8.ofNat (0xC0 + a)).toNat = 0xC0 + a := toNat_byte (by omega)
    have hb : (UInt8.ofNat (0x80 + b)).toNat = 0x80 + b := toNat_byte (by omega)
    have hunit : (0xC0 + a.val) % 32 * 64 + (0x80 + b.val) % 64 = a * 64 + b := by omega
    rw [ByteGroup.bytes, List.cons_append, List.singleton_append, units?_two (by omega) (by omega),
      ha, hb, hunit, ByteGroup.unit]
  | three a b c =>
    have ha : (UInt8.ofNat (0xE0 + a)).toNat = 0xE0 + a := toNat_byte (by omega)
    have hb : (UInt8.ofNat (0x80 + b)).toNat = 0x80 + b := toNat_byte (by omega)
    have hc : (UInt8.ofNat (0x80 + c)).toNat = 0x80 + c := toNat_byte (by omega)
    have hunit : (0xE0 + a.val) % 16 * 4096 + (0x80 + b.val) % 64 * 64 + (0x80 + c.val) % 64 =
        a * 4096 + b * 64 + c := by omega
    rw [ByteGroup.bytes, List.cons_append, List.cons_append, List.singleton_append,
      units?_three (by omega) (by omega) (by omega), ha, hb, hc, hunit, ByteGroup.unit]

theorem units?_flatMap_bytes (gs : List ByteGroup) :
    units? (gs.flatMap ByteGroup.bytes) = some (gs.map ByteGroup.unit) := by
  induction gs with
  | nil => rfl
  | cons g gs ih =>
    rw [List.flatMap_cons, units?_bytes, ih]
    rfl

/-- **The units that bytes write are those of the groups that they split into.** -/
theorem units?_eq_some_iff {bytes : Bytes} {us : List Nat} :
    units? bytes = some us ↔
      ∃ gs : List ByteGroup, gs.flatMap ByteGroup.bytes = bytes ∧ gs.map ByteGroup.unit = us := by
  constructor
  · intro h
    fun_induction units? bytes generalizing us with
    | case1 =>
      cases h
      exact ⟨[], rfl, rfl⟩
    | case2 a rest ha ih =>
      obtain ⟨vs, hvs, rfl⟩ := Option.map_eq_some_iff.mp h
      obtain ⟨gs, rfl, rfl⟩ := ih hvs
      refine ⟨.one ⟨a.toNat, (lt_80_iff a).mp ha⟩ :: gs, ?_, rfl⟩
      rw [List.flatMap_cons, ByteGroup.bytes, UInt8.ofNat_toNat]
      rfl
    | case3 a hfirst ha b rest ih =>
      simp only [Option.bind_eq_bind, Option.bind_eq_some_iff, continuation?_eq_some_iff,
        Option.pure_def, Option.some.injEq] at h
      obtain ⟨_, ⟨hb, rfl⟩, vs, hvs, rfl⟩ := h
      obtain ⟨gs, rfl, rfl⟩ := ih hvs
      have ha := (and_E0_iff a).mp ha
      have hbytes : [UInt8.ofNat (0xC0 + a.toNat % 32), .ofNat (0x80 + b.toNat % 64)] = [a, b] := by
        rw [ofNat_eq (a := a) (by omega), ofNat_eq (a := b) (by omega)]
      refine ⟨.two ⟨a.toNat % 32, by omega⟩ ⟨b.toNat % 64, by omega⟩ :: gs, ?_, rfl⟩
      exact congrArg (· ++ gs.flatMap ByteGroup.bytes) hbytes
    | case5 a hfirst hsecond ha b c rest ih =>
      simp only [Option.bind_eq_bind, Option.bind_eq_some_iff, continuation?_eq_some_iff,
        Option.pure_def, Option.some.injEq] at h
      obtain ⟨_, ⟨hb, rfl⟩, _, ⟨hc, rfl⟩, vs, hvs, rfl⟩ := h
      obtain ⟨gs, rfl, rfl⟩ := ih hvs
      have ha := (and_F0_iff a).mp ha
      have hbytes : [UInt8.ofNat (0xE0 + a.toNat % 16), .ofNat (0x80 + b.toNat % 64),
          .ofNat (0x80 + c.toNat % 64)] = [a, b, c] := by
        rw [ofNat_eq (a := a) (by omega), ofNat_eq (a := b) (by omega),
          ofNat_eq (a := c) (by omega)]
      refine ⟨.three ⟨a.toNat % 16, by omega⟩ ⟨b.toNat % 64, by omega⟩
        ⟨c.toNat % 64, by omega⟩ :: gs, ?_, rfl⟩
      exact congrArg (· ++ gs.flatMap ByteGroup.bytes) hbytes
    | case4 | case6 | case7 => cases h
  · rintro ⟨gs, rfl, rfl⟩
    exact units?_flatMap_bytes gs

/-! ## Units of characters -/

/-- The UTF-16 units of a character: one, or two beyond the basic plane. -/
def unitsOf (c : Char) : List Nat :=
  if c.toNat < 0x10000 then [c.toNat]
  else [0xD800 + (c.toNat - 0x10000) / 1024, 0xDC00 + (c.toNat - 0x10000) % 1024]

theorem toNat_range (c : Char) : c.toNat < 0xD800 ∨ 0xE000 ≤ c.toNat ∧ c.toNat < 0x110000 := c.valid

theorem toNat_ofNat_of_range {n : Nat} (h : n < 0xD800 ∨ 0xE000 ≤ n ∧ n < 0x110000) :
    (Char.ofNat n).toNat = n := by
  have hvalid : n.isValidChar := h.imp_right fun h => ⟨Nat.lt_of_succ_le h.1, h.2⟩
  rw [Char.ofNat, dif_pos hvalid]
  rfl

theorem isHighSurrogate_iff {u : Nat} : isHighSurrogate u = true ↔ 0xD800 ≤ u ∧ u < 0xDC00 := by
  simp [isHighSurrogate]

theorem isLowSurrogate_iff {u : Nat} : isLowSurrogate u = true ↔ 0xDC00 ≤ u ∧ u < 0xE000 := by
  simp [isLowSurrogate]

theorem charsOfUnits?_unitsOf (c : Char) (rest : List Nat) :
    charsOfUnits? (unitsOf c ++ rest) = (charsOfUnits? rest).map (c :: ·) := by
  have hc := toNat_range c
  by_cases hplane : c.toNat < 0x10000
  · have hhigh : ¬ isHighSurrogate c.toNat = true := by rw [isHighSurrogate_iff]; omega
    have hlow : ¬ isLowSurrogate c.toNat = true := by rw [isLowSurrogate_iff]; omega
    rw [unitsOf, if_pos hplane, List.singleton_append, charsOfUnits?.eq_def]
    simp only [hhigh, hlow, if_false, Char.ofNat_toNat, Bool.false_eq_true]
  · have hhigh : isHighSurrogate (0xD800 + (c.toNat - 0x10000) / 1024) = true := by
      rw [isHighSurrogate_iff]; omega
    have hlow : isLowSurrogate (0xDC00 + (c.toNat - 0x10000) % 1024) = true := by
      rw [isLowSurrogate_iff]; omega
    have hpair : 0x10000 + (0xD800 + (c.toNat - 0x10000) / 1024 - 0xD800) * 1024 +
        (0xDC00 + (c.toNat - 0x10000) % 1024 - 0xDC00) = c.toNat := by omega
    rw [unitsOf, if_neg hplane, List.cons_append, List.singleton_append, charsOfUnits?.eq_def]
    simp only [hhigh, hlow, if_true, hpair, Char.ofNat_toNat]

theorem charsOfUnits?_flatMap_unitsOf (cs : List Char) :
    charsOfUnits? (cs.flatMap unitsOf) = some cs := by
  induction cs with
  | nil => rfl
  | cons c cs ih =>
    rw [List.flatMap_cons, charsOfUnits?_unitsOf, ih]
    rfl

/-- **The characters that units write are those whose units they are.** -/
theorem charsOfUnits?_eq_some_iff {us : List Nat} (hus : ∀ u ∈ us, u < 0x10000) {cs : List Char} :
    charsOfUnits? us = some cs ↔ us = cs.flatMap unitsOf := by
  constructor
  · intro h
    fun_induction charsOfUnits? us generalizing cs with
    | case1 =>
      cases h
      rfl
    | case2 u hhigh v rest hlow ih =>
      obtain ⟨ds, hds, rfl⟩ := Option.map_eq_some_iff.mp h
      rw [isHighSurrogate_iff] at hhigh
      rw [isLowSurrogate_iff] at hlow
      have hpair : unitsOf (.ofNat (0x10000 + (u - 0xD800) * 1024 + (v - 0xDC00))) = [u, v] := by
        have hu : 0xD800 + (0x10000 + (u - 0xD800) * 1024 + (v - 0xDC00) - 0x10000) / 1024 = u := by
          omega
        have hv : 0xDC00 + (0x10000 + (u - 0xD800) * 1024 + (v - 0xDC00) - 0x10000) % 1024 = v := by
          omega
        rw [unitsOf, toNat_ofNat_of_range (by omega), if_neg (by omega), hu, hv]
      rw [List.flatMap_cons, hpair, ← ih (fun w hw => hus w (by simp [hw])) hds]
      rfl
    | case6 u rest hhigh hlow ih =>
      obtain ⟨ds, hds, rfl⟩ := Option.map_eq_some_iff.mp h
      rw [isHighSurrogate_iff] at hhigh
      rw [isLowSurrogate_iff] at hlow
      have hu := hus u List.mem_cons_self
      have hone : unitsOf (.ofNat u) = [u] := by
        rw [unitsOf, toNat_ofNat_of_range (by omega), if_pos hu]
      rw [List.flatMap_cons, hone, ← ih (fun w hw => hus w (by simp [hw])) hds]
      rfl
    | case3 | case4 | case5 => cases h
  · rintro rfl
    exact charsOfUnits?_flatMap_unitsOf cs

/-- The characters that groups write. -/
theorem decodeGroups?_eq_some_iff {bytes : Bytes} {s : String} :
    decodeGroups? bytes = some s ↔
      ∃ gs : List ByteGroup, gs.flatMap ByteGroup.bytes = bytes ∧
        gs.map ByteGroup.unit = s.toList.flatMap unitsOf := by
  have hlt : ∀ gs : List ByteGroup, ∀ u ∈ gs.map ByteGroup.unit, u < 0x10000 := fun gs u hu => by
    obtain ⟨g, -, rfl⟩ := List.mem_map.mp hu
    exact g.unit_lt
  unfold decodeGroups?
  rw [Option.map_eq_some_iff]
  constructor
  · rintro ⟨cs, h, rfl⟩
    obtain ⟨us, hus, hcs⟩ := Option.bind_eq_some_iff.mp h
    obtain ⟨gs, hgs, rfl⟩ := units?_eq_some_iff.mp hus
    rw [String.toList_ofList]
    exact ⟨gs, hgs, (charsOfUnits?_eq_some_iff (hlt gs)).mp hcs⟩
  · rintro ⟨gs, rfl, hunits⟩
    refine ⟨s.toList, ?_, String.ofList_toList⟩
    exact Option.bind_eq_some_iff.mpr
      ⟨_, units?_flatMap_bytes gs, (charsOfUnits?_eq_some_iff (hlt gs)).mpr hunits⟩

/-! ## The encoding of class files -/

/-- The bytes of a unit: as many as it needs, and two for NUL. -/
def unitBytes (u : Nat) : Bytes :=
  if u ≠ 0 ∧ u < 0x80 then [.ofNat u]
  else if u < 0x800 then [.ofNat (0xC0 + u / 64), .ofNat (0x80 + u % 64)]
  else [.ofNat (0xE0 + u / 4096), .ofNat (0x80 + u / 64 % 64), .ofNat (0x80 + u % 64)]

/-- The bytes of a text in a class file: those of its UTF-16 units. -/
def modifiedBytes (s : String) : Bytes := (s.toList.flatMap unitsOf).flatMap unitBytes

theorem unitsOf_lt {c : Char} {u : Nat} (hu : u ∈ unitsOf c) : u < 0x10000 := by
  have hc := toNat_range c
  unfold unitsOf at hu
  split at hu
  · rename_i h
    rwa [List.mem_singleton.mp hu]
  · rcases List.mem_cons.mp hu with rfl | hu
    · omega
    · rw [List.mem_singleton.mp hu]
      omega

theorem exists_group {u : Nat} (h : u < 0x10000) :
    ∃ g : ByteGroup, g.bytes = unitBytes u ∧ g.unit = u := by
  unfold unitBytes
  split
  · exact ⟨.one ⟨u, by omega⟩, rfl, rfl⟩
  · split
    · refine ⟨.two ⟨u / 64, by omega⟩ ⟨u % 64, by omega⟩, rfl, ?_⟩
      simp only [ByteGroup.unit]
      omega
    · refine ⟨.three ⟨u / 4096, by omega⟩ ⟨u / 64 % 64, by omega⟩ ⟨u % 64, by omega⟩, rfl, ?_⟩
      simp only [ByteGroup.unit]
      omega

theorem exists_groups {us : List Nat} (h : ∀ u ∈ us, u < 0x10000) :
    ∃ gs : List ByteGroup, gs.flatMap ByteGroup.bytes = us.flatMap unitBytes ∧
      gs.map ByteGroup.unit = us := by
  induction us with
  | nil => exact ⟨[], rfl, rfl⟩
  | cons u us ih =>
    obtain ⟨g, hbytes, hunit⟩ := exists_group (h u List.mem_cons_self)
    obtain ⟨gs, hgs, hunits⟩ := ih fun v hv => h v (List.mem_cons_of_mem u hv)
    refine ⟨g :: gs, ?_, ?_⟩
    · rw [List.flatMap_cons, List.flatMap_cons, hbytes, hgs]
    · rw [List.map_cons, hunit, hunits]

/-- What is written as groups is read back from them. -/
theorem decodeGroups?_modifiedBytes (s : String) : decodeGroups? (modifiedBytes s) = some s := by
  refine decodeGroups?_eq_some_iff.mpr (exists_groups fun u hu => ?_)
  obtain ⟨c, -, hc⟩ := List.mem_flatMap.mp hu
  exact unitsOf_lt hc

example : decodeGroups? [0xC0, 0x80, 0xED, 0xA0, 0xBD, 0xED, 0xB8, 0x80] = some "\x00😀" := by
  decide +kernel

/-! ## UTF-8 -/

theorem toUTF8_toList (s : String) :
    s.toUTF8.data.toList = s.toList.flatMap String.utf8EncodeChar := by
  rw [String.toUTF8_eq_toByteArray, ← String.utf8Encode_toList]
  exact List.toList_data_toByteArray

/-- The bytes that are read as UTF-8 are those of the text. -/
theorem fromUTF8?_eq_some_iff {bytes : Bytes} {s : String} :
    String.fromUTF8? ⟨bytes.toArray⟩ = some s ↔ bytes = s.toUTF8.data.toList := by
  unfold String.fromUTF8?
  constructor
  · intro h
    split at h
    · cases h
      rfl
    · cases h
  · rintro rfl
    rw [Array.toArray_toList]
    exact dif_pos s.isValidUTF8

theorem fromUTF8?_eq_none_iff {bytes : Bytes} :
    String.fromUTF8? ⟨bytes.toArray⟩ = none ↔ ¬ ByteArray.IsValidUTF8 ⟨bytes.toArray⟩ := by
  unfold String.fromUTF8?
  split
  · rename_i h
    simp [h]
  · rename_i h
    simp [h]

/-- Of the basic plane, class files write NUL in a way of their own and the rest as UTF-8 does. -/
theorem utf8EncodeChar_eq {c : Char} (h : c.toNat < 0x10000) (hne : c.toNat ≠ 0) :
    String.utf8EncodeChar c = unitBytes c.toNat := by
  have hval : c.val.toNat = c.toNat := rfl
  unfold String.utf8EncodeChar unitBytes
  simp only [hval]
  by_cases hone : c.toNat < 0x80
  · rw [if_pos (Nat.le_of_lt_succ hone), if_pos ⟨hne, hone⟩]
  · have hmore : ¬ (c.toNat ≠ 0 ∧ c.toNat < 0x80) := fun h => hone h.2
    rw [if_neg (mt Nat.lt_succ_of_le hone), if_neg hmore]
    by_cases htwo : c.toNat < 0x800
    · have hhigh : c.toNat / 64 % 32 = c.toNat / 64 := by omega
      rw [if_pos (Nat.le_of_lt_succ htwo), if_pos htwo, hhigh, Nat.add_comm 0xC0,
        Nat.add_comm 0x80]
    · have hhigh : c.toNat / 4096 % 16 = c.toNat / 4096 := by omega
      rw [if_neg (mt Nat.lt_succ_of_le htwo), if_pos (Nat.le_of_lt_succ h), if_neg htwo, hhigh,
        Nat.add_comm 0xE0, Nat.add_comm 0x80, Nat.add_comm 0x80]

/-- A character of the basic plane is written in UTF-8 by a group for its code. -/
theorem exists_group_utf8 {c : Char} (h : c.toNat < 0x10000) :
    ∃ g : ByteGroup, g.bytes = String.utf8EncodeChar c ∧ g.unit = c.toNat := by
  by_cases hne : c.toNat = 0
  · have hc : c = Char.ofNat 0 := by rw [← hne, Char.ofNat_toNat]
    subst hc
    exact ⟨.one 0, rfl, rfl⟩
  · rw [utf8EncodeChar_eq h hne]
    exact exists_group h

/-- A character beyond the basic plane begins with a byte that no group has. -/
theorem units?_utf8EncodeChar_eq_none {c : Char} (h : ¬ c.toNat < 0x10000) (rest : Bytes) :
    units? (String.utf8EncodeChar c ++ rest) = none := by
  have hval : c.val.toNat = c.toNat := rfl
  have hc := toNat_range c
  unfold String.utf8EncodeChar
  simp only [hval]
  rw [if_neg (by omega), if_neg (by omega), if_neg (by omega)]
  refine units?_four ?_
  rw [toNat_byte (by omega)]
  omega

/-- Of UTF-8, the groups write the characters of the basic plane, and nothing else. -/
theorem eq_of_units?_utf8 {cs : List Char} {us : List Nat}
    (h : units? (cs.flatMap String.utf8EncodeChar) = some us) : us = cs.flatMap unitsOf := by
  induction cs generalizing us with
  | nil =>
    cases h
    rfl
  | cons c cs ih =>
    rw [List.flatMap_cons] at h
    by_cases hc : c.toNat < 0x10000
    · obtain ⟨g, hbytes, hunit⟩ := exists_group_utf8 hc
      rw [← hbytes, units?_bytes, hunit] at h
      obtain ⟨vs, hvs, rfl⟩ := Option.map_eq_some_iff.mp h
      rw [List.flatMap_cons, unitsOf, if_pos hc, ih hvs]
      rfl
    · rw [units?_utf8EncodeChar_eq_none hc] at h
      cases h

/-- **The two ways never disagree.** -/
theorem eq_of_decodeGroups? {bytes : Bytes} {s t : String}
    (hs : String.fromUTF8? ⟨bytes.toArray⟩ = some s) (ht : decodeGroups? bytes = some t) :
    s = t := by
  rw [fromUTF8?_eq_some_iff, toUTF8_toList] at hs
  obtain ⟨gs, hgs, hunits⟩ := decodeGroups?_eq_some_iff.mp ht
  have hus : gs.map ByteGroup.unit = s.toList.flatMap unitsOf :=
    eq_of_units?_utf8 (by rw [← hs, ← hgs, units?_flatMap_bytes])
  have hchars : some s.toList = some t.toList := by
    rw [← charsOfUnits?_flatMap_unitsOf s.toList, ← charsOfUnits?_flatMap_unitsOf t.toList, ← hus,
      hunits]
  exact String.toList_inj.mp (Option.some.inj hchars)

/-! ## Texts -/

theorem decodeText?_eq_none_iff {bytes : Bytes} :
    decodeText? bytes = none ↔
      String.fromUTF8? ⟨bytes.toArray⟩ = none ∧ decodeGroups? bytes = none := by
  unfold decodeText?
  split
  · rename_i h
    simp [h]
  · rename_i h
    simp [h]

/-- What is read as groups is the text, whichever way comes first. -/
theorem decodeText?_of_decodeGroups? {bytes : Bytes} {s : String}
    (h : decodeGroups? bytes = some s) :
    decodeText? bytes = some s := by
  unfold decodeText?
  split
  · rename_i t ht
    rw [eq_of_decodeGroups? ht h]
  · exact h

theorem decodeGroups?_eq_none_iff {bytes : Bytes} :
    decodeGroups? bytes = none ↔
      (¬ ∃ gs : List ByteGroup, gs.flatMap ByteGroup.bytes = bytes) ∨
        ∃ gs : List ByteGroup, gs.flatMap ByteGroup.bytes = bytes ∧
          ¬ ∃ cs : List Char, gs.map ByteGroup.unit = cs.flatMap unitsOf := by
  rw [Option.eq_none_iff_forall_ne_some]
  simp only [ne_eq, decodeGroups?_eq_some_iff]
  constructor
  · intro h
    by_cases hsplit : ∃ gs : List ByteGroup, gs.flatMap ByteGroup.bytes = bytes
    · obtain ⟨gs, hgs⟩ := hsplit
      refine Or.inr ⟨gs, hgs, fun ⟨cs, hcs⟩ => h (String.ofList cs) ⟨gs, hgs, ?_⟩⟩
      rw [hcs, String.toList_ofList]
    · exact Or.inl hsplit
  · rintro (hno | ⟨gs, hgs, hunits⟩) s ⟨gs', hgs', hs⟩
    · exact hno ⟨gs', hgs'⟩
    · -- The units are a function of the bytes.
      have hsame : some (gs.map ByteGroup.unit) = some (gs'.map ByteGroup.unit) := by
        rw [← units?_flatMap_bytes, ← units?_flatMap_bytes, hgs, hgs']
      exact hunits ⟨s.toList, (Option.some.inj hsame).trans hs⟩

/-- An entry of the pool is read as its text, or not at all. -/
theorem readText_entry {bytes : Bytes} (h : bytes.length < 65536) (rest : Bytes) :
    Pool.readText (Assembly.u2Bytes (.ofNat bytes.length) ++ (bytes ++ rest)) =
      match decodeText? bytes with
      | some s => .ok (.utf8 s, rest)
      | none => .error .badText := by
  have hlength : (UInt16.ofNat bytes.length).toNat = bytes.length := UInt16.toNat_ofNat_of_lt' h
  unfold Pool.readText
  rw [Reader.bind_of_ok (Assembly.reads_u2 _ _),
    Reader.bind_of_ok (Assembly.reads_take hlength.symm rest)]
  cases decodeText? bytes <;> rfl

/-- **Texts of class files are decoded, and in one way.** Both UTF-8 and the encoding of class files
are read as the text that they write. Bytes that can be read as UTF-8 and as groups are the same
text either way. No text are those bytes which are no UTF-8 and either do not split into groups or
split into groups whose units are not those of any characters; an entry of the pool with such bytes
is refused. -/
theorem decodeText?_exact :
    (∀ s : String, decodeText? s.toUTF8.data.toList = some s ∧
      decodeText? (modifiedBytes s) = some s) ∧
    (∀ (bytes : Bytes) (s t : String), String.fromUTF8? ⟨bytes.toArray⟩ = some s →
      decodeGroups? bytes = some t → s = t) ∧
    ∀ bytes : Bytes,
      (decodeText? bytes = none ↔
        ¬ ByteArray.IsValidUTF8 ⟨bytes.toArray⟩ ∧
          ((¬ ∃ gs : List ByteGroup, gs.flatMap ByteGroup.bytes = bytes) ∨
            ∃ gs : List ByteGroup, gs.flatMap ByteGroup.bytes = bytes ∧
              ¬ ∃ cs : List Char, gs.map ByteGroup.unit = cs.flatMap unitsOf)) ∧
      ∀ rest, bytes.length < 65536 →
        (Pool.readText (Assembly.u2Bytes (.ofNat bytes.length) ++ (bytes ++ rest)) =
          .error .badText ↔ decodeText? bytes = none) := by
  refine ⟨fun s => ⟨Assembly.decodeText?_textBytes s, ?_⟩, fun _ _ _ hs ht =>
    eq_of_decodeGroups? hs ht, fun bytes => ⟨?_, fun rest h => ?_⟩⟩
  · exact decodeText?_of_decodeGroups? (decodeGroups?_modifiedBytes s)
  · rw [decodeText?_eq_none_iff, fromUTF8?_eq_none_iff, decodeGroups?_eq_none_iff]
  · rw [readText_entry h]
    cases decodeText? bytes with
    | none => simp
    | some s => simp

/-- Bytes that are read either way, and half a pair, which is not read. -/
theorem decodeText?_exact_half :
    (∃ s t, String.fromUTF8? ⟨[0x61, 0xC3, 0xA9].toArray⟩ = some s ∧
      decodeGroups? [0x61, 0xC3, 0xA9] = some t ∧ s = "aé" ∧ s = t) ∧
    [0xED, 0xA0, 0xBD].length < 65536 ∧ decodeText? [0xED, 0xA0, 0xBD] = none ∧
      Pool.readText [0, 3, 0xED, 0xA0, 0xBD] = .error .badText := by
  have hutf8 : String.fromUTF8? ⟨[0x61, 0xC3, 0xA9].toArray⟩ = some "aé" :=
    fromUTF8?_eq_some_iff.mpr (by decide +kernel)
  have hgroups : decodeGroups? [0x61, 0xC3, 0xA9] = some "aé" := by decide +kernel
  have hlength : [0xED, 0xA0, 0xBD].length < 65536 := by decide
  have hnone : decodeText? [0xED, 0xA0, 0xBD] = none := by decide +kernel
  obtain ⟨-, hagree, hrefuse⟩ := decodeText?_exact
  exact ⟨⟨_, _, hutf8, hgroups, rfl, hagree _ _ _ hutf8 hgroups⟩, hlength, hnone,
    ((hrefuse [0xED, 0xA0, 0xBD]).2 [] hlength).mpr hnone⟩

end VirtualClasspath.ClassFile
