import VirtualClasspath.Assembly.Pool
import VirtualClasspath.ClassFile.Pool

/-!
# Reading what was written

`Reads r c a` says that from the bytes `c` the reader `r` gets `a`, and leaves whatever follows them.
It composes along the bytes (`Reads.bind`), through lists of counted length (`reads_table`), and holds
of every number and text (`reads_u2`, `reads_u4`, `decodeText?_textBytes`).
-/

namespace VirtualClasspath.Assembly

open ClassFile (Reader Fault)
open ClassFile.Reader

variable {α β : Type}

/-- From `c` the reader gets `a`, and leaves what follows `c`. -/
def Reads (r : Reader α) (c : Bytes) (a : α) : Prop := ∀ rest, r (c ++ rest) = .ok (a, rest)

theorem reads_pure (a : α) : Reads (pure a) [] a := fun _ => rfl

theorem Reads.bind {r : Reader α} {f : α → Reader β} {c c' : Bytes} {a : α} {b : β}
    (h : Reads r c a) (h' : Reads (f a) c' b) : Reads (r >>= f) (c ++ c') b := by
  intro rest
  rw [List.append_assoc, bind_of_ok (h _)]
  exact h' rest

/-- A reader whose last step takes no bytes. -/
theorem Reads.bind_nil {r : Reader α} {f : α → Reader β} {c : Bytes} {a : α} {b : β}
    (h : Reads r c a) (h' : Reads (f a) [] b) : Reads (r >>= f) c b := by
  have := h.bind h'
  rwa [List.append_nil] at this

/-- A reader whose first step takes no bytes. -/
theorem Reads.nil_bind {r : Reader α} {f : α → Reader β} {c : Bytes} {a : α} {b : β}
    (h : Reads r [] a) (h' : Reads (f a) c b) : Reads (r >>= f) c b :=
  h.bind h'

theorem Reads.map {r : Reader α} {c : Bytes} {a : α} (h : Reads r c a) (f : α → β) :
    Reads (do return f (← r)) c (f a) :=
  h.bind_nil (reads_pure _)

theorem reads_liftResult {x : Except Fault α} {a : α} (h : x = .ok a) : Reads (liftResult x) [] a := by
  intro rest
  rw [h]
  rfl

/-! ## Numbers -/

theorem reads_u1 (b : UInt8) : Reads u1 [b] b := fun _ => rfl

theorem reads_u2 (n : UInt16) : Reads u2 (u2Bytes n) n := by
  intro rest
  have hn := n.toNat_lt
  have h : UInt16.ofNat ((UInt8.ofNat (n.toNat / 256)).toNat * 256 +
      (UInt8.ofNat (n.toNat % 256)).toNat) = n := by
    rw [UInt8.toNat_ofNat', UInt8.toNat_ofNat']
    have hval : n.toNat / 256 % 2 ^ 8 * 256 + n.toNat % 256 % 2 ^ 8 = n.toNat := by omega
    rw [hval, UInt16.ofNat_toNat]
  exact congrArg (fun m => Except.ok (m, rest)) h

theorem length_u2Bytes (n : UInt16) : (u2Bytes n).length = 2 := rfl

theorem reads_u4 (n : UInt32) : Reads u4 (u4Bytes n) n := by
  intro rest
  have hn := n.toNat_lt
  have h : UInt32.ofNat ((((UInt8.ofNat ((UInt16.ofNat (n.toNat / 65536)).toNat / 256)).toNat * 256 +
      (UInt8.ofNat ((UInt16.ofNat (n.toNat / 65536)).toNat % 256)).toNat) * 256 +
      (UInt8.ofNat ((UInt16.ofNat (n.toNat % 65536)).toNat / 256)).toNat) * 256 +
      (UInt8.ofNat ((UInt16.ofNat (n.toNat % 65536)).toNat % 256)).toNat) = n := by
    simp only [UInt8.toNat_ofNat', UInt16.toNat_ofNat']
    have hval : ((n.toNat / 65536 % 2 ^ 16 / 256 % 2 ^ 8 * 256 +
        n.toNat / 65536 % 2 ^ 16 % 256 % 2 ^ 8) * 256 +
        n.toNat % 65536 % 2 ^ 16 / 256 % 2 ^ 8) * 256 +
        n.toNat % 65536 % 2 ^ 16 % 256 % 2 ^ 8 = n.toNat := by omega
    rw [hval, UInt32.ofNat_toNat]
  exact congrArg (fun m => Except.ok (m, rest)) h

theorem length_u4Bytes (n : UInt32) : (u4Bytes n).length = 4 := rfl

theorem length_u8Bytes (n : UInt64) : (u8Bytes n).length = 8 := rfl

theorem reads_i4 (n : Int32) : Reads i4 (u4Bytes n.toUInt32) n :=
  (reads_u4 n.toUInt32).map UInt32.toInt32

/-! ## Stretches of bytes -/

theorem reads_take {n : Nat} {c : Bytes} (h : c.length = n) : Reads (take n) c c := by
  intro rest
  subst h
  unfold take
  rw [List.take_left, if_pos rfl, List.drop_left]

theorem reads_skip {n : Nat} {c : Bytes} (h : c.length = n) : Reads (skip n) c () :=
  (reads_take h).bind_nil (reads_pure ())

/-- Bytes that are passed over before the result. -/
theorem reads_skip_pure {n : Nat} {c : Bytes} (h : c.length = n) (b : β) :
    Reads (do
      skip n
      return b) c b :=
  (reads_skip h).bind_nil (reads_pure b)

/-! ## Lists -/

theorem reads_table {r : Reader α} {n : Nat} {as : List α} {c : Bytes}
    (h : Reads (repeated r n) c as) (hn : n < 65536) :
    Reads (table r) (u2Bytes (.ofNat n) ++ c) as := by
  refine (reads_u2 (.ofNat n)).bind ?_
  have hcount : (UInt16.ofNat n).toNat = n := UInt16.toNat_ofNat_of_lt' hn
  rw [hcount]
  exact h

/-! ## Texts -/

theorem decodeText?_textBytes (s : String) : ClassFile.decodeText? (textBytes s) = some s := by
  unfold ClassFile.decodeText? textBytes
  have h : String.fromUTF8? ⟨s.toUTF8.data.toList.toArray⟩ = some s := by
    unfold String.fromUTF8?
    rw [Array.toArray_toList]
    exact dif_pos s.isValidUTF8
  rw [h]

end VirtualClasspath.Assembly
