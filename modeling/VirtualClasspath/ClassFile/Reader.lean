import VirtualClasspath.ClassFile.Fault

/-!
# Reading bytes

A `Reader` takes a start of a byte string and leaves the rest, or meets a fault. Numbers are
big-endian. A reader only looks at the bytes that it takes: `Reader.Shrinks` says that what is left
is no longer than what there was, which bounds every loop over a byte string.
-/

namespace VirtualClasspath

/-- A string of bytes. -/
abbrev Bytes := List UInt8

namespace ClassFile

/-- Reads a value from the start of a byte string. -/
abbrev Reader := StateT Bytes (Except Fault)

namespace Reader

/-- One byte. -/
def u1 : Reader UInt8
  | [] => .error .unexpectedEnd
  | b :: rest => .ok (b, rest)

/-- A number of two bytes. -/
def u2 : Reader UInt16
  | a :: b :: rest => .ok (.ofNat (a.toNat * 256 + b.toNat), rest)
  | _ => .error .unexpectedEnd

/-- A number of four bytes. -/
def u4 : Reader UInt32
  | a :: b :: c :: d :: rest =>
    .ok (.ofNat (((a.toNat * 256 + b.toNat) * 256 + c.toNat) * 256 + d.toNat), rest)
  | _ => .error .unexpectedEnd

/-- A signed number of four bytes. -/
def i4 : Reader Int32 := return (← u4).toInt32

/-- The next `n` bytes. -/
def take (n : Nat) : Reader Bytes := fun s =>
  let body := s.take n
  if body.length = n then .ok (body, s.drop n) else .error .unexpectedEnd

/-- Passes over `n` bytes. -/
def skip (n : Nat) : Reader Unit := do
  let _ ← take n

/-- Reads `n` times. -/
def repeated {α : Type} (r : Reader α) : Nat → Reader (List α)
  | 0 => return []
  | n + 1 => do
    let a ← r
    let as ← repeated r n
    return a :: as

/-- A count of two bytes, then as many values. -/
def table {α : Type} (r : Reader α) : Reader (List α) := do
  let n ← u2
  repeated r n.toNat

/-- A step that reads no bytes. -/
def liftResult {α : Type} (a : Except Fault α) : Reader α := fun s => a.map (·, s)

/-! ## What is left -/

/-- What `r` leaves is no longer than what there was. -/
def Shrinks {α : Type} (r : Reader α) : Prop :=
  ∀ (s : Bytes) (a : α) (t : Bytes), r s = .ok (a, t) → t.length ≤ s.length

variable {α β : Type}

theorem shrinks_u1 : Shrinks u1 := by
  intro s a t h
  cases s with
  | nil => simp [u1] at h
  | cons b rest =>
    simp only [u1, Except.ok.injEq, Prod.mk.injEq] at h
    simp [← h.2]

theorem shrinks_u2 : Shrinks u2 := by
  intro s a t h
  unfold u2 at h
  split at h
  · simp only [Except.ok.injEq, Prod.mk.injEq] at h
    simp only [← h.2, List.length_cons]
    omega
  · cases h

theorem shrinks_u4 : Shrinks u4 := by
  intro s a t h
  unfold u4 at h
  split at h
  · simp only [Except.ok.injEq, Prod.mk.injEq] at h
    simp only [← h.2, List.length_cons]
    omega
  · cases h

theorem shrinks_pure (a : α) : Shrinks (pure a : Reader α) := by
  intro s b t h
  cases h
  exact Nat.le_refl _

theorem shrinks_liftResult (a : Except Fault α) : Shrinks (liftResult a) := by
  intro s b t h
  cases a with
  | error e => cases h
  | ok a =>
    cases h
    exact Nat.le_refl _

theorem bind_eq_ok {r : Reader α} {f : α → Reader β} {s u : Bytes} {b : β}
    (h : (r >>= f) s = .ok (b, u)) : ∃ a t, r s = .ok (a, t) ∧ f a t = .ok (b, u) := by
  change Except.bind (r s) (fun p => f p.1 p.2) = .ok (b, u) at h
  cases hr : r s with
  | error e => rw [hr] at h; cases h
  | ok p =>
    rw [hr] at h
    exact ⟨p.1, p.2, rfl, h⟩

theorem bind_of_ok {r : Reader α} {f : α → Reader β} {s t : Bytes} {a : α} (h : r s = .ok (a, t)) :
    (r >>= f) s = f a t := by
  change Except.bind (r s) (fun p => f p.1 p.2) = _
  rw [h]
  rfl

theorem bind_of_error {r : Reader α} {f : α → Reader β} {s : Bytes} {fault : Fault}
    (h : r s = .error fault) : (r >>= f) s = .error fault := by
  change Except.bind (r s) (fun p => f p.1 p.2) = _
  rw [h]
  rfl

theorem shrinks_bind {r : Reader α} {f : α → Reader β} (hr : Shrinks r)
    (hf : ∀ a, Shrinks (f a)) : Shrinks (r >>= f) := by
  intro s b u h
  obtain ⟨a, t, hr', hf'⟩ := bind_eq_ok h
  exact Nat.le_trans (hf a t b u hf') (hr s a t hr')

theorem shrinks_take (n : Nat) : Shrinks (take n) := by
  intro s a t h
  simp only [take] at h
  split at h
  · simp only [Except.ok.injEq, Prod.mk.injEq] at h
    simp [← h.2]
  · cases h

theorem shrinks_skip (n : Nat) : Shrinks (skip n) :=
  shrinks_bind (shrinks_take n) fun _ => shrinks_pure ()

theorem shrinks_i4 : Shrinks i4 :=
  shrinks_bind shrinks_u4 fun _ => shrinks_pure _

end Reader

end ClassFile

end VirtualClasspath
