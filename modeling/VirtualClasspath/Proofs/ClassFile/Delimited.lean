import Mathlib.Control.Monad.Basic
import VirtualClasspath.Assembly.Write
import VirtualClasspath.ClassFile.Basic
import VirtualClasspath.Proofs.Provider

/-!
# A class file says where it ends

`Reader.Local r` says that what a reader makes of a byte string it makes of every longer one: it
leaves the additional bytes, or meets the same fault, unless it was the bytes that ran out. The
readers that a class is read by are put together from local ones (`Local.bind`, `local_table`). The
body of an attribute and the instructions of a method are cut out before they are looked at, so how
they are read does not matter here (`local_readTable`).

`parse_delimited`: no accepted byte string is a proper beginning of another, a proper beginning of one
is refused for its end only, and a fault that was met is not mended by more bytes.
-/

namespace VirtualClasspath.ClassFile

namespace Reader

variable {α β : Type}

/-- More bytes behind those that `r` is given change nothing, unless it has run out of bytes. -/
structure Local (r : Reader α) : Prop where
  taken : ∀ {s t : Bytes} {a : α}, r s = .ok (a, t) → ∀ x, r (s ++ x) = .ok (a, t ++ x)
  refused : ∀ {s : Bytes} {fault : Fault}, r s = .error fault → fault ≠ .unexpectedEnd →
    ∀ x, r (s ++ x) = .error fault

/-! ## Steps -/

theorem local_pure (a : α) : Local (pure a : Reader α) where
  taken h x := by
    cases h
    rfl
  refused h := by cases h

theorem local_liftResult (v : Except Fault α) : Local (liftResult v) where
  taken h x := by
    cases v with
    | error e => cases h
    | ok a =>
      cases h
      rfl
  refused h _ x := by
    cases v with
    | error e =>
      cases h
      rfl
    | ok a => cases h

theorem local_u1 : Local u1 where
  taken {s} _ _ h x := by
    cases s with
    | nil => cases h
    | cons b rest =>
      cases h
      rfl
  refused {s} _ h hne := by
    cases s with
    | nil =>
      cases h
      exact absurd rfl hne
    | cons b rest => cases h

theorem local_u2 : Local u2 where
  taken h x := by
    unfold u2 at h
    split at h
    · cases h
      rfl
    · cases h
  refused h hne := by
    unfold u2 at h
    split at h
    · cases h
    · cases h
      exact absurd rfl hne

theorem local_u4 : Local u4 where
  taken h x := by
    unfold u4 at h
    split at h
    · cases h
      rfl
    · cases h
  refused h hne := by
    unfold u4 at h
    split at h
    · cases h
    · cases h
      exact absurd rfl hne

theorem local_take (n : Nat) : Local (take n) where
  taken {s} _ _ h x := by
    simp only [take] at h ⊢
    split at h
    · rename_i hlen
      rw [List.length_take] at hlen
      have hle : n ≤ s.length := by omega
      cases h
      rw [List.take_append_of_le_length hle, List.drop_append_of_le_length hle,
        if_pos (by rw [List.length_take]; omega)]
    · cases h
  refused h hne := by
    simp only [take] at h
    split at h
    · cases h
    · cases h
      exact absurd rfl hne

/-- **One local reader after another.** -/
theorem Local.bind {r : Reader α} {f : α → Reader β} (hr : Local r) (hf : ∀ a, Local (f a)) :
    Local (r >>= f) where
  taken h x := by
    obtain ⟨a, t, hfirst, hrest⟩ := bind_eq_ok h
    rw [bind_of_ok (hr.taken hfirst x)]
    exact (hf a).taken hrest x
  refused {s} fault h hne x := by
    cases hfirst : r s with
    | error e =>
      rw [bind_of_error hfirst] at h
      cases h
      exact bind_of_error (hr.refused hfirst hne x)
    | ok p =>
      rw [bind_of_ok hfirst] at h
      rw [bind_of_ok (hr.taken hfirst x)]
      exact (hf p.1).refused h hne x

theorem Local.map {r : Reader α} (h : Local r) (f : α → β) : Local (do return f (← r)) :=
  h.bind fun _ => local_pure _

theorem local_skip (n : Nat) : Local (skip n) := (local_take n).bind fun _ => local_pure ()

/-! ## Lists -/

theorem local_repeated {r : Reader α} (h : Local r) (n : Nat) : Local (repeated r n) := by
  induction n with
  | zero => exact local_pure []
  | succ n ih => exact h.bind fun _ => ih.bind fun _ => local_pure _

theorem local_table {r : Reader α} (h : Local r) : Local (table r) :=
  local_u2.bind fun n => local_repeated h n.toNat

end Reader

open Reader

/-! ## The constant pool -/

namespace Pool

theorem local_readText : Local readText := by
  refine local_u2.bind fun length => (local_take _).bind fun bytes => ?_
  split
  · exact local_pure _
  · exact local_liftResult _

/-- An entry that refers to two others. -/
theorem local_indices (f : UInt16 → UInt16 → Constant) : Local (do return f (← u2) (← u2)) :=
  local_u2.bind fun i => local_u2.map (f i)

theorem local_readConstant : Local readConstant := by
  refine local_u1.bind fun tag => ?_
  split
  · exact local_readText
  · exact (local_skip 4).bind fun _ => local_pure _
  · exact (local_skip 4).bind fun _ => local_pure _
  · exact (local_skip 8).bind fun _ => local_pure _
  · exact (local_skip 8).bind fun _ => local_pure _
  · exact local_u2.map Constant.classRef
  · exact local_u2.map Constant.string
  · exact local_indices .fieldRef
  · exact local_indices .methodRef
  · exact local_indices .interfaceMethodRef
  · exact local_indices .nameAndType
  · exact local_u1.bind fun kind => local_u2.map (Constant.methodHandle kind)
  · exact local_u2.map Constant.methodType
  · exact local_indices .dynamic
  · exact local_indices .invokeDynamic
  · exact local_u2.map Constant.module
  · exact local_u2.map Constant.package
  · exact local_liftResult _

theorem local_readSlots (n : Nat) : Local (readSlots n) := by
  fun_induction readSlots n with
  | case1 => exact local_pure _
  | case2 => exact local_readConstant.map _
  | case3 n ihWide ih =>
    refine local_readConstant.bind fun c => ?_
    split
    · exact ihWide.map _
    · exact ih.map _

theorem local_read : Local read :=
  local_u2.bind fun _ => (local_readSlots _).map _

variable (pool : Pool)

theorem local_readUtf8 : Local pool.readUtf8 := local_u2.bind fun _ => local_liftResult _

theorem local_readClassName : Local pool.readClassName := local_u2.bind fun _ => local_liftResult _

theorem local_readClassName? : Local pool.readClassName? := local_u2.bind fun _ => local_liftResult _

end Pool

/-! ## Attributes, members, classes -/

/-- Whatever is made of a body, it is made of these bytes alone. -/
theorem Attribute.local_readTable (pool : Pool) (parse : String → Bytes → Except Fault Attribute) :
    Local (Attribute.readTable pool parse) :=
  local_table <| pool.local_readUtf8.bind fun _ => local_u4.bind fun _ => (local_take _).bind fun _ =>
    local_liftResult _

theorem Member.local_read (pool : Pool) : Local (Member.read pool) :=
  local_u2.bind fun _ => pool.local_readUtf8.bind fun _ => pool.local_readUtf8.bind fun _ =>
    (Attribute.local_readTable pool _).map _

theorem local_readMagic : Local readMagic := by
  refine local_u4.bind fun found => ?_
  split
  · exact local_pure _
  · exact local_liftResult _

theorem local_read : Local read :=
  local_readMagic.bind fun _ => local_u2.bind fun _ => local_u2.bind fun _ =>
    Pool.local_read.bind fun pool => local_u2.bind fun _ => pool.local_readClassName.bind fun _ =>
    pool.local_readClassName?.bind fun _ => (local_table pool.local_readClassName).bind fun _ =>
    (local_table (Member.local_read pool)).bind fun _ =>
    (local_table (Member.local_read pool)).bind fun _ => (Attribute.local_readTable pool _).map _

/-! ## Whole files -/

theorem parse_of_fault {b : Bytes} {fault : Fault} (h : read b = .error fault) :
    parse b = .error fault := by
  unfold parse
  rw [h]

/-- What is left behind a class is reported by its length. -/
theorem parse_of_rest {b rest : Bytes} {c : ClassFile} (h : read b = .ok (c, rest))
    (hrest : rest ≠ []) : parse b = .error (.trailingBytes rest.length) := by
  unfold parse
  rw [h]
  cases rest with
  | nil => exact absurd rfl hrest
  | cons x xs => rfl

theorem parse_eq_ok_iff {b : Bytes} {c : ClassFile} : parse b = .ok c ↔ read b = .ok (c, []) := by
  cases h : read b with
  | error fault =>
    rw [parse_of_fault h]
    simp
  | ok p =>
    obtain ⟨d, rest⟩ := p
    cases rest with
    | nil =>
      unfold parse
      simp [h]
    | cons x xs =>
      rw [parse_of_rest h (List.cons_ne_nil x xs)]
      simp

/-- A fault is one of the class itself, or there are bytes behind the class. -/
theorem parse_error_cases {b : Bytes} {fault : Fault} (h : parse b = .error fault) :
    read b = .error fault ∨ ∃ n, fault = .trailingBytes n := by
  cases hread : read b with
  | error e =>
    rw [parse_of_fault hread] at h
    cases h
    exact Or.inl rfl
  | ok p =>
    obtain ⟨c, rest⟩ := p
    by_cases hrest : rest = []
    · subst hrest
      rw [parse_eq_ok_iff.mpr hread] at h
      cases h
    · rw [parse_of_rest hread hrest] at h
      cases h
      exact Or.inr ⟨_, rfl⟩

/-- A proper beginning of an accepted byte string: the class is not at its end. -/
theorem parse_of_prefix {p x : Bytes} {c : ClassFile} (h : parse (p ++ x) = .ok c) (hx : x ≠ []) :
    parse p = .error .unexpectedEnd := by
  have hwhole := parse_eq_ok_iff.mp h
  cases hread : read p with
  | ok q =>
    -- the class would end in `p` already, with `x` left over
    rw [local_read.taken hread x, Except.ok.injEq, Prod.mk.injEq] at hwhole
    exact absurd (List.append_eq_nil_iff.mp hwhole.2).2 hx
  | error fault =>
    rw [parse_of_fault hread]
    by_cases hend : fault = .unexpectedEnd
    · rw [hend]
    · rw [local_read.refused hread hend x] at hwhole
      cases hwhole

/-- **Class files delimit themselves.** Behind an accepted byte string, more bytes are left over, and
of it, fewer bytes are too few; a fault other than these two is met again whatever follows. -/
theorem parse_delimited (b x : Bytes) (hx : x ≠ []) :
    (∀ c, parse b = .ok c →
      (∀ p, p <+: b → p ≠ b → parse p = .error .unexpectedEnd) ∧
      parse (b ++ x) = .error (.trailingBytes x.length)) ∧
    ∀ fault, parse b = .error fault → fault ≠ .unexpectedEnd → (∀ n, fault ≠ .trailingBytes n) →
      parse (b ++ x) = .error fault := by
  refine ⟨fun c hc => ⟨fun p hp hne => ?_, ?_⟩, fun fault hfault hend htrailing => ?_⟩
  · obtain ⟨y, rfl⟩ := hp
    refine parse_of_prefix hc fun hy => hne ?_
    rw [hy, List.append_nil]
  · have hread := local_read.taken (parse_eq_ok_iff.mp hc) x
    exact parse_of_rest hread hx
  · rcases parse_error_cases hfault with hread | ⟨n, hn⟩
    · exact parse_of_fault (local_read.refused hread hend x)
    · exact absurd hn (htrailing n)

/-- A class `A` without members. -/
def bare : Assembly.ClassSpec := { name := "A", superClass := none }

/-- A class without its last byte and with one more, and a byte string that begins wrongly. -/
theorem parse_delimited_bare :
    ([0] : Bytes) ≠ [] ∧
      (∃ c, parse bare.bytes = .ok c) ∧
      parse bare.bytes.dropLast = .error .unexpectedEnd ∧
      parse (bare.bytes ++ [0]) = .error (.trailingBytes 1) ∧
      parse [0xCA, 0xFE, 0xBA, 0xBF] = .error .badMagic ∧
      parse ([0xCA, 0xFE, 0xBA, 0xBF] ++ [0]) = .error .badMagic := by
  have hname : (parse bare.bytes).map ClassFile.thisClass = .ok "A" := by decide +kernel
  obtain ⟨c, hc, -⟩ := exists_of_map_eq_ok hname
  have hmagic : parse [0xCA, 0xFE, 0xBA, 0xBF] = .error .badMagic := parse_of_fault rfl
  have hx : ([0] : Bytes) ≠ [] := by decide
  obtain ⟨hshorter, hlonger⟩ := (parse_delimited bare.bytes [0] hx).1 c hc
  refine ⟨hx, ⟨c, hc⟩, hshorter _ (List.dropLast_prefix _) (by decide +kernel), hlonger, hmagic, ?_⟩
  exact (parse_delimited _ [0] hx).2 _ hmagic (by decide) (fun n => nofun)

end VirtualClasspath.ClassFile
