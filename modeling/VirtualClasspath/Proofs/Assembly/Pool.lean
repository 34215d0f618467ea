import Mathlib.Algebra.GroupWithZero.Nat
import VirtualClasspath.Proofs.Assembly.Bytes

/-!
# The pool that was filled is the pool that is read

A writer only ever adds to the pool, and numbers the entries one after the other, so the indices that
it gives out early still stand for the same entries in the end. `Ensures P x Q` says what follows
about one writer `x`: if the pool `P` holds everything that is in the draft after `x`, it holds
everything that was there before, and `Q` is true of what `x` gives. The rules `Ensures.bind` and
`ensures_add` carry this through all writers.

**`reads_pool`**: a numbered draft with room for its entries is read as `PoolDraft.pool`, which holds
it (`holds_pool`).
-/

namespace VirtualClasspath.Assembly

open ClassFile (Pool Constant Reader)
open ClassFile.Reader

/-! ## Entries and slots -/

/-- An entry as the reader of a class knows it. -/
def PoolEntry.constant : PoolEntry → Constant
  | utf8 text => .utf8 text
  | integer _ => .integer
  | long _ => .long
  | .classRef name => .classRef name
  | string text => .string text
  | fieldRef owner nat => .fieldRef owner nat
  | methodRef owner nat => .methodRef owner nat
  | interfaceMethodRef owner nat => .interfaceMethodRef owner nat
  | nameAndType name descriptor => .nameAndType name descriptor
  | methodType descriptor => .methodType descriptor
  | invokeDynamic bootstrap nat => .invokeDynamic bootstrap nat

/-- What the indices of an entry stand for. -/
def PoolEntry.slots (e : PoolEntry) : List (Option Constant) :=
  if e.constant.isWide then [some e.constant, none] else [some e.constant]

/-- What the indices stand for, of entries with the newest first. -/
def slotsOf (entries : List (PoolEntry × UInt16)) : List (Option Constant) :=
  none :: entries.reverse.flatMap fun e => e.1.slots

/-- The pool that a draft is read as. -/
def PoolDraft.pool (p : PoolDraft) : Pool := ⟨(slotsOf p.entries).toArray⟩

/-- Each entry has the first index that the older ones leave free. -/
def Numbered : List (PoolEntry × UInt16) → Prop
  | [] => True
  | (_, i) :: older => i = .ofNat (slotsOf older).length ∧ Numbered older

/-- A draft whose entries are numbered, as is the next one. -/
structure PoolDraft.Numbered (p : PoolDraft) : Prop where
  entries : Assembly.Numbered p.entries
  next : p.next = .ofNat (slotsOf p.entries).length

theorem slotsOf_cons (e : PoolEntry × UInt16) (older : List (PoolEntry × UInt16)) :
    slotsOf (e :: older) = slotsOf older ++ e.1.slots := by
  unfold slotsOf
  rw [List.reverse_cons, List.flatMap_append, List.flatMap_singleton, List.cons_append]

theorem ofNat_length_slots (e : PoolEntry) : UInt16.ofNat e.slots.length = e.width := by
  cases e <;> rfl

theorem numbered_empty : PoolDraft.empty.Numbered := ⟨trivial, rfl⟩

theorem length_slots_pos (e : PoolEntry) : 0 < e.slots.length := by cases e <;> exact Nat.succ_pos _

section Slots

variable {entries : List (PoolEntry × UInt16)} {e : PoolEntry} {i : UInt16}

/-- **The slots of an entry begin at its index.** -/
theorem slotsOf_eq_append (h : Numbered entries) (hl : (slotsOf entries).length ≤ 65536)
    (he : (e, i) ∈ entries) :
    ∃ before after, slotsOf entries = before ++ (e.slots ++ after) ∧ before.length = i.toNat := by
  induction entries with
  | nil => exact absurd he List.not_mem_nil
  | cons g older ih =>
    obtain ⟨g, k⟩ := g
    obtain ⟨hk, holder⟩ := h
    rw [slotsOf_cons] at hl ⊢
    rw [List.length_append] at hl
    rcases List.mem_cons.mp he with heq | he
    · cases heq
      have hpos := length_slots_pos e
      have hroom : (slotsOf older).length < 65536 := by
        dsimp only at hl
        omega
      refine ⟨slotsOf older, [], by rw [List.append_nil], ?_⟩
      rw [hk]
      exact (UInt16.toNat_ofNat_of_lt' hroom).symm
    · obtain ⟨before, after, hslots, hlength⟩ := ih holder (by omega) he
      exact ⟨before, after ++ g.slots, by rw [hslots]; simp only [List.append_assoc], hlength⟩

/-- What stands at the index of an entry, and at the next one if the entry is wide. -/
theorem getElem?_slotsOf_add (h : Numbered entries) (hl : (slotsOf entries).length ≤ 65536)
    (he : (e, i) ∈ entries) {k : Nat} (hk : k < e.slots.length) :
    (slotsOf entries)[i.toNat + k]? = e.slots[k]? := by
  obtain ⟨before, after, hslots, hlength⟩ := slotsOf_eq_append h hl he
  rw [hslots, ← hlength, List.getElem?_append_right (Nat.le_add_right _ _), Nat.add_sub_cancel_left,
    List.getElem?_append_left hk]

theorem getElem?_slotsOf (h : Numbered entries) (hl : (slotsOf entries).length ≤ 65536)
    (he : (e, i) ∈ entries) : (slotsOf entries)[i.toNat]? = some (some e.constant) := by
  refine (getElem?_slotsOf_add h hl he (length_slots_pos e)).trans ?_
  cases e <;> rfl

end Slots

/-! ## Adding an entry -/

namespace PoolDraft

variable {p : PoolDraft} {e : PoolEntry}

/-- The entries of a draft, the newest first. -/
def keys (p : PoolDraft) : List PoolEntry := p.entries.map Prod.fst

/-- An entry that is there keeps its index, another one gets the next free index. -/
theorem add_cases (p : PoolDraft) (e : PoolEntry) :
    ((e, (p.add e).1) ∈ p.entries ∧ (p.add e).2 = p) ∨
      (e ∉ p.keys ∧ p.add e = (p.next, ⟨(e, p.next) :: p.entries, p.next + e.width⟩)) := by
  unfold add
  cases h : p.entries.lookup e with
  | some i =>
    obtain ⟨newer, older, hentries, -⟩ := List.lookup_eq_some_iff.mp h
    refine Or.inl ⟨?_, rfl⟩
    rw [hentries]
    exact List.mem_append_right newer List.mem_cons_self
  | none =>
    refine Or.inr ⟨fun hmem => ?_, rfl⟩
    obtain ⟨x, hx, rfl⟩ := List.mem_map.mp hmem
    have := List.lookup_eq_none_iff.mp h x hx
    simp at this

theorem mem_add_self (p : PoolDraft) (e : PoolEntry) : (e, (p.add e).1) ∈ (p.add e).2.entries := by
  rcases p.add_cases e with ⟨hmem, hsame⟩ | ⟨-, hnew⟩
  · rw [hsame]
    exact hmem
  · rw [hnew]
    exact List.mem_cons_self

theorem mem_add_of_mem {x : PoolEntry × UInt16} (h : x ∈ p.entries) : x ∈ (p.add e).2.entries := by
  rcases p.add_cases e with ⟨-, hsame⟩ | ⟨-, hnew⟩
  · rw [hsame]
    exact h
  · rw [hnew]
    exact List.mem_cons_of_mem _ h

theorem Numbered.add (h : p.Numbered) (e : PoolEntry) : (p.add e).2.Numbered := by
  rcases p.add_cases e with ⟨-, hsame⟩ | ⟨-, hnew⟩
  · rw [hsame]
    exact h
  · rw [hnew]
    refine ⟨⟨h.next, h.entries⟩, ?_⟩
    dsimp only
    rw [slotsOf_cons, List.length_append, UInt16.ofNat_add, ← h.next, ofNat_length_slots]

end PoolDraft

/-! ## Pools that hold a draft -/

/-- Every index that the draft has given out stands for its entry, and 0 for nothing. -/
structure Holds (P : Pool) (p : PoolDraft) : Prop where
  zero : ∀ c, P.get 0 ≠ .ok c
  entry : ∀ e i, (e, i) ∈ p.entries → P.get i = .ok e.constant

/-- **A draft is held by the pool that it is read as.** -/
theorem holds_pool {p : PoolDraft} (h : p.Numbered) (hl : (slotsOf p.entries).length ≤ 65536) :
    Holds p.pool p where
  zero c hc := by
    change (Except.error _ : Except ClassFile.Fault Constant) = .ok c at hc
    cases hc
  entry e i he := by
    have hget := getElem?_slotsOf h.entries hl he
    unfold Pool.get PoolDraft.pool
    rw [List.getElem?_toArray, hget]

/-- What a writer does to the draft and gives: it keeps the numbering, and for a pool that holds the
draft afterwards, the pool held it before and `Q` is true of the result. -/
def Ensures {α : Type} (P : Pool) (x : Writer α) (Q : α → Prop) : Prop :=
  ∀ p : PoolDraft, (p.Numbered → (x p).2.Numbered) ∧ (Holds P (x p).2 → Holds P p ∧ Q (x p).1)

section Rules

variable {α β : Type} {P : Pool}

theorem ensures_pure {a : α} {Q : α → Prop} (h : Q a) : Ensures P (pure a) Q :=
  fun _ => ⟨id, fun hP => ⟨hP, h⟩⟩

theorem Ensures.bind {x : Writer α} {f : α → Writer β} {Q : α → Prop} {R : β → Prop}
    (hx : Ensures P x Q) (hf : ∀ a, Ensures P (f a) fun b => Q a → R b) :
    Ensures P (x >>= f) R := by
  intro p
  obtain ⟨hxn, hxh⟩ := hx p
  obtain ⟨hfn, hfh⟩ := hf (x p).1 (x p).2
  refine ⟨fun hp => hfn (hxn hp), fun hP => ?_⟩
  obtain ⟨hmid, himp⟩ := hfh hP
  obtain ⟨hstart, hQ⟩ := hxh hmid
  exact ⟨hstart, himp hQ⟩

theorem Ensures.imp {x : Writer α} {Q R : α → Prop} (h : Ensures P x Q) (hQR : ∀ a, Q a → R a) :
    Ensures P x R :=
  fun p => ⟨(h p).1, fun hP => ((h p).2 hP).imp_right (hQR _)⟩

theorem Ensures.and {x : Writer α} {Q R : α → Prop} (h : Ensures P x Q) (h' : Ensures P x R) :
    Ensures P x fun a => Q a ∧ R a :=
  fun p => ⟨(h p).1, fun hP => ⟨((h p).2 hP).1, ((h p).2 hP).2, ((h' p).2 hP).2⟩⟩

/-- An entry stands at its index, which is not 0. -/
theorem ensures_add (e : PoolEntry) :
    Ensures P (Writer.add e) fun i => P.get i = .ok e.constant ∧ i ≠ 0 := by
  refine fun p => ⟨fun h => h.add e, fun hP => ⟨⟨hP.zero, fun f i hf => ?_⟩, ?_⟩⟩
  · exact hP.entry f i (PoolDraft.mem_add_of_mem hf)
  · have hget := hP.entry e _ (p.mem_add_self e)
    exact ⟨hget, fun h0 => hP.zero _ (h0 ▸ hget)⟩

end Rules

/-! ## Reading the pool -/

/-- The number of bytes of the text of an entry, which has to fit two bytes. -/
def PoolEntry.textLength : PoolEntry → Nat
  | utf8 text => (textBytes text).length
  | _ => 0

theorem reads_entry {e : PoolEntry} (h : e.textLength < 65536) : Reads Pool.readConstant e.bytes e.constant := by
  have two : ∀ (i j : UInt16) (f : UInt16 → UInt16 → Constant),
      Reads (do return f (← u2) (← u2)) (u2Bytes i ++ u2Bytes j) (f i j) := fun i j f =>
    (reads_u2 i).bind ((reads_u2 j).map (f i))
  cases e with
  | utf8 text =>
    refine (reads_u1 1).bind ((reads_u2 _).bind ((reads_take ?_).bind_nil ?_))
    · exact (UInt16.toNat_ofNat_of_lt' h).symm
    · rw [decodeText?_textBytes]
      exact reads_pure _
  | integer value => exact (reads_u1 3).bind (reads_skip_pure (length_u4Bytes _) Constant.integer)
  | long value => exact (reads_u1 5).bind (reads_skip_pure (length_u8Bytes _) Constant.long)
  | classRef name => exact (reads_u1 7).bind ((reads_u2 name).map _)
  | string text => exact (reads_u1 8).bind ((reads_u2 text).map _)
  | fieldRef owner nat => exact (reads_u1 9).bind (two owner nat _)
  | methodRef owner nat => exact (reads_u1 10).bind (two owner nat _)
  | interfaceMethodRef owner nat => exact (reads_u1 11).bind (two owner nat _)
  | nameAndType name descriptor => exact (reads_u1 12).bind (two name descriptor _)
  | methodType descriptor => exact (reads_u1 16).bind ((reads_u2 descriptor).map _)
  | invokeDynamic bootstrap nat => exact (reads_u1 18).bind (two bootstrap nat _)

/-- An entry of one index, before the entries for `n` more. -/
theorem reads_slots_succ {c c' : Bytes} {k : Constant} (hk : Reads Pool.readConstant c k)
    (hw : k.isWide = false) {n : Nat} {slots : List (Option Constant)}
    (h : Reads (Pool.readSlots n) c' slots) :
    Reads (Pool.readSlots (n + 1)) (c ++ c') (some k :: slots) := by
  cases n with
  | zero =>
    have hnil := h []
    rw [List.append_nil] at hnil
    cases hnil
    rw [List.append_nil]
    exact hk.map fun k => [some k]
  | succ n =>
    refine hk.bind ?_
    rw [hw]
    exact h.map (some k :: ·)

/-- An entry of two indices, before the entries for `n` more. -/
theorem reads_slots_wide {c c' : Bytes} {k : Constant} (hk : Reads Pool.readConstant c k)
    (hw : k.isWide = true) {n : Nat} {slots : List (Option Constant)}
    (h : Reads (Pool.readSlots n) c' slots) :
    Reads (Pool.readSlots (n + 2)) (c ++ c') (some k :: none :: slots) := by
  refine hk.bind ?_
  rw [hw]
  exact h.map fun slots => some k :: none :: slots

theorem reads_slots (entries : List (PoolEntry × UInt16))
    (h : ∀ e ∈ entries, e.1.textLength < 65536) :
    Reads (Pool.readSlots (entries.flatMap fun e => e.1.slots).length)
      (entries.flatMap fun e => e.1.bytes) (entries.flatMap fun e => e.1.slots) := by
  induction entries with
  | nil => exact reads_pure []
  | cons e rest ih =>
    have he := reads_entry (h e List.mem_cons_self)
    have hrest := ih fun f hf => h f (List.mem_cons_of_mem _ hf)
    rw [List.flatMap_cons, List.flatMap_cons]
    unfold PoolEntry.slots at hrest ⊢
    cases hw : e.1.constant.isWide with
    | true =>
      rw [if_pos rfl]
      exact reads_slots_wide he hw hrest
    | false =>
      rw [if_neg Bool.false_ne_true]
      exact reads_slots_succ he hw hrest

/-- **The pool is read as it was filled.** -/
theorem reads_pool {p : PoolDraft} (hn : p.Numbered) (hl : (slotsOf p.entries).length < 65536)
    (hf : ∀ e ∈ p.entries, e.1.textLength < 65536) : Reads Pool.read p.bytes p.pool := by
  refine (reads_u2 p.next).bind ?_
  have hnext : p.next.toNat = (slotsOf p.entries).length := by
    rw [hn.next]
    exact UInt16.toNat_ofNat_of_lt' hl
  have hslots : p.next.toNat - 1 = (p.entries.reverse.flatMap fun e => e.1.slots).length := by
    rw [hnext]
    rfl
  rw [hslots]
  exact (reads_slots p.entries.reverse fun e he => hf e (List.mem_reverse.mp he)).map
    fun slots => (⟨(none :: slots).toArray⟩ : Pool)

/-! ## References -/

section References

variable {P : Pool}

theorem ensures_utf8 (text : String) :
    Ensures P (Writer.utf8 text) fun i => P.utf8 i = .ok text ∧ i ≠ 0 := by
  refine (ensures_add (.utf8 text)).imp fun i ⟨hi, h0⟩ => ⟨?_, h0⟩
  unfold Pool.utf8
  rw [hi]
  rfl

theorem ensures_classRef (internal : String) :
    Ensures P (Writer.classRef internal) fun i => P.className i = .ok internal ∧ i ≠ 0 := by
  refine (ensures_utf8 internal).bind fun name => (ensures_add (.classRef name)).imp ?_
  rintro i ⟨hi, h0⟩ ⟨hname, -⟩
  refine ⟨?_, h0⟩
  unfold Pool.className
  rw [hi]
  exact hname

theorem ensures_nameAndType (name descriptor : String) :
    Ensures P (Writer.nameAndType name descriptor) fun i =>
      P.nameAndType i = .ok (name, descriptor) ∧ i ≠ 0 := by
  refine (ensures_utf8 name).bind fun n => (ensures_utf8 descriptor).bind fun d =>
    (ensures_add (.nameAndType n d)).imp ?_
  rintro i ⟨hi, h0⟩ ⟨hd, -⟩ ⟨hn, -⟩
  refine ⟨?_, h0⟩
  change (P.get i >>= _) = _
  rw [hi]
  change (P.utf8 n >>= _) = _
  rw [hn]
  change (P.utf8 d >>= _) = _
  rw [hd]
  rfl

theorem ensures_classRef? (o : Option String) :
    Ensures P (Writer.classRef? o) fun i => P.className? i = .ok o := by
  cases o with
  | none => exact ensures_pure rfl
  | some internal =>
    refine (ensures_classRef internal).imp fun i ⟨hi, h0⟩ => ?_
    unfold Pool.className?
    rw [if_neg h0, hi]
    rfl

theorem ensures_utf8? (o : Option String) :
    Ensures P (Writer.utf8? o) fun i => P.utf8? i = .ok o := by
  cases o with
  | none => exact ensures_pure rfl
  | some text =>
    refine (ensures_utf8 text).imp fun i ⟨hi, h0⟩ => ?_
    unfold Pool.utf8?
    rw [if_neg h0, hi]
    rfl

/-- The bytes `c` are `n` many, and from them `r` gets `a`. -/
structure Encodes {α : Type} (r : Reader α) (n : Nat) (a : α) (c : Bytes) : Prop where
  length : c.length = n
  reads : Reads r c a

theorem Encodes.map {α β : Type} {r : Reader α} {n : Nat} {a : α} {c : Bytes} (h : Encodes r n a c)
    (f : α → β) : Encodes (do return f (← r)) n (f a) c :=
  ⟨h.length, h.reads.map f⟩

theorem reads_reference {α : Type} {f : UInt16 → Except ClassFile.Fault α} {i : UInt16} {a : α}
    (h : f i = .ok a) : Reads (do liftResult (f (← u2))) (u2Bytes i) a :=
  (reads_u2 i).bind_nil (reads_liftResult h)

/-! ## Lists -/

theorem sum_map_const {α : Type} (l : List α) (n : Nat) : (l.map fun _ => n).sum = n * l.length := by
  rw [List.map_const', List.sum_replicate_nat, Nat.mul_comm]

section Lists

variable {α β : Type} {f : α → Writer Bytes} {r : Reader β} {size : α → Nat} {mirror : α → β}
  {l : List α}

theorem ensures_each_length (h : ∀ a ∈ l, Ensures P (f a) fun c => c.length = size a) :
    Ensures P (Writer.each f l) fun c => c.length = (l.map size).sum := by
  induction l with
  | nil => exact ensures_pure rfl
  | cons a l ih =>
    refine (h a List.mem_cons_self).bind fun head =>
      (ih fun b hb => h b (List.mem_cons_of_mem a hb)).bind fun tail => ensures_pure ?_
    intro htail hhead
    rw [List.length_append, hhead, htail, List.map_cons, List.sum_cons]

/-- Parts of which each is read as it was written are so one after the other. -/
theorem ensures_each_reads (h : ∀ a ∈ l, Ensures P (f a) fun c => Reads r c (mirror a)) :
    Ensures P (Writer.each f l) fun c => Reads (repeated r l.length) c (l.map mirror) := by
  induction l with
  | nil => exact ensures_pure (reads_pure [])
  | cons a l ih =>
    refine (h a List.mem_cons_self).bind fun head =>
      (ih fun b hb => h b (List.mem_cons_of_mem a hb)).bind fun tail => ensures_pure ?_
    exact fun htail hhead => hhead.bind (htail.map _)

theorem ensures_each (h : ∀ a ∈ l, Ensures P (f a) (Encodes r (size a) (mirror a))) :
    Ensures P (Writer.each f l)
      (Encodes (repeated r l.length) (l.map size).sum (l.map mirror)) :=
  ((ensures_each_length fun a ha => (h a ha).imp fun _ hc => hc.length).and
    (ensures_each_reads fun a ha => (h a ha).imp fun _ hc => hc.reads)).imp fun _ hc => ⟨hc.1, hc.2⟩

theorem ensures_table_reads (hl : l.length < 65536)
    (h : ∀ a ∈ l, Ensures P (f a) fun c => Reads r c (mirror a)) :
    Ensures P (Writer.table f l) fun c => Reads (table r) c (l.map mirror) :=
  (ensures_each_reads h).bind fun _ => ensures_pure fun hc => reads_table hc hl

theorem ensures_table (hl : l.length < 65536)
    (h : ∀ a ∈ l, Ensures P (f a) (Encodes r (size a) (mirror a))) :
    Ensures P (Writer.table f l)
      (Encodes (table r) (2 + (l.map size).sum) (l.map mirror)) := by
  refine (ensures_each h).bind fun c => ensures_pure fun hc => ⟨?_, reads_table hc.reads hl⟩
  rw [List.length_append, hc.length]
  rfl

end Lists

end References

end VirtualClasspath.Assembly
