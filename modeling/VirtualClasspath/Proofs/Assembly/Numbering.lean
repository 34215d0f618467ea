import Mathlib.Data.List.Dedup
import Mathlib.Algebra.BigOperators.Group.List.Basic
import VirtualClasspath.Proofs.Assembly.Pool

/-!
# Indices given out by a writer are the indices of a reader

The two sides of the constant pool count on their own. A draft hands out its next free index and
moves on by the width of the entry, unless it has the entry already; a reader counts the slots that
it fills, of which the second one of a wide entry stands for nothing. As long as there are indices
left the counts agree: the slots of an entry begin at its index (`slotsOf_eq_append`), so indices
differ where entries do.

A draft that is filled by `add` alone is `Tidy`: numbered, and without an entry that stands twice.
`Tidy.add` is the step and `addAll_spec` the run.

**`addAll_reads`**: whatever is added, in whatever order and however often, the indices tell the
entries apart and stand for them in the pool that is read.
-/

namespace VirtualClasspath.Assembly

open ClassFile (Pool)

/-- The index of each entry of a list, and with them the entries. -/
def Writer.addAll : List PoolEntry → Writer (List (PoolEntry × UInt16))
  | [] => return []
  | e :: rest => do
    let i ← add e
    let given ← addAll rest
    return (e, i) :: given

/-- The number of indices that the entries of a list take, each entry counted once. -/
def slotCount (es : List PoolEntry) : Nat := (es.dedup.map fun e => e.width.toNat).sum

/-! ## Adding an entry -/

namespace PoolDraft

variable {p : PoolDraft} {e f : PoolEntry}

theorem mem_keys_add : f ∈ (p.add e).2.keys ↔ f = e ∨ f ∈ p.keys := by
  rcases p.add_cases e with ⟨hmem, hsame⟩ | ⟨-, hnew⟩
  · have hkey : e ∈ p.keys := List.mem_map_of_mem hmem
    rw [hsame]
    exact ⟨Or.inr, fun h => h.elim (fun he => he ▸ hkey) id⟩
  · rw [hnew]
    exact List.mem_cons

/-- The entries of a draft are numbered, and none of them stands twice. -/
structure Tidy (p : PoolDraft) : Prop where
  numbered : p.Numbered
  nodup : p.keys.Nodup

theorem tidy_empty : empty.Tidy := ⟨numbered_empty, List.nodup_nil⟩

theorem Tidy.add (h : p.Tidy) (e : PoolEntry) : (p.add e).2.Tidy where
  numbered := h.numbered.add e
  nodup := by
    rcases p.add_cases e with ⟨-, hsame⟩ | ⟨hkey, hnew⟩
    · rw [hsame]
      exact h.nodup
    · rw [hnew]
      exact List.nodup_cons.mpr ⟨hkey, h.nodup⟩

/-- Entries are added one after the other: each is in the draft in the end, under the index it was
given, and nothing else has come to what was there. -/
theorem addAll_spec (es : List PoolEntry) (h : p.Tidy) :
    (Writer.addAll es p).2.Tidy ∧ (Writer.addAll es p).1.map Prod.fst = es ∧
      (∀ x, x ∈ (Writer.addAll es p).1 ∨ x ∈ p.entries → x ∈ (Writer.addAll es p).2.entries) ∧
      ∀ f, f ∈ (Writer.addAll es p).2.keys ↔ f ∈ es ∨ f ∈ p.keys := by
  induction es generalizing p with
  | nil =>
    refine ⟨h, rfl, fun x hx => hx.resolve_left List.not_mem_nil, fun f => ?_⟩
    exact (or_iff_right List.not_mem_nil).symm
  | cons e es ih =>
    obtain ⟨htidy, hfst, hmem, hkeys⟩ := ih (h.add e)
    refine ⟨htidy, congrArg (e :: ·) hfst, fun x hx => hmem x ?_, fun f => ?_⟩
    · rcases hx with hx | hx
      · rcases List.mem_cons.mp hx with rfl | hx
        · exact Or.inr (p.mem_add_self e)
        · exact Or.inl hx
      · exact Or.inr (mem_add_of_mem hx)
    · refine (hkeys f).trans ?_
      rw [mem_keys_add, List.mem_cons, or_left_comm, or_assoc]

end PoolDraft

/-! ## The count of the writer and the count of the reader -/

section Slots

variable {entries : List (PoolEntry × UInt16)} {e f : PoolEntry} {i : UInt16}

/-- An index is not 0, and there is room for its entry before the next free index. -/
theorem toNat_of_mem (h : Numbered entries) (hl : (slotsOf entries).length ≤ 65536)
    (he : (e, i) ∈ entries) : 0 < i.toNat ∧ i.toNat + e.slots.length ≤ (slotsOf entries).length := by
  obtain ⟨before, after, hslots, hlength⟩ := slotsOf_eq_append h hl he
  constructor
  · -- The slot of index 0 stands for nothing, and that of an entry does not.
    rw [Nat.pos_iff_ne_zero]
    intro h0
    rw [List.length_eq_zero_iff.mp (hlength.trans h0), List.nil_append] at hslots
    cases e <;> cases hslots
  · rw [hslots, List.length_append, List.length_append, hlength]
    omega

/-- **Two entries have two indices.** -/
theorem eq_of_mem_of_mem (h : Numbered entries) (hl : (slotsOf entries).length ≤ 65536)
    (he : (e, i) ∈ entries) (hf : (f, i) ∈ entries) : e = f := by
  induction entries with
  | nil => exact absurd he List.not_mem_nil
  | cons g older ih =>
    obtain ⟨g, k⟩ := g
    obtain ⟨hk, holder⟩ := h
    rw [slotsOf_cons, List.length_append] at hl
    dsimp only at hl
    have hpos := length_slots_pos g
    have hroom : (slotsOf older).length < 65536 := by omega
    have hkNat : k.toNat = (slotsOf older).length := by
      rw [hk]
      exact UInt16.toNat_ofNat_of_lt' hroom
    -- The index of an older entry is less than that of the newest one.
    have hnew : ∀ c, (c, k) ∉ older := by
      intro c hc
      have hle := (toNat_of_mem holder (by omega) hc).2
      have hpos := length_slots_pos c
      omega
    rcases List.mem_cons.mp he with he | heOld <;> rcases List.mem_cons.mp hf with hf | hfOld
    · cases he
      cases hf
      rfl
    · cases he
      exact absurd hfOld (hnew f)
    · cases hf
      exact absurd heOld (hnew e)
    · exact ih holder (by omega) heOld hfOld

end Slots

/-! ## Drafts with room for their entries -/

namespace PoolDraft.Tidy

variable {p : PoolDraft} {e f : PoolEntry} {i j : UInt16}

theorem toNat_next (h : p.Tidy) (hl : (slotsOf p.entries).length < 65536) :
    p.next.toNat = (slotsOf p.entries).length := by
  rw [h.numbered.next]
  exact UInt16.toNat_ofNat_of_lt' hl

/-- Indices tell entries apart. -/
theorem index_eq_iff (h : p.Tidy) (hl : (slotsOf p.entries).length < 65536)
    (hi : (e, i) ∈ p.entries) (hj : (f, j) ∈ p.entries) : i = j ↔ e = f := by
  constructor
  · rintro rfl
    exact eq_of_mem_of_mem h.numbered.entries (Nat.le_of_lt hl) hi hj
  · rintro rfl
    exact (Prod.mk.inj (List.inj_on_of_nodup_map h.nodup hi hj rfl)).2

theorem index_range (h : p.Tidy) (hl : (slotsOf p.entries).length < 65536)
    (hi : (e, i) ∈ p.entries) : 1 ≤ i ∧ i < p.next := by
  obtain ⟨hone, hroom⟩ := toNat_of_mem h.numbered.entries (Nat.le_of_lt hl) hi
  have hpos := length_slots_pos e
  rw [UInt16.le_iff_toNat_le, UInt16.lt_iff_toNat_lt, h.toNat_next hl]
  exact ⟨hone, by omega⟩

/-- The second index of a wide entry has a slot, in which nothing stands. -/
theorem second_slot (h : p.Tidy) (hl : (slotsOf p.entries).length < 65536) {v : Int64}
    (hi : (.long v, i) ∈ p.entries) : (slotsOf p.entries)[(i + 1).toNat]? = some none := by
  have hle := Nat.le_of_lt hl
  have hroom : i.toNat + 2 ≤ (slotsOf p.entries).length := (toNat_of_mem h.numbered.entries hle hi).2
  have hnext : (i + 1).toNat = i.toNat + 1 := by
    rw [UInt16.toNat_add]
    exact Nat.mod_eq_of_lt (by change i.toNat + 1 < 65536; omega)
  rw [hnext]
  exact getElem?_slotsOf_add h.numbered.entries hle hi (k := 1) (Nat.lt_succ_self 1)

/-- The slots of a draft that was filled with `es`. -/
theorem length_slotsOf {es : List PoolEntry} (h : p.Tidy) (hkeys : ∀ f, f ∈ p.keys ↔ f ∈ es) :
    (slotsOf p.entries).length = slotCount es + 1 := by
  have hperm : p.keys.Perm es.dedup :=
    (List.perm_ext_iff_of_nodup h.nodup es.nodup_dedup).mpr fun f =>
      (hkeys f).trans List.mem_dedup.symm
  have hwidth : ∀ e : PoolEntry × UInt16, e.1.slots.length = e.1.width.toNat := by
    rintro ⟨e, -⟩
    cases e <;> rfl
  unfold slotCount slotsOf
  rw [← (hperm.map _).sum_eq, List.length_cons, List.length_flatMap, List.map_reverse,
    List.sum_reverse, keys, List.map_map]
  simp only [hwidth]
  rfl

end PoolDraft.Tidy

/-- **Indices survive writing and reading.** Whatever entries are put into a pool, as long as they
fit it: equal entries have equal indices and others different ones, all of them between 1 and the
next free index, and none is the second index of a wide entry. The pool is read from the bytes that
were written for it and from no others, with as many indices as were counted; each index stands for
the entry that it was given to, and 0 and the second index of a wide entry stand for nothing. -/
theorem addAll_reads {es : List PoolEntry} (hroom : slotCount es ≤ 65534)
    (htext : ∀ e ∈ es, e.textLength ≤ 65535) :
    let given := (Writer.addAll es .empty).1
    let p := (Writer.addAll es .empty).2
    given.map Prod.fst = es ∧
      (∀ e i f j, (e, i) ∈ given → (f, j) ∈ given → (i = j ↔ e = f)) ∧
      (∀ e i, (e, i) ∈ given → 1 ≤ i ∧ i < p.next) ∧
      (∀ v i f j, (.long v, i) ∈ given → (f, j) ∈ given → j ≠ i + 1) ∧
      p.next.toNat = slotCount es + 1 ∧
      ∃ P : Pool, (∀ rest, Pool.read (p.bytes ++ rest) = .ok (P, rest)) ∧ P.size = p.next.toNat ∧
        (∀ e i, (e, i) ∈ given → P.get i = .ok e.constant) ∧
        P.get 0 = .error (.badIndex 0) ∧
        ∀ v i, (.long v, i) ∈ given → P.get (i + 1) = .error (.badIndex (i + 1)) := by
  intro given p
  obtain ⟨htidy, hfst, hmem, hkeys⟩ : p.Tidy ∧ given.map Prod.fst = es ∧
      (∀ x, x ∈ given ∨ x ∈ PoolDraft.empty.entries → x ∈ p.entries) ∧
      ∀ f, f ∈ p.keys ↔ f ∈ es ∨ f ∈ PoolDraft.empty.keys :=
    PoolDraft.addAll_spec es PoolDraft.tidy_empty
  replace hmem : ∀ {e i}, (e, i) ∈ given → (e, i) ∈ p.entries := fun h => hmem _ (Or.inl h)
  replace hkeys : ∀ f, f ∈ p.keys ↔ f ∈ es := fun f => (hkeys f).trans (or_iff_left List.not_mem_nil)
  have hcount := htidy.length_slotsOf hkeys
  have hl : (slotsOf p.entries).length < 65536 := by omega
  have hnext := htidy.toNat_next hl
  refine ⟨hfst, fun e i f j hi hj => htidy.index_eq_iff hl (hmem hi) (hmem hj),
    fun e i hi => htidy.index_range hl (hmem hi), fun v i f j hi hj hij => ?_,
    hnext.trans hcount, p.pool, ?_, hnext.symm,
    fun e i hi => (holds_pool htidy.numbered (Nat.le_of_lt hl)).entry e i (hmem hi), rfl,
    fun v i hi => ?_⟩
  · have hget := getElem?_slotsOf htidy.numbered.entries (Nat.le_of_lt hl) (hmem hj)
    rw [hij, htidy.second_slot hl (hmem hi)] at hget
    cases hget
  · refine reads_pool htidy.numbered hl fun e he => Nat.lt_succ_of_le (htext e.1 ?_)
    exact (hkeys e.1).mp (List.mem_map_of_mem he)
  · unfold Pool.get PoolDraft.pool
    rw [List.getElem?_toArray, htidy.second_slot hl (hmem hi)]

/-- A text that comes twice, and a wide entry in the last place. -/
theorem addAll_reads_wideLast :
    let es : List PoolEntry := [.utf8 "é", .long 5, .utf8 "é", .classRef 1, .long 6]
    let p := (Writer.addAll es .empty).2
    slotCount es ≤ 65534 ∧ (∀ e ∈ es, e.textLength ≤ 65535) ∧
      (Writer.addAll es .empty).1.map Prod.snd = [1, 2, 1, 4, 5] ∧
      ∃ P : Pool, Pool.read (p.bytes ++ [0xCA]) = .ok (P, [0xCA]) ∧ P.size = 7 ∧
        P.get 1 = .ok (.utf8 "é") ∧ P.get 4 = .ok (.classRef 1) ∧ P.get 5 = .ok .long ∧
        P.get 0 = .error (.badIndex 0) ∧ P.get 3 = .error (.badIndex 3) ∧
        P.get 6 = .error (.badIndex 6) := by
  intro es p
  have hroom : slotCount es ≤ 65534 := by decide
  have htext : ∀ e ∈ es, e.textLength ≤ 65535 := by decide +kernel
  obtain ⟨-, -, -, -, hnext, P, hread, hsize, hget, hzero, hsecond⟩ := addAll_reads hroom htext
  refine ⟨hroom, htext, by decide, P, hread _, ?_, hget (.utf8 "é") 1 ?_, hget (.classRef 1) 4 ?_,
    hget (.long 6) 5 ?_, hzero, hsecond 5 2 ?_, hsecond 6 5 ?_⟩
  · rw [hsize, hnext]
    decide
  all_goals decide

end VirtualClasspath.Assembly
