/-!
# Sorted maps

A `SortedMap` keeps its entries as a list with strictly ascending keys, so two maps are equal
exactly when they give the same value to every key (`ext`), and listing a map is reading it off
(`toList`).

Results: `find?_insert`, `find?_insertNew` and `find?_erase` say what each operation does to the
value of a key.
-/

namespace VirtualClasspath

/-- A finite map from keys in a total order. -/
structure SortedMap (κ α : Type) [LT κ] where
  /-- The entries, strictly ascending by key. -/
  toList : List (κ × α)
  ascending : toList.Pairwise fun p q => p.1 < q.1

namespace SortedMap

variable {κ α : Type} [LT κ]

/-- The map without entries. -/
def empty : SortedMap κ α := ⟨[], .nil⟩

instance : EmptyCollection (SortedMap κ α) := ⟨empty⟩
instance : Inhabited (SortedMap κ α) := ⟨empty⟩

theorem toList_inj {m n : SortedMap κ α} : m.toList = n.toList ↔ m = n := by
  cases m; cases n; simp

instance [DecidableEq κ] [DecidableEq α] : DecidableEq (SortedMap κ α) := fun m n =>
  decidable_of_iff (m.toList = n.toList) toList_inj

/-- The value of `k`. -/
def find? [DecidableEq κ] (m : SortedMap κ α) (k : κ) : Option α := m.toList.lookup k

/-- Whether `k` has a value. -/
def contains [DecidableEq κ] (m : SortedMap κ α) (k : κ) : Bool := (m.find? k).isSome

/-- The keys, ascending. -/
def keys (m : SortedMap κ α) : List κ := m.toList.map Prod.fst

/-- The number of entries. -/
def size (m : SortedMap κ α) : Nat := m.toList.length

/-- Whether there is no entry. -/
def isEmpty (m : SortedMap κ α) : Bool := m.toList.isEmpty

/-- The map without the entry of `k`. -/
def erase [DecidableEq κ] (m : SortedMap κ α) (k : κ) : SortedMap κ α :=
  ⟨m.toList.filter fun p => p.1 ≠ k, m.ascending.filter _⟩

/-- The entries from the first key that is not below `k`. -/
def listFrom [DecidableLT κ] (m : SortedMap κ α) (k : κ) : List (κ × α) :=
  m.toList.dropWhile fun p => p.1 < k

/-! ## Writing entries -/

section Insert

variable [DecidableLT κ] [DecidableEq κ]

/-- Puts the entry of `k` in its place in an ascending list; `f` makes its value of the one that
`k` has so far. -/
def place (k : κ) (f : Option α → α) : List (κ × α) → List (κ × α)
  | [] => [(k, f none)]
  | (x, v) :: rest =>
    if k < x then (k, f none) :: (x, v) :: rest
    else if k = x then (x, f (some v)) :: rest
    else (x, v) :: place k f rest

theorem mem_keys_place {k x : κ} {f : Option α → α} {l : List (κ × α)} :
    x ∈ (place k f l).map Prod.fst ↔ x = k ∨ x ∈ l.map Prod.fst := by
  induction l with
  | nil => simp [place]
  | cons p rest ih =>
    obtain ⟨y, v⟩ := p
    simp only [place]
    split
    · simp
    · split
      · rename_i h
        subst h
        simp
      · rw [List.map_cons, List.mem_cons, ih, List.map_cons, List.mem_cons]
        constructor <;> rintro (h | h | h) <;> simp [h]

variable [LE κ] [Std.IsLinearOrder κ] [Std.LawfulOrderLT κ]

theorem pairwise_place {k : κ} {f : Option α → α} {l : List (κ × α)}
    (h : l.Pairwise fun p q => p.1 < q.1) :
    (place k f l).Pairwise fun p q => p.1 < q.1 := by
  induction l with
  | nil => simp [place]
  | cons p rest ih =>
    obtain ⟨x, v⟩ := p
    obtain ⟨hx, hrest⟩ := List.pairwise_cons.mp h
    simp only [place]
    split
    · rename_i hk
      refine List.pairwise_cons.mpr ⟨fun q hq => ?_, h⟩
      rcases List.mem_cons.mp hq with rfl | hq
      · exact hk
      · exact Std.lt_trans hk (hx q hq)
    · split
      · exact List.pairwise_cons.mpr ⟨hx, hrest⟩
      · rename_i hk hne
        refine List.pairwise_cons.mpr ⟨fun q hq => ?_, ih hrest⟩
        rcases mem_keys_place.mp (List.mem_map_of_mem hq) with he | hm
        · exact he ▸ Std.lt_of_le_of_ne (Std.not_lt.mp hk) (Ne.symm hne)
        · obtain ⟨r, hr, he⟩ := List.mem_map.mp hm
          exact he ▸ hx r hr

/-- The map in which `k` has the value that `f` makes of its value so far. -/
def upsert (m : SortedMap κ α) (k : κ) (f : Option α → α) : SortedMap κ α :=
  ⟨place k f m.toList, pairwise_place m.ascending⟩

/-- The map in which `k` has the value `v`. -/
def insert (m : SortedMap κ α) (k : κ) (v : α) : SortedMap κ α := m.upsert k fun _ => v

/-- The map in which `k` has the value `v` unless it has one already. -/
def insertNew (m : SortedMap κ α) (k : κ) (v : α) : SortedMap κ α := m.upsert k fun o => o.getD v

/-- The map of the entries of `l`; of two entries for one key the later counts. -/
def ofList (l : List (κ × α)) : SortedMap κ α := l.foldl (fun m p => m.insert p.1 p.2) ∅

end Insert

/-! ## Values of keys -/

section Lookup

variable [DecidableEq κ]

omit [LT κ] in
/-- The first entry of a key counts. -/
theorem lookup_cons_eq (k x : κ) (v : α) (l : List (κ × α)) :
    ((x, v) :: l).lookup k = if k = x then some v else l.lookup k := by
  by_cases h : k = x
  · subst h
    simp
  · have hne : (k == x) = false := by simpa using h
    rw [List.lookup_cons, hne, if_neg h]

theorem lookup_eq_none [Std.Irrefl (α := κ) (· < ·)] {k : κ} {l : List (κ × α)}
    (h : ∀ p ∈ l, k < p.1) : l.lookup k = none := by
  rw [List.lookup_eq_none_iff]
  intro p hp
  simpa using Std.ne_of_lt (h p hp)

variable [LE κ] [Std.IsLinearOrder κ] [Std.LawfulOrderLT κ]

/-- An ascending list has nothing for a key that is below its first one. -/
theorem lookup_eq_none_of_lt {k x : κ} {v : α} {l : List (κ × α)} (hk : k < x)
    (hx : ∀ p ∈ l, x < p.1) : ((x, v) :: l).lookup k = none := by
  refine lookup_eq_none fun p hp => ?_
  rcases List.mem_cons.mp hp with rfl | hp
  · exact hk
  · exact Std.lt_trans hk (hx p hp)

theorem lookup_place [DecidableLT κ] {k q : κ} {f : Option α → α} {l : List (κ × α)}
    (h : l.Pairwise fun p q => p.1 < q.1) :
    (place k f l).lookup q = if q = k then some (f (l.lookup k)) else l.lookup q := by
  induction l with
  | nil => exact lookup_cons_eq q k _ []
  | cons p rest ih =>
    obtain ⟨x, v⟩ := p
    obtain ⟨hx, hrest⟩ := List.pairwise_cons.mp h
    unfold place
    split
    · rename_i hk
      rw [lookup_cons_eq q k, lookup_eq_none_of_lt hk hx]
    · split
      · rename_i hk
        subst hk
        rw [lookup_cons_eq, lookup_cons_eq, lookup_cons_eq, if_pos rfl]
        split
        · rfl
        · rfl
      · rename_i hk
        rw [lookup_cons_eq, ih hrest, lookup_cons_eq k, if_neg hk, lookup_cons_eq q]
        by_cases hq : q = x
        · rw [if_pos hq, if_pos hq, if_neg (hq ▸ Ne.symm hk)]
        · rw [if_neg hq, if_neg hq]

omit [Std.IsLinearOrder κ] in
theorem mem_iff_lookup {k : κ} {v : α} {l : List (κ × α)} (h : l.Pairwise fun p q => p.1 < q.1) :
    (k, v) ∈ l ↔ l.lookup k = some v := by
  induction l with
  | nil => simp
  | cons p rest ih =>
    obtain ⟨x, w⟩ := p
    obtain ⟨hx, hrest⟩ := List.pairwise_cons.mp h
    rw [lookup_cons_eq, List.mem_cons, Prod.mk.injEq, ih hrest]
    by_cases hk : k = x
    · -- the rest has nothing for the first key
      rw [hk, lookup_eq_none hx]
      simp [eq_comm]
    · simp [hk]

/-- Ascending lists that have the same values for all keys are equal. -/
theorem eq_of_lookup {l r : List (κ × α)} (hl : l.Pairwise fun p q => p.1 < q.1)
    (hr : r.Pairwise fun p q => p.1 < q.1) (h : ∀ k, l.lookup k = r.lookup k) : l = r := by
  induction l generalizing r with
  | nil =>
    cases r with
    | nil => rfl
    | cons q r =>
      have hfirst := h q.1
      rw [lookup_cons_eq, if_pos rfl] at hfirst
      cases hfirst
  | cons p l ih =>
    obtain ⟨x, v⟩ := p
    obtain ⟨hx, hrestl⟩ := List.pairwise_cons.mp hl
    have hleft := h x
    rw [lookup_cons_eq, if_pos rfl] at hleft
    cases r with
    | nil => cases hleft
    | cons q r =>
      obtain ⟨y, w⟩ := q
      obtain ⟨hy, hrestr⟩ := List.pairwise_cons.mp hr
      have hright := h y
      rw [lookup_cons_eq y y, if_pos rfl] at hright
      -- neither list has the key that the other one begins with above its own first key
      obtain rfl : x = y := by
        rcases Std.lt_trichotomy x y with hlt | heq | hgt
        · rw [lookup_eq_none_of_lt hlt hy] at hleft
          cases hleft
        · exact heq
        · rw [lookup_eq_none_of_lt hgt hx] at hright
          cases hright
      rw [lookup_cons_eq, if_pos rfl] at hleft
      cases hleft
      have hrest : ∀ k, l.lookup k = r.lookup k := by
        intro k
        by_cases hk : k = x
        · rw [hk, lookup_eq_none hx, lookup_eq_none hy]
        · have hboth := h k
          rwa [lookup_cons_eq, lookup_cons_eq, if_neg hk, if_neg hk] at hboth
      rw [ih hrestl hrestr hrest]

end Lookup

section Find

variable [DecidableEq κ] [LE κ] [Std.IsLinearOrder κ] [Std.LawfulOrderLT κ]

variable [DecidableLT κ]

theorem find?_upsert (m : SortedMap κ α) (k q : κ) (f : Option α → α) :
    (m.upsert k f).find? q = if q = k then some (f (m.find? k)) else m.find? q :=
  lookup_place m.ascending

/-- **Reading after a write.** -/
theorem find?_insert (m : SortedMap κ α) (k q : κ) (v : α) :
    (m.insert k v).find? q = if q = k then some v else m.find? q :=
  find?_upsert m k q _

theorem find?_insertNew (m : SortedMap κ α) (k q : κ) (v : α) :
    (m.insertNew k v).find? q = if q = k then some ((m.find? k).getD v) else m.find? q :=
  find?_upsert m k q _

end Find

theorem find?_empty [DecidableEq κ] (k : κ) : (∅ : SortedMap κ α).find? k = none := rfl

theorem find?_erase [DecidableEq κ] (m : SortedMap κ α) (k q : κ) :
    (m.erase k).find? q = if q = k then none else m.find? q := by
  show (m.toList.filter fun p => p.1 ≠ k).lookup q = if q = k then none else m.toList.lookup q
  generalize m.toList = l
  induction l with
  | nil => exact (ite_self none).symm
  | cons p rest ih =>
    obtain ⟨x, v⟩ := p
    rw [lookup_cons_eq]
    by_cases hx : x = k
    · subst hx
      rw [List.filter_cons_of_neg (by simp), ih]
      split
      · rfl
      · rfl
    · rw [List.filter_cons_of_pos (by simpa using hx), lookup_cons_eq, ih]
      by_cases hq : q = x
      · rw [if_pos hq, if_pos hq, if_neg (hq ▸ hx)]
      · rw [if_neg hq, if_neg hq]

theorem mem_keys_iff [DecidableEq κ] {m : SortedMap κ α} {k : κ} :
    k ∈ m.keys ↔ (m.find? k).isSome = true := by
  unfold keys find?
  generalize m.toList = l
  induction l with
  | nil => simp
  | cons p rest ih =>
    obtain ⟨x, v⟩ := p
    rw [lookup_cons_eq, List.map_cons, List.mem_cons, ih]
    by_cases hk : k = x
    · simp [hk]
    · simp [hk]

theorem mem_toList_iff [DecidableEq κ] [LE κ] [Std.IsLinearOrder κ] [Std.LawfulOrderLT κ]
    {m : SortedMap κ α} {k : κ} {v : α} : (k, v) ∈ m.toList ↔ m.find? k = some v :=
  mem_iff_lookup m.ascending

/-- The keys are strictly ascending. -/
theorem pairwise_keys (m : SortedMap κ α) : m.keys.Pairwise (· < ·) :=
  List.pairwise_map.mpr m.ascending

/-- **Maps with the same values are equal.** -/
theorem ext [DecidableEq κ] [LE κ] [Std.IsLinearOrder κ] [Std.LawfulOrderLT κ]
    {m n : SortedMap κ α} (h : ∀ k, m.find? k = n.find? k) : m = n :=
  toList_inj.mp (eq_of_lookup m.ascending n.ascending h)

end SortedMap

end VirtualClasspath
