/-!
# Sorted sets

A `SortedSet` keeps its elements as a strictly ascending list, so two sets are equal exactly when
they have the same elements (`ext`), and listing a set is reading it off (`toList`).

Results: `mem_insert`, `mem_erase`, `mem_ofList`, `mem_filter` say what each operation does to the
elements. A search that never looks at a name twice ends when no name is left: a test that lets less
through leaves fewer elements of a list (`length_filter_lt_of_imp`).
-/

namespace VirtualClasspath

/-- A finite set of elements in a total order. -/
structure SortedSet (κ : Type) [LT κ] where
  /-- The elements, strictly ascending. -/
  toList : List κ
  ascending : toList.Pairwise (· < ·)

namespace SortedSet

variable {κ : Type} [LT κ]

/-- The set without elements. -/
def empty : SortedSet κ := ⟨[], .nil⟩

instance : EmptyCollection (SortedSet κ) := ⟨empty⟩
instance : Inhabited (SortedSet κ) := ⟨empty⟩

instance : Membership κ (SortedSet κ) := ⟨fun s k => k ∈ s.toList⟩

theorem mem_def {s : SortedSet κ} {k : κ} : k ∈ s ↔ k ∈ s.toList := Iff.rfl

theorem toList_inj {s t : SortedSet κ} : s.toList = t.toList ↔ s = t := by
  cases s; cases t; simp

instance [DecidableEq κ] : DecidableEq (SortedSet κ) := fun s t =>
  decidable_of_iff (s.toList = t.toList) toList_inj

instance [DecidableEq κ] (k : κ) (s : SortedSet κ) : Decidable (k ∈ s) :=
  inferInstanceAs (Decidable (k ∈ s.toList))

/-- Whether `k` is an element. -/
def contains [DecidableEq κ] (s : SortedSet κ) (k : κ) : Bool := decide (k ∈ s)

/-- The number of elements. -/
def size (s : SortedSet κ) : Nat := s.toList.length

/-- Whether there is no element. -/
def isEmpty (s : SortedSet κ) : Bool := s.toList.isEmpty

/-- The elements that pass `p`. -/
def filter (p : κ → Bool) (s : SortedSet κ) : SortedSet κ :=
  ⟨s.toList.filter p, s.ascending.filter p⟩

/-- The set without `k`. -/
def erase [DecidableEq κ] (s : SortedSet κ) (k : κ) : SortedSet κ :=
  s.filter (· ≠ k)

/-- Whether every element of `t` is one of `s`. -/
def isSuperset [DecidableEq κ] (s t : SortedSet κ) : Bool :=
  t.toList.all s.contains

/-- The largest element. -/
def max? (s : SortedSet κ) : Option κ := s.toList.getLast?

/-! ## Insertion -/

section Insert

variable [DecidableLT κ] [DecidableEq κ]

/-- Puts `k` in its place in an ascending list. -/
def place (k : κ) : List κ → List κ
  | [] => [k]
  | x :: xs => if k < x then k :: x :: xs else if k = x then x :: xs else x :: place k xs

theorem mem_place {k x : κ} {l : List κ} : x ∈ place k l ↔ x = k ∨ x ∈ l := by
  induction l with
  | nil => simp [place]
  | cons y ys ih =>
    simp only [place]
    split
    · simp
    · split
      · rename_i h
        subst h
        simp
      · simp only [List.mem_cons, ih]
        constructor <;> rintro (h | h | h) <;> simp [h]

variable [LE κ] [Std.IsLinearOrder κ] [Std.LawfulOrderLT κ]

theorem pairwise_place {k : κ} {l : List κ} (h : l.Pairwise (· < ·)) :
    (place k l).Pairwise (· < ·) := by
  induction l with
  | nil => simp [place]
  | cons x xs ih =>
    obtain ⟨hx, hxs⟩ := List.pairwise_cons.mp h
    simp only [place]
    split
    · rename_i hk
      refine List.pairwise_cons.mpr ⟨fun y hy => ?_, h⟩
      rcases List.mem_cons.mp hy with rfl | hy
      · exact hk
      · exact Std.lt_trans hk (hx y hy)
    · split
      · exact h
      · rename_i hk hne
        refine List.pairwise_cons.mpr ⟨fun y hy => ?_, ih hxs⟩
        rcases mem_place.mp hy with rfl | hy
        · exact Std.lt_of_le_of_ne (Std.not_lt.mp hk) (Ne.symm hne)
        · exact hx y hy

/-- The set with `k` added. -/
def insert (s : SortedSet κ) (k : κ) : SortedSet κ :=
  ⟨place k s.toList, pairwise_place s.ascending⟩

/-- The elements of `l`, each once. -/
def ofList (l : List κ) : SortedSet κ := l.foldl insert ∅

/-- The elements of both. -/
def union (s t : SortedSet κ) : SortedSet κ := t.toList.foldl insert s

theorem mem_insert {s : SortedSet κ} {k x : κ} : x ∈ s.insert k ↔ x = k ∨ x ∈ s :=
  mem_place

theorem mem_foldl_insert {l : List κ} {s : SortedSet κ} {x : κ} :
    x ∈ l.foldl insert s ↔ x ∈ s ∨ x ∈ l := by
  induction l generalizing s with
  | nil => simp
  | cons y ys ih =>
    rw [List.foldl_cons, ih, mem_insert, List.mem_cons]
    constructor
    · rintro ((h | h) | h) <;> simp [h]
    · rintro (h | h | h) <;> simp [h]

theorem mem_ofList {l : List κ} {x : κ} : x ∈ ofList l ↔ x ∈ l := by
  refine mem_foldl_insert.trans ⟨?_, Or.inr⟩
  rintro (h | h)
  · exact absurd h List.not_mem_nil
  · exact h

theorem mem_union {s t : SortedSet κ} {x : κ} : x ∈ s.union t ↔ x ∈ s ∨ x ∈ t :=
  mem_foldl_insert

end Insert

/-! ## Elements -/

theorem not_mem_empty {k : κ} : k ∉ (∅ : SortedSet κ) := List.not_mem_nil

theorem mem_filter {p : κ → Bool} {s : SortedSet κ} {x : κ} :
    x ∈ s.filter p ↔ x ∈ s ∧ p x = true :=
  List.mem_filter

theorem mem_erase [DecidableEq κ] {s : SortedSet κ} {k x : κ} : x ∈ s.erase k ↔ x ≠ k ∧ x ∈ s := by
  rw [erase, mem_filter]
  simp [and_comm]

theorem contains_iff [DecidableEq κ] {s : SortedSet κ} {k : κ} : s.contains k = true ↔ k ∈ s := by
  simp [contains]

/-- Ascending lists with the same elements are equal. -/
theorem eq_of_ascending [LE κ] [Std.IsLinearOrder κ] [Std.LawfulOrderLT κ] {l m : List κ}
    (hl : l.Pairwise (· < ·)) (hm : m.Pairwise (· < ·)) (h : ∀ k, k ∈ l ↔ k ∈ m) : l = m := by
  induction l generalizing m with
  | nil =>
    cases m with
    | nil => rfl
    | cons y ys => exact absurd ((h y).mpr List.mem_cons_self) List.not_mem_nil
  | cons x xs ih =>
    cases m with
    | nil => exact absurd ((h x).mp List.mem_cons_self) List.not_mem_nil
    | cons y ys =>
      obtain ⟨hx, hxs⟩ := List.pairwise_cons.mp hl
      obtain ⟨hy, hys⟩ := List.pairwise_cons.mp hm
      have hxy : x = y := by
        rcases List.mem_cons.mp ((h x).mp List.mem_cons_self) with he | hin
        · exact he
        · rcases List.mem_cons.mp ((h y).mpr List.mem_cons_self) with he | hin'
          · exact he.symm
          · exact absurd (Std.lt_trans (hx y hin') (hy x hin)) Std.lt_irrefl
      subst hxy
      congr 1
      refine ih hxs hys fun k => ⟨fun hk => ?_, fun hk => ?_⟩
      · rcases List.mem_cons.mp ((h k).mp (List.mem_cons_of_mem _ hk)) with rfl | hk'
        · exact absurd (hx _ hk) Std.lt_irrefl
        · exact hk'
      · rcases List.mem_cons.mp ((h k).mpr (List.mem_cons_of_mem _ hk)) with rfl | hk'
        · exact absurd (hy _ hk) Std.lt_irrefl
        · exact hk'

/-- **Sets with the same elements are equal.** -/
theorem ext [LE κ] [Std.IsLinearOrder κ] [Std.LawfulOrderLT κ] {s t : SortedSet κ}
    (h : ∀ k, k ∈ s ↔ k ∈ t) : s = t :=
  toList_inj.mp (eq_of_ascending s.ascending t.ascending h)

theorem size_erase_lt [DecidableEq κ] {s : SortedSet κ} {k : κ} (h : k ∈ s) :
    (s.erase k).size < s.size :=
  List.length_filter_lt_length_iff_exists.mpr ⟨k, h, by simp⟩

theorem eq_of_max?_eq_none {s : SortedSet κ} (h : s.max? = none) : s = ∅ :=
  toList_inj.mp (List.getLast?_eq_none_iff.mp h)

theorem mem_of_max?_eq_some {s : SortedSet κ} {k : κ} (h : s.max? = some k) : k ∈ s :=
  List.mem_of_getLast? h

end SortedSet

/-! ## Counting what is left -/

section Remaining

variable {α : Type} {p q : α → Bool} {l : List α}

theorem length_filter_le_of_imp (h : ∀ x, p x = true → q x = true) :
    (l.filter p).length ≤ (l.filter q).length := by
  rw [← List.countP_eq_length_filter, ← List.countP_eq_length_filter]
  exact List.countP_mono_left fun x _ => h x

theorem length_filter_lt_of_imp (h : ∀ x, p x = true → q x = true) {n : α} (hn : n ∈ l)
    (hp : p n = false) (hq : q n = true) : (l.filter p).length < (l.filter q).length := by
  induction l with
  | nil => exact absurd hn List.not_mem_nil
  | cons x xs ih =>
    rcases List.mem_cons.mp hn with rfl | hn
    · rw [List.filter_cons_of_neg (by simp [hp]), List.filter_cons_of_pos hq, List.length_cons]
      exact Nat.lt_succ_of_le (length_filter_le_of_imp h)
    · have := ih hn
      by_cases hx : p x = true
      · rw [List.filter_cons_of_pos hx, List.filter_cons_of_pos (h x hx)]
        simpa using this
      · rw [List.filter_cons_of_neg hx]
        exact Nat.lt_of_lt_of_le this ((List.sublist_cons_self x xs).filter q).length_le

end Remaining

end VirtualClasspath
