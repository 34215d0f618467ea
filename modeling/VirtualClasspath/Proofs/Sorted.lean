import VirtualClasspath.Sorted.Map
import VirtualClasspath.Sorted.Set

/-!
# Sizes of sorted sets, loops over sorted maps

A set lists no element twice (`nodup_toList`), grows by one with each new element (`size_insert`),
and has none above its last one (`le_of_max?_eq_some`). For maps: what one holds after one more write
(`forall_insert`), after a list of them (`find?_foldl_insert`, `find?_foldl_insertNew`), after a list
of entries that is in order already (`ofList_of_ascending`), and from a key on
(`listFrom_eq_filter`).
-/

namespace VirtualClasspath

/-- In a list where what passes never comes after what does not, the first that does not pass is the
end of those that do. -/
theorem takeWhile_eq_filter {α : Type} {p : α → Bool} {l : List α}
    (h : l.Pairwise fun x y => p y = true → p x = true) : l.takeWhile p = l.filter p := by
  induction l with
  | nil => rfl
  | cons x l ih =>
    obtain ⟨hx, hl⟩ := List.pairwise_cons.mp h
    by_cases hp : p x = true
    · rw [List.takeWhile_cons_of_pos hp, List.filter_cons_of_pos hp, ih hl]
    · rw [List.takeWhile_cons_of_neg hp, List.filter_cons_of_neg hp, eq_comm,
        List.filter_eq_nil_iff]
      exact fun y hy hpy => hp (hx y hy hpy)

namespace SortedSet

variable {κ : Type} [LT κ] [DecidableEq κ] [DecidableLT κ]

theorem length_place {k : κ} {l : List κ} (h : k ∉ l) : (place k l).length = l.length + 1 := by
  induction l with
  | nil => rfl
  | cons x xs ih =>
    obtain ⟨hx, hxs⟩ := not_or.mp (mt List.mem_cons.mpr h)
    rw [place, if_neg hx]
    split
    · rfl
    · rw [List.length_cons, ih hxs, List.length_cons]

omit [DecidableEq κ] [DecidableLT κ] in
theorem nodup_toList [LE κ] [Std.IsLinearOrder κ] [Std.LawfulOrderLT κ] (s : SortedSet κ) :
    s.toList.Nodup :=
  s.ascending.imp Std.ne_of_lt

theorem size_insert [LE κ] [Std.IsLinearOrder κ] [Std.LawfulOrderLT κ] {s : SortedSet κ} {k : κ}
    (h : k ∉ s) : (s.insert k).size = s.size + 1 :=
  length_place h

omit [DecidableEq κ] [DecidableLT κ] in
theorem le_of_max?_eq_some [LE κ] [Std.IsLinearOrder κ] [Std.LawfulOrderLT κ] {s : SortedSet κ}
    {k x : κ} (h : s.max? = some k) (hx : x ∈ s) : x ≤ k := by
  obtain ⟨below, hl⟩ := List.getLast?_eq_some_iff.mp h
  have hascending := s.ascending
  rw [mem_def, hl] at hx
  rw [hl, List.pairwise_append] at hascending
  rcases List.mem_append.mp hx with hbelow | hlast
  · exact Std.le_of_lt (hascending.2.2 x hbelow k List.mem_cons_self)
  · rw [List.mem_singleton.mp hlast]
    exact Std.le_refl k

end SortedSet

namespace SortedMap

variable {κ α : Type} [LT κ] [DecidableEq κ] [DecidableLT κ] [LE κ] [Std.IsLinearOrder κ]
  [Std.LawfulOrderLT κ]

theorem contains_insert {m : SortedMap κ α} {k q : κ} {v : α} :
    (m.insert k v).contains q = true ↔ q = k ∨ m.contains q = true := by
  unfold contains
  rw [find?_insert]
  by_cases hq : q = k
  · simp [hq]
  · simp [hq]

omit [DecidableLT κ] [LE κ] [Std.IsLinearOrder κ] [Std.LawfulOrderLT κ] in
theorem contains_erase {m : SortedMap κ α} {k q : κ} :
    (m.erase k).contains q = true ↔ q ≠ k ∧ m.contains q = true := by
  unfold contains
  rw [find?_erase]
  by_cases hq : q = k
  · simp [hq]
  · simp [hq]

omit [DecidableLT κ] [LE κ] [Std.IsLinearOrder κ] [Std.LawfulOrderLT κ] in
theorem not_contains_of_find? {m : SortedMap κ α} {k : κ} (h : m.find? k = none) :
    ¬ m.contains k = true := by
  unfold contains
  rw [h]
  exact Bool.false_ne_true

/-- What holds of the entries of a map holds of them after one more write. -/
theorem forall_insert {P : κ → α → Prop} {m : SortedMap κ α} {k : κ} {v : α} (hv : P k v)
    (hm : ∀ q w, m.find? q = some w → P q w) (q : κ) (w : α) (hw : (m.insert k v).find? q = some w) :
    P q w := by
  rw [find?_insert] at hw
  by_cases hq : q = k
  · rw [if_pos hq] at hw
    cases hw
    exact hq ▸ hv
  · rw [if_neg hq] at hw
    exact hm q w hw

theorem find?_foldl_insert (f : κ → α) (l : List κ) (m : SortedMap κ α) (k : κ) :
    (l.foldl (fun m n => m.insert n (f n)) m).find? k =
      if k ∈ l then some (f k) else m.find? k := by
  induction l generalizing m with
  | nil => rw [List.foldl_nil, if_neg List.not_mem_nil]
  | cons n l ih =>
    rw [List.foldl_cons, ih, find?_insert]
    by_cases hl : k ∈ l
    · rw [if_pos hl, if_pos (List.mem_cons_of_mem n hl)]
    · rw [if_neg hl]
      by_cases hk : k = n
      · rw [if_pos hk, if_pos (List.mem_cons.mpr (Or.inl hk)), hk]
      · rw [if_neg hk, if_neg fun h => (List.mem_cons.mp h).elim hk hl]

/-- A key that has no value gets its own one, and keeps it. -/
theorem find?_foldl_insertNew (f : κ → α) (l : List κ) (m : SortedMap κ α) (k : κ) :
    (l.foldl (fun m n => m.insertNew n (f n)) m).find? k =
      if k ∈ l then some ((m.find? k).getD (f k)) else m.find? k := by
  induction l generalizing m with
  | nil => rw [List.foldl_nil, if_neg List.not_mem_nil]
  | cons n l ih =>
    rw [List.foldl_cons, ih, find?_insertNew]
    by_cases hk : k = n
    · rw [if_pos hk, if_pos (List.mem_cons.mpr (Or.inl hk)), ← hk, Option.getD_some]
      exact ite_self _
    · rw [if_neg hk]
      by_cases hl : k ∈ l
      · rw [if_pos hl, if_pos (List.mem_cons_of_mem n hl)]
      · rw [if_neg hl, if_neg fun h => (List.mem_cons.mp h).elim hk hl]

/-- Entries that are added to a map stay behind the ones that it has. -/
theorem find?_foldl_newEntries (l : List (κ × α)) (m : SortedMap κ α) (k : κ) :
    (l.foldl (fun m p => m.insertNew p.1 p.2) m).find? k = (m.find? k).or (l.lookup k) := by
  induction l generalizing m with
  | nil => exact (Option.or_none).symm
  | cons p l ih =>
    obtain ⟨x, v⟩ := p
    rw [List.foldl_cons, ih, find?_insertNew, lookup_cons_eq]
    by_cases hk : k = x
    · rw [if_pos hk, if_pos hk, hk]
      cases m.find? x with
      | none => rfl
      | some w => rfl
    · rw [if_neg hk, if_neg hk]

theorem find?_foldl_entries {l : List (κ × α)} (h : l.Pairwise fun p q => p.1 < q.1)
    (m : SortedMap κ α) (k : κ) :
    (l.foldl (fun m p => m.insert p.1 p.2) m).find? k = (l.lookup k).or (m.find? k) := by
  induction l generalizing m with
  | nil => rfl
  | cons p l ih =>
    obtain ⟨x, v⟩ := p
    obtain ⟨hx, hl⟩ := List.pairwise_cons.mp h
    rw [List.foldl_cons, ih hl, find?_insert, lookup_cons_eq]
    by_cases hk : k = x
    · rw [if_pos hk, if_pos hk, hk, lookup_eq_none hx]
      rfl
    · rw [if_neg hk, if_neg hk]

/-- The map of entries in ascending order is made of just these. -/
theorem ofList_of_ascending {l : List (κ × α)} (h : l.Pairwise fun p q => p.1 < q.1) :
    ofList l = ⟨l, h⟩ := by
  refine ext fun k => ?_
  unfold ofList
  rw [find?_foldl_entries h, find?_empty, Option.or_none]
  rfl

omit [DecidableEq κ] in
/-- Reading a map from a key on leaves out what comes before the key. -/
theorem listFrom_eq_filter (m : SortedMap κ α) (k : κ) :
    m.listFrom k = m.toList.filter fun p => ¬ p.1 < k := by
  unfold listFrom
  have h := m.ascending
  generalize m.toList = l at h
  induction l with
  | nil => rfl
  | cons p l ih =>
    obtain ⟨hp, hl⟩ := List.pairwise_cons.mp h
    by_cases hk : p.1 < k
    · rw [List.dropWhile_cons, if_pos (decide_eq_true hk),
        List.filter_cons_of_neg (by simpa using hk), ih hl]
    · have hlater : ∀ q ∈ p :: l, decide (¬ q.1 < k) = true := by
        intro q hq
        rcases List.mem_cons.mp hq with rfl | hq
        · exact decide_eq_true hk
        · exact decide_eq_true fun hlt => hk (Std.lt_trans (hp q hq) hlt)
      rw [List.dropWhile_cons, if_neg (by simpa using hk), List.filter_eq_self.mpr hlater]

end SortedMap

end VirtualClasspath
