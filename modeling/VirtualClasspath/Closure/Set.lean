import VirtualClasspath.Sorted.Set
import VirtualClasspath.TypeName

/-!
# Sets of class names

A `ClosureSet` is a sorted set of names that may stand for classes: inserting anything else changes
nothing.
-/

namespace VirtualClasspath

/-- A set of admissible names. -/
structure ClosureSet where
  names : SortedSet TypeName
  admissible : ∀ n ∈ names, n.isAdmissible = true

namespace ClosureSet

theorem names_inj {s t : ClosureSet} : s.names = t.names ↔ s = t := by
  cases s; cases t; simp

instance : DecidableEq ClosureSet := fun s t => decidable_of_iff (s.names = t.names) names_inj

/-- The set without names. -/
def empty : ClosureSet := ⟨∅, fun _ h => absurd h SortedSet.not_mem_empty⟩

instance : EmptyCollection ClosureSet := ⟨empty⟩
instance : Inhabited ClosureSet := ⟨empty⟩

instance : Membership TypeName ClosureSet := ⟨fun s n => n ∈ s.names⟩

instance (n : TypeName) (s : ClosureSet) : Decidable (n ∈ s) :=
  inferInstanceAs (Decidable (n ∈ s.names))

theorem mem_def {s : ClosureSet} {n : TypeName} : n ∈ s ↔ n ∈ s.names := Iff.rfl

/-- The names, ascending. -/
def toList (s : ClosureSet) : List TypeName := s.names.toList

/-- Whether `n` is a member. -/
def contains (s : ClosureSet) (n : TypeName) : Bool := decide (n ∈ s)

/-- The number of members. -/
def size (s : ClosureSet) : Nat := s.names.size

/-- Whether there is no member. -/
def isEmpty (s : ClosureSet) : Bool := s.names.isEmpty

/-- Whether inserting `n` makes the set larger. -/
def admits (s : ClosureSet) (n : TypeName) : Bool := n.isAdmissible && !s.contains n

/-- The set with `n`, if `n` is admissible. -/
def insert (s : ClosureSet) (n : TypeName) : ClosureSet :=
  if h : n.isAdmissible = true then
    ⟨s.names.insert n, fun m hm => by
      rcases SortedSet.mem_insert.mp hm with rfl | hm
      · exact h
      · exact s.admissible m hm⟩
  else s

/-- The members that pass `p`. -/
def filter (p : TypeName → Bool) (s : ClosureSet) : ClosureSet :=
  ⟨s.names.filter p, fun n hn => s.admissible n (SortedSet.mem_filter.mp hn).1⟩

/-- The set without `n`. -/
def erase (s : ClosureSet) (n : TypeName) : ClosureSet := s.filter (· ≠ n)

/-- The admissible names of `l`. -/
def ofList (l : List TypeName) : ClosureSet := l.foldl insert ∅

/-- Whether every member of `t` is one of `s`. -/
def isSuperset (s t : ClosureSet) : Bool := s.names.isSuperset t.names

theorem not_mem_empty {n : TypeName} : n ∉ (∅ : ClosureSet) := SortedSet.not_mem_empty

theorem admits_iff {s : ClosureSet} {n : TypeName} :
    s.admits n = true ↔ n.isAdmissible = true ∧ n ∉ s := by
  rw [admits, Bool.and_eq_true, Bool.not_eq_true', contains, decide_eq_false_iff_not]

theorem mem_insert {s : ClosureSet} {n m : TypeName} :
    m ∈ s.insert n ↔ m ∈ s ∨ m = n ∧ n.isAdmissible = true := by
  unfold insert
  split
  · rename_i h
    rw [mem_def, SortedSet.mem_insert, mem_def]
    simp [h, or_comm]
  · rename_i h
    simp [h]

theorem mem_filter {p : TypeName → Bool} {s : ClosureSet} {n : TypeName} :
    n ∈ s.filter p ↔ n ∈ s ∧ p n = true :=
  SortedSet.mem_filter

theorem mem_erase {s : ClosureSet} {n m : TypeName} : m ∈ s.erase n ↔ m ≠ n ∧ m ∈ s := by
  rw [erase, mem_filter]
  simp [and_comm]

/-- **Sets with the same members are equal.** -/
theorem ext {s t : ClosureSet} (h : ∀ n, n ∈ s ↔ n ∈ t) : s = t :=
  names_inj.mp (SortedSet.ext h)

end ClosureSet

end VirtualClasspath
