import Mathlib.Data.Set.Insert
import VirtualClasspath.Closure.Draft
import VirtualClasspath.Proofs.Nest

/-!
# What each phase of a closure adds

One lemma for each step and each phase says which names are in the closure, and which of them count
as references, afterwards. None of them mentions the order of the names: a name that is a member
already is not added again, but it is a member all the same.

* `mem_nestGroupPhase`: the admissible members of the nest groups of the sources.
* `gains_directReferencePhase`: the admissible names that classes in the closure refer to; those that
  were no members before are the references.
* `outerChainPhase_spec`: the admissible classes around classes that are reached outward from the
  references. `Around` is the least set that a walk outward has to visit, and the walk visits it
  whole (`WalkInv`).
-/

namespace VirtualClasspath.Closure

variable {logging : LogSettings} {phase : Phase} {d : Draft} {n m : TypeName} {j : Journal}

namespace Draft

/-! ## One name -/

theorem mem_add :
    m ∈ (d.add logging phase n j).1.closure ↔ m ∈ d.closure ∨ m = n ∧ n.isAdmissible = true := by
  unfold add
  split
  · exact ClosureSet.mem_insert
  · rename_i h
    refine ⟨Or.inl, ?_⟩
    rintro (hm | ⟨rfl, ha⟩)
    · exact hm
    · change m ∈ d.closure
      by_contra hm
      exact h (ClosureSet.admits_iff.mpr ⟨ha, hm⟩)

theorem referenced_add : (d.add logging phase n j).1.referenced = d.referenced := by
  unfold add
  split <;> rfl

theorem sources_add : (d.add logging phase n j).1.sources = d.sources := by
  unfold add
  split <;> rfl

theorem mem_foldlM_add {l : List TypeName} :
    m ∈ (l.foldlM (add logging phase) d j).1.closure ↔
      m ∈ d.closure ∨ m ∈ l ∧ m.isAdmissible = true := by
  refine foldlM_invariant
    (fun done (e : Draft) => m ∈ e.closure ↔ m ∈ d.closure ∨ m ∈ done ∧ m.isAdmissible = true)
    (fun done a e j h => ?_) (by simp) j
  rw [mem_add, h, List.mem_append, List.mem_singleton]
  constructor
  · rintro ((h | ⟨h, ha⟩) | ⟨rfl, ha⟩)
    · exact Or.inl h
    · exact Or.inr ⟨Or.inl h, ha⟩
    · exact Or.inr ⟨Or.inr rfl, ha⟩
  · rintro (h | ⟨h | rfl, ha⟩)
    · exact Or.inl (Or.inl h)
    · exact Or.inl (Or.inr ⟨h, ha⟩)
    · exact Or.inr ⟨rfl, ha⟩

theorem referenced_foldlM_add {l : List TypeName} :
    (l.foldlM (add logging phase) d j).1.referenced = d.referenced :=
  foldlM_invariant (fun _ (e : Draft) => e.referenced = d.referenced)
    (fun _ _ _ _ h => referenced_add.trans h) rfl j

theorem sources_foldlM_add {l : List TypeName} :
    (l.foldlM (add logging phase) d j).1.sources = d.sources :=
  foldlM_invariant (fun _ (e : Draft) => e.sources = d.sources)
    (fun _ _ _ _ h => sources_add.trans h) rfl j

/-! ## Nest groups -/

variable {s : Setting} {source : TypeName} {sources : List SourceUnit} {b : Blob}

/-- `m` belongs to the nest group of the class `b`. -/
def InNest (p : Provider) (b : Blob) (m : TypeName) : Prop :=
  ∃ group, (Nest.groupOf p b {}).1 = .ok group ∧ m ∈ group

theorem mem_addNestGroup (h : s.provider.Steady) :
    m ∈ (addNestGroup s source d b j).1.closure ↔
      m ∈ d.closure ∨ InNest s.provider b m ∧ m.isAdmissible = true := by
  unfold addNestGroup InNest
  rw [bind_run, Nest.groupOf_fst h b {} j]
  cases (Nest.groupOf s.provider b j).1 with
  | error e =>
    refine ⟨Or.inl, ?_⟩
    rintro (hm | ⟨⟨_, hg, _⟩, _⟩)
    · exact hm
    · cases hg
  | ok group =>
    refine mem_foldlM_add.trans (or_congr_right (and_congr_left fun _ => ?_))
    simp [SortedSet.mem_def]

theorem frame_addNestGroup :
    (addNestGroup s source d b j).1.referenced = d.referenced ∧
      (addNestGroup s source d b j).1.sources = d.sources := by
  unfold addNestGroup
  rw [bind_run]
  cases (Nest.groupOf s.provider b j).1 with
  | error e => exact ⟨rfl, rfl⟩
  | ok group => exact ⟨referenced_foldlM_add, sources_foldlM_add⟩

theorem mem_addSource (h : s.provider.Steady) {u : SourceUnit} :
    m ∈ (addSource s d u j).1.closure ↔
      m ∈ d.closure ∨ (∃ b ∈ s.provider.served u.name, InNest s.provider b m) ∧
        m.isAdmissible = true := by
  unfold addSource
  rw [bind_run, h.fetch_fst]
  have hd : m ∈ (d.withSource u.name).closure ↔ m ∈ d.closure := by
    unfold withSource
    split <;> rfl
  refine foldlM_invariant (fun done (e : Draft) => m ∈ e.closure ↔ m ∈ d.closure ∨
    (∃ b ∈ done, InNest s.provider b m) ∧ m.isAdmissible = true)
    (fun done b e j hI => ?_) (by simp [hd]) _
  rw [mem_addNestGroup h, hI, or_assoc, ← or_and_right]
  refine or_congr_right (and_congr_left fun _ => ?_)
  simp [or_and_right, exists_or]

theorem referenced_addSource {u : SourceUnit} :
    (addSource s d u j).1.referenced = d.referenced := by
  unfold addSource
  rw [bind_run]
  refine foldlM_invariant (fun _ (e : Draft) => e.referenced = d.referenced)
    (fun _ _ _ _ hI => frame_addNestGroup.1.trans hI) ?_ _
  unfold withSource
  split <;> rfl

theorem mem_sources_addSource {u : SourceUnit} :
    n ∈ (addSource s d u j).1.sources ↔ n ∈ d.sources ∨ n = u.name := by
  unfold addSource
  rw [bind_run]
  refine foldlM_invariant (fun _ (e : Draft) => n ∈ e.sources ↔ n ∈ d.sources ∨ n = u.name)
    (fun _ _ _ _ hI => by rwa [frame_addNestGroup.2]) ?_ _
  unfold withSource
  split
  · rename_i hu
    refine ⟨Or.inl, ?_⟩
    rintro (hn | rfl)
    · exact hn
    · exact hu
  · simp

/-- **The first phase** adds the admissible members of the nest groups of the sources. -/
theorem mem_nestGroupPhase (h : s.provider.Steady) :
    m ∈ (nestGroupPhase s sources d j).1.closure ↔
      m ∈ d.closure ∨
        (∃ u ∈ sources, ∃ b ∈ s.provider.served u.name, InNest s.provider b m) ∧
          m.isAdmissible = true := by
  refine foldlM_invariant (fun (done : List SourceUnit) (e : Draft) =>
      m ∈ e.closure ↔ m ∈ d.closure ∨
        (∃ u ∈ done, ∃ b ∈ s.provider.served u.name, InNest s.provider b m) ∧
          m.isAdmissible = true)
    (fun done u e j hI => ?_) (by simp) _
  rw [mem_addSource h, hI, or_assoc, ← or_and_right]
  refine or_congr_right (and_congr_left fun _ => ?_)
  simp [or_and_right, exists_or]

theorem referenced_nestGroupPhase (s : Setting) (sources : List SourceUnit) (d : Draft)
    (j : Journal) :
    (nestGroupPhase s sources d j).1.referenced = d.referenced :=
  foldlM_invariant (fun _ (e : Draft) => e.referenced = d.referenced)
    (fun _ _ _ _ hI => referenced_addSource.trans hI) rfl _

theorem mem_sources_nestGroupPhase :
    n ∈ (nestGroupPhase s sources d j).1.sources ↔ n ∈ d.sources ∨ ∃ u ∈ sources, u.name = n := by
  refine foldlM_invariant
    (fun (done : List SourceUnit) (e : Draft) =>
      n ∈ e.sources ↔ n ∈ d.sources ∨ ∃ u ∈ done, u.name = n)
    (fun done u e j hI => ?_) (by simp) _
  rw [mem_sources_addSource, hI, or_assoc]
  refine or_congr_right ?_
  simp [or_and_right, exists_or, eq_comm]

/-! ## References -/

/-- `m` is mentioned in the class `b`. -/
def Mentions (b : Blob) (m : TypeName) : Prop :=
  ∃ names, ClassFile.referencesOf b.bytes = .ok names ∧ m ∈ names

/-- `e` is `d` with the admissible names of `S` as members, and as references those that are new. -/
structure Gains (d e : Draft) (S : Set TypeName) : Prop where
  closure : ∀ m, m ∈ e.closure ↔ m ∈ d.closure ∨ m ∈ S ∧ m.isAdmissible = true
  referenced : ∀ m, m ∈ e.referenced ↔
    m ∈ d.referenced ∨ m ∈ S ∧ m.isAdmissible = true ∧ m ∉ d.closure
  sources : e.sources = d.sources

theorem Gains.empty (d : Draft) : Gains d d ∅ := ⟨by simp, by simp, rfl⟩

theorem Gains.trans {d e f : Draft} {S T : Set TypeName} (h : Gains d e S) (h' : Gains e f T) :
    Gains d f (S ∪ T) where
  closure m := by
    rw [h'.closure, h.closure, or_assoc, ← or_and_right]
    rfl
  referenced m := by
    rw [h'.referenced, h.referenced, h.closure, Set.mem_union]
    by_cases hS : m ∈ S <;> by_cases ha : m.isAdmissible = true <;> by_cases hd : m ∈ d.closure <;>
      simp [hS, ha, hd]
  sources := h'.sources.trans h.sources

theorem gains_addReference : Gains d (addReference logging d n j).1 {n} := by
  have hc : ∀ m, m ∈ (addReference logging d n j).1.closure ↔
      m ∈ (d.add logging .directReference n j).1.closure := fun m => by
    unfold addReference
    rw [bind_run]
    split <;> rfl
  refine ⟨fun m => ?_, fun m => ?_, ?_⟩
  · rw [hc, mem_add, Set.mem_singleton_iff]
    exact or_congr_right (and_congr_right fun hm => by rw [hm])
  · unfold addReference
    rw [bind_run]
    split
    · rename_i hn
      rw [ClosureSet.admits_iff] at hn
      refine SortedSet.mem_insert.trans ?_
      rw [referenced_add, Set.mem_singleton_iff, or_comm]
      refine or_congr_right ⟨fun hm => ⟨hm, hm ▸ hn.1, hm ▸ hn.2⟩, fun hm => hm.1⟩
    · rename_i hn
      change m ∈ (d.add logging .directReference n j).1.referenced ↔ _
      rw [referenced_add]
      refine ⟨Or.inl, ?_⟩
      rintro (hm | ⟨rfl, ha, hd⟩)
      · exact hm
      · exact absurd (ClosureSet.admits_iff.mpr ⟨ha, hd⟩) hn
  · unfold addReference
    rw [bind_run]
    split <;> exact sources_add

theorem gains_skip {e : CompileError} : Gains d (d.skip logging n e j).1 ∅ where
  closure m := by
    change m ∈ d.closure ↔ _
    simp
  referenced m := by
    change m ∈ d.referenced ↔ _
    simp
  sources := rfl

theorem gains_addReferences : Gains d (addReferences s d b j).1 {m | Mentions b m} := by
  unfold addReferences
  cases hb : ClassFile.referencesOf b.bytes with
  | error fault =>
    have hS : {m | Mentions b m} = ∅ := Set.eq_empty_of_forall_notMem fun m ⟨_, h, _⟩ => by
      rw [hb] at h
      cases h
    rw [hS]
    exact gains_skip
  | ok names =>
    have hS : {m | Mentions b m} = {m | m ∈ names.toList} := by
      ext m
      constructor
      · rintro ⟨_, h, hm⟩
        rw [hb] at h
        cases h
        exact hm
      · exact fun hm => ⟨names, hb, hm⟩
    rw [hS]
    refine foldlM_invariant (fun done e => Gains d e {m | m ∈ done})
      (fun done a e j h => ?_) (by simpa using Gains.empty d) j
    convert h.trans gains_addReference using 1
    ext m
    simp [or_comm]

/-- **The second phase** adds what the classes that it is given refer to. -/
theorem gains_directReferencePhase (s : Setting) (d : Draft) (j : Journal) :
    Gains d (directReferencePhase s d j).1
      {m | d.closure.isEmpty = false ∧
        ∃ b ∈ (s.provider.ask d.closure.toList j).1, Mentions b m} := by
  unfold directReferencePhase
  split
  · rename_i hd
    change Gains d d _
    simpa [hd] using Gains.empty d
  · rename_i hd
    rw [bind_run]
    simp only [Bool.not_eq_true] at hd
    simp only [hd, true_and]
    refine foldlM_invariant (fun done e => Gains d e {m | ∃ b ∈ done, Mentions b m})
      (fun done b e j h => ?_) (by simpa using Gains.empty d) _
    convert h.trans gains_addReferences using 1
    ext m
    simp [or_and_right, exists_or]

/-! ## One round of a walk outward -/

section Rounds

variable {pending walked : SortedSet TypeName}

theorem walk_of_none (hp : pending.max? = none) : walk s d pending walked j = (d, j) := by
  rw [walk]
  split
  · rfl
  · rename_i hm
    rw [hp] at hm
    cases hm

theorem walk_of_walked (hp : pending.max? = some n) (hw : n ∈ walked) :
    walk s d pending walked j = walk s d (pending.erase n) walked j := by
  rw [walk]
  split
  · rename_i hm
    rw [hp] at hm
    cases hm
  · rename_i m hm
    cases hp.symm.trans hm
    rw [dif_pos hw]

theorem walk_of_available (hp : pending.max? = some n) (hw : n ∉ walked)
    (ha : n ∈ s.alwaysAvailable) :
    walk s d pending walked j = walk s d (pending.erase n) (walked.insert n) j := by
  rw [walk]
  split
  · rename_i hm
    rw [hp] at hm
    cases hm
  · rename_i m hm
    cases hp.symm.trans hm
    rw [dif_neg hw, if_pos ha]

/-- The walk goes on from what the classes under the largest pending name add. -/
theorem walk_of_found (hp : pending.max? = some n) (hw : n ∉ walked)
    (ha : n ∉ s.alwaysAvailable) {bs : List Blob} {j₁ : Journal}
    (hf : s.provider.fetch n j = (bs, j₁)) :
    walk s d pending walked j =
      let found := bs.foldlM (addOuter s n) (d, pending.erase n) j₁
      walk s found.1.1 found.1.2 (walked.insert n) found.2 := by
  rw [walk]
  split
  · rename_i hm
    rw [hp] at hm
    cases hm
  · rename_i m hm
    cases hp.symm.trans hm
    rw [dif_neg hw, if_neg ha]
    split
    · rename_i hf'
      cases hf.symm.trans hf'
      rfl
    · rename_i hf'
      cases hf.symm.trans hf'
      rfl

end Rounds

/-! ## The walk outward -/

/-- `m` encloses the class `b`. -/
def Encloses (b : Blob) (m : TypeName) : Prop :=
  ∃ c, ClassFile.parse b.bytes = .ok c ∧ c.outerOf = some m

/-- One step outward: `o` encloses a class that the provider has under `n`, unless the backend has
`n` anyway. -/
def Outward (s : Setting) (n o : TypeName) : Prop :=
  n ∉ s.alwaysAvailable ∧ ∃ b ∈ s.provider.served n, Encloses b o

/-- The names that a walk outward from `R` has to visit: the least set that holds `R` and, with a
name, every name one step outward. -/
inductive Around (s : Setting) (R : Set TypeName) : TypeName → Prop
  | start {n : TypeName} (h : n ∈ R) : Around s R n
  | outward {n o : TypeName} (h : Around s R n) (ho : Outward s n o) : Around s R o

theorem addOuter_spec (s : Setting) (n : TypeName) (d : Draft) (pending : SortedSet TypeName)
    (b : Blob) (j : Journal) :
    (∀ m, m ∈ (addOuter s n (d, pending) b j).1.1.closure ↔
      m ∈ d.closure ∨ Encloses b m ∧ m.isAdmissible = true) ∧
    (∀ m, m ∈ (addOuter s n (d, pending) b j).1.2 ↔ m ∈ pending ∨ Encloses b m) ∧
    (addOuter s n (d, pending) b j).1.1.sources = d.sources := by
  cases hb : ClassFile.parse b.bytes with
  | error fault =>
    have hno : ∀ m, ¬ Encloses b m := fun m ⟨c, h, _⟩ => by
      rw [hb] at h
      cases h
    simp only [addOuter, hb]
    exact ⟨fun m => by simp [hno]; rfl, fun m => by simp [hno]; rfl, rfl⟩
  | ok c =>
    have hiff : ∀ m, Encloses b m ↔ c.outerOf = some m := fun m => by simp [Encloses, hb]
    cases hc : c.outerOf with
    | none =>
      simp only [addOuter, hb, hc, hiff, reduceCtorEq, false_and, or_false]
      exact ⟨fun m => Iff.rfl, fun m => Iff.rfl, rfl⟩
    | some outer =>
      simp only [addOuter, hb, hc, hiff, Option.some.injEq]
      refine ⟨fun m => mem_add.trans (or_congr_right ?_), fun m => SortedSet.mem_insert.trans ?_,
        sources_add⟩
      · exact ⟨fun ⟨h, ha⟩ => ⟨h.symm, h ▸ ha⟩, fun ⟨h, ha⟩ => ⟨h.symm, h ▸ ha⟩⟩
      · rw [or_comm, eq_comm]

theorem foldlM_addOuter_spec (s : Setting) (n : TypeName) (d : Draft)
    (pending : SortedSet TypeName) (blobs : List Blob) (j : Journal) :
    (∀ m, m ∈ (blobs.foldlM (addOuter s n) (d, pending) j).1.1.closure ↔
      m ∈ d.closure ∨ (∃ b ∈ blobs, Encloses b m) ∧ m.isAdmissible = true) ∧
    (∀ m, m ∈ (blobs.foldlM (addOuter s n) (d, pending) j).1.2 ↔
      m ∈ pending ∨ ∃ b ∈ blobs, Encloses b m) ∧
    (blobs.foldlM (addOuter s n) (d, pending) j).1.1.sources = d.sources := by
  refine foldlM_invariant (fun (done : List Blob) (t : Draft × SortedSet TypeName) =>
      (∀ m, m ∈ t.1.closure ↔
        m ∈ d.closure ∨ (∃ b ∈ done, Encloses b m) ∧ m.isAdmissible = true) ∧
      (∀ m, m ∈ t.2 ↔ m ∈ pending ∨ ∃ b ∈ done, Encloses b m) ∧ t.1.sources = d.sources)
    (fun done b t j hI => ?_) (by simp) j
  obtain ⟨hc, hp, hs⟩ := hI
  obtain ⟨hc', hp', hs'⟩ := addOuter_spec s n t.1 t.2 b j
  refine ⟨fun m => ?_, fun m => ?_, hs'.trans hs⟩
  · rw [hc', hc, or_assoc, ← or_and_right]
    simp [or_and_right, exists_or]
  · rw [hp', hp, or_assoc]
    simp [or_and_right, exists_or]

/-- The state of a walk outward from `R`, started with the closure `start`: it has only come to names
around `R`, what it has to visit is pending or visited, and a class was added when a name that it
encloses was visited. -/
structure WalkInv (s : Setting) (R : Set TypeName) (start : Draft) (d : Draft)
    (pending walked : SortedSet TypeName) : Prop where
  pending_around : ∀ m ∈ pending, Around s R m
  walked_around : ∀ m ∈ walked, Around s R m
  start_met : ∀ m ∈ R, m ∈ pending ∨ m ∈ walked
  outward_met : ∀ n ∈ walked, ∀ o, Outward s n o → o ∈ pending ∨ o ∈ walked
  closure : ∀ m, m ∈ d.closure ↔
    m ∈ start.closure ∨ (∃ n ∈ walked, Outward s n m) ∧ m.isAdmissible = true
  sources : d.sources = start.sources

namespace WalkInv

variable {R : Set TypeName} {start : Draft} {pending walked : SortedSet TypeName}

/-- A name that was visited before is taken off. -/
theorem drop (h : WalkInv s R start d pending walked) (hn : n ∈ walked) :
    WalkInv s R start d (pending.erase n) walked where
  pending_around m hm := h.pending_around m (SortedSet.mem_erase.mp hm).2
  walked_around := h.walked_around
  start_met m hm := by
    by_cases he : m = n
    · exact Or.inr (he ▸ hn)
    · exact (h.start_met m hm).imp_left fun hp => SortedSet.mem_erase.mpr ⟨he, hp⟩
  outward_met k hk o ho := by
    by_cases he : o = n
    · exact Or.inr (he ▸ hn)
    · exact (h.outward_met k hk o ho).imp_left fun hp => SortedSet.mem_erase.mpr ⟨he, hp⟩
  closure := h.closure
  sources := h.sources

/-- A pending name is visited: `e` and `next` are what the classes under it make of the draft and of
what is pending. -/
theorem visit (h : WalkInv s R start d pending walked) (hn : n ∈ pending) {e : Draft}
    {next : SortedSet TypeName}
    (hc : ∀ m, m ∈ e.closure ↔ m ∈ d.closure ∨ Outward s n m ∧ m.isAdmissible = true)
    (hp : ∀ m, m ∈ next ↔ m ∈ pending.erase n ∨ Outward s n m) (hs : e.sources = d.sources) :
    WalkInv s R start e next (walked.insert n) := by
  have hmet : ∀ m, m ∈ pending ∨ m ∈ walked → m ∈ next ∨ m ∈ walked.insert n := by
    intro m hm
    rw [hp, SortedSet.mem_erase, SortedSet.mem_insert]
    by_cases he : m = n
    · exact Or.inr (Or.inl he)
    · exact hm.imp (fun hm => Or.inl ⟨he, hm⟩) Or.inr
  refine ⟨fun m hm => ?_, fun m hm => ?_, fun m hm => hmet m (h.start_met m hm), fun k hk o ho => ?_,
    fun m => ?_, hs.trans h.sources⟩
  · rcases (hp m).mp hm with hm | hm
    · exact h.pending_around m (SortedSet.mem_erase.mp hm).2
    · exact .outward (h.pending_around n hn) hm
  · rcases SortedSet.mem_insert.mp hm with rfl | hm
    · exact h.pending_around m hn
    · exact h.walked_around m hm
  · rcases SortedSet.mem_insert.mp hk with rfl | hk
    · exact Or.inl ((hp o).mpr (Or.inr ho))
    · exact hmet o (h.outward_met k hk o ho)
  · rw [hc, h.closure, or_assoc, ← or_and_right]
    simp [SortedSet.mem_insert, or_comm]

/-- When nothing is pending, every name around `R` was visited. -/
theorem walked_of_around (h : WalkInv s R start d ∅ walked) {m : TypeName} (hm : Around s R m) :
    m ∈ walked := by
  induction hm with
  | start hr => exact (h.start_met _ hr).resolve_left SortedSet.not_mem_empty
  | outward _ ho ih => exact (h.outward_met _ ih _ ho).resolve_left SortedSet.not_mem_empty

end WalkInv

/-- **A walk visits what it has to**: at its end, the classes one step outward from the names around
`R` were added. -/
theorem walk_spec (h : s.provider.Steady) {R : Set TypeName} {start : Draft}
    {pending walked : SortedSet TypeName} (hI : WalkInv s R start d pending walked) :
    (∀ m, m ∈ (walk s d pending walked j).1.closure ↔
      m ∈ start.closure ∨ (∃ n, Around s R n ∧ Outward s n m) ∧ m.isAdmissible = true) ∧
    (walk s d pending walked j).1.sources = start.sources := by
  fun_induction walk s d pending walked j with
  | case1 d pending walked j hp =>
    rw [SortedSet.eq_of_max?_eq_none hp] at hI
    refine ⟨fun m => ?_, hI.sources⟩
    rw [hI.closure]
    exact or_congr_right (and_congr_left fun _ => exists_congr fun n =>
      and_congr_left fun _ => ⟨hI.walked_around n, hI.walked_of_around⟩)
  | case2 d pending walked j n hp hw ih => exact ih (hI.drop hw)
  | case3 d pending walked j n hp hw ha ih =>
    have hno : ∀ m, ¬ Outward s n m := fun m ho => ho.1 ha
    exact ih (hI.visit (SortedSet.mem_of_max?_eq_some hp) (by simp [hno]) (by simp [hno]) rfl)
  | case4 d pending walked j n hp hw ha j₁ hf ih =>
    have hserved := h.fetch_fst n j
    rw [hf] at hserved
    have hno : ∀ m, ¬ Outward s n m := fun m ho => by
      obtain ⟨b, hb, -⟩ := ho.2
      rw [← hserved] at hb
      exact List.not_mem_nil hb
    exact ih (hI.visit (SortedSet.mem_of_max?_eq_some hp) (by simp [hno]) (by simp [hno]) rfl)
  | case5 d pending walked j n hp hw ha b bs j₁ hf e next j₂ hfold ih =>
    have hserved := h.fetch_fst n j
    rw [hf] at hserved
    obtain ⟨hc, hn, hs⟩ := foldlM_addOuter_spec s n d (pending.erase n) (b :: bs) j₁
    rw [hfold] at hc hn hs
    have hout : ∀ m, (∃ b' ∈ b :: bs, Encloses b' m) ↔ Outward s n m := fun m => by
      unfold Outward
      rw [← hserved]
      exact ⟨fun hm => ⟨ha, hm⟩, fun hm => hm.2⟩
    simp only [hout] at hc hn
    exact ih (hI.visit (SortedSet.mem_of_max?_eq_some hp) hc hn hs)

/-- **The third phase** adds the admissible classes one step outward from the names around the
references. -/
theorem outerChainPhase_spec (h : s.provider.Steady) :
    (∀ m, m ∈ (outerChainPhase s d j).1.closure ↔ m ∈ d.closure ∨
      (∃ n, Around s {r | r ∈ d.referenced} n ∧ Outward s n m) ∧ m.isAdmissible = true) ∧
    (outerChainPhase s d j).1.sources = d.sources :=
  walk_spec h ⟨fun _ hm => .start hm, fun _ hm => absurd hm SortedSet.not_mem_empty,
    fun _ hm => Or.inl hm, fun _ hn => absurd hn SortedSet.not_mem_empty,
    fun _ => ⟨Or.inl, fun hm => hm.resolve_right fun ⟨⟨_, hn, _⟩, _⟩ =>
      SortedSet.not_mem_empty hn⟩, rfl⟩

end Draft

end VirtualClasspath.Closure
