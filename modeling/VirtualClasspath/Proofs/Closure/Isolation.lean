import Mathlib.Control.Monad.Basic
import VirtualClasspath.Assembly.Write
import VirtualClasspath.Proofs.Closure.Exact

/-!
# What a class that cannot be read costs

Let `d` be a name under which a map has bytes that are no class. The map without `d` is served by a
provider that differs in one name only (`Drops`), so a search for a nest group goes the same way in
both until it comes to `d`: outward both fail, and inward one fails where the other has a member more
(`groupOf_toOption`). What classes refer to and what encloses them is the same for both, since nothing
is taken from a class that cannot be read.

`compute_isolates` follows: the closure is that of the map without `d`, for the sources whose nest
groups `d` is no member of. `compute_spoiledNest` is a case where that costs a source more than `d`.
-/

namespace VirtualClasspath

/-- The classes without the one of a name. -/
def ClassMap.erase (m : ClassMap) (d : TypeName) : ClassMap :=
  { m with classes := m.classes.erase d }

theorem ClassMap.find?_erase (m : ClassMap) (d n : TypeName) :
    (m.erase d).classes.find? n = if n = d then none else m.classes.find? n :=
  SortedMap.find?_erase _ _ _

namespace Nest

/-! ## Nest groups with and without a class -/

/-- Two providers that differ in one name: there, `p` has a class that cannot be read, and `q` has
none. -/
structure Drops (p q : Provider) (d : TypeName) : Prop where
  elsewhere : ∀ n ≠ d, ∀ j j', (findClass p n j).1 = (findClass q n j').1
  broken : ∀ j, ∃ e, (findClass p d j).1 = .error e
  absent : ∀ j, (findClass q d j).1 = .ok none

theorem drops_erase {m : ClassMap} {d : TypeName} {bytes : Bytes} {fault : ClassFile.Fault}
    (hd : m.classes.find? d = some bytes) (hfault : ClassFile.parse bytes = .error fault) :
    Drops (.ofMap m) (.ofMap (m.erase d)) d where
  elsewhere n hn j j' := by rw [findClass_ofMap, findClass_ofMap, ClassMap.find?_erase, if_neg hn]
  broken j := by
    rw [findClass_ofMap, hd]
    refine ⟨.malformed d fault, ?_⟩
    simp only [parseBlob, hfault]
    rfl
  absent j := by rw [findClass_ofMap, ClassMap.find?_erase, if_pos rfl]

namespace Drops

variable {p q : Provider} {d n : TypeName} {known : SortedMap TypeName ClassFile} {j j₁ : Journal}
  {r : Except Error (Option ClassFile)}

theorem findClass_eq (h : Drops p q d) (hn : n ≠ d) (hf : findClass p n j = (r, j₁)) (j' : Journal) :
    ∃ j₂, findClass q n j' = (r, j₂) :=
  ⟨_, Prod.ext (by rw [← h.elsewhere n hn j j', hf]) rfl⟩

theorem ne_of_findClass (h : Drops p q d) {o : Option ClassFile}
    (hf : findClass p n j = (.ok o, j₁)) : n ≠ d := by
  rintro rfl
  obtain ⟨e, he⟩ := h.broken j
  rw [hf] at he
  cases he

theorem classFor_eq (h : Drops p q d) (hn : n ≠ d) (hf : classFor p known n j = (r, j₁))
    (j' : Journal) : ∃ j₂, classFor q known n j' = (r, j₂) := by
  unfold classFor at hf ⊢
  cases hk : known.find? n with
  | some c =>
    rw [hk] at hf
    cases hf
    exact ⟨j', rfl⟩
  | none =>
    rw [hk] at hf
    exact h.findClass_eq hn hf j'

theorem ne_of_classFor (h : Drops p q d) (hd : known.find? d = none) {o : Option ClassFile}
    (hf : classFor p known n j = (.ok o, j₁)) : n ≠ d := by
  rintro rfl
  unfold classFor at hf
  rw [hd] at hf
  exact h.ne_of_findClass hf rfl

theorem classFor_absent (h : Drops p q d) (hd : known.find? d = none) (j : Journal) :
    ∃ j₁, classFor q known d j = (.ok none, j₁) := by
  unfold classFor
  rw [hd]
  exact ⟨_, Prod.ext (h.absent j) rfl⟩

/-- Both walks outward end in the same class, or neither finds an end. -/
theorem climb_toOption (h : Drops p q d) (a : Ascent) (outer : Option TypeName) (j j' : Journal) :
    (climb p a outer j).1.toOption = (climb q a outer j').1.toOption := by
  fun_induction climb p a outer j generalizing j' with
  | case1 a j => rw [climb]
  | case2 a j n hs => rw [climb, dif_pos hs]
  | case3 a j n hs e j₁ hf =>
    rw [climb_next (by simpa using hs)]
    by_cases hn : n = d
    · subst hn
      have hq := h.absent j'
      generalize findClass q n j' = r at hq
      obtain ⟨r, j₂⟩ := r
      cases hq
      rfl
    · obtain ⟨j₂, hq⟩ := h.findClass_eq hn hf j'
      rw [hq]
  | case4 a j n hs j₁ hf =>
    obtain ⟨j₂, hq⟩ := h.findClass_eq (h.ne_of_findClass hf) hf j'
    rw [climb_next (by simpa using hs), hq]
  | case5 a j n hs c j₁ hf ih =>
    obtain ⟨j₂, hq⟩ := h.findClass_eq (h.ne_of_findClass hf) hf j'
    rw [climb_next (by simpa using hs), hq]
    exact ih j₂

/-- What is read on the way outward is not `d`. -/
theorem find?_of_climb (h : Drops p q d) {a b : Ascent} (hd : a.classes.find? d = none)
    (outer : Option TypeName) (j : Journal) (hb : (climb p a outer j).1 = .ok b) :
    b.classes.find? d = none := by
  fun_induction climb p a outer j with
  | case1 | case2 =>
    cases hb
    exact hd
  | case3 | case4 => cases hb
  | case5 a j n hs c j₁ hf ih =>
    have hn := h.ne_of_findClass hf
    exact ih (by rw [SortedMap.find?_insert, if_neg hn.symm]; exact hd) hb

/-- A walk inward that comes to `d` fails with a class that cannot be read, and only then. -/
theorem descend_toOption (h : Drops p q d) {known : SortedMap TypeName ClassFile}
    (hknown : known.find? d = none) {group : SortedSet TypeName} {queue : List TypeName}
    (hd : d ∈ group ↔ d ∈ queue) (j j' : Journal) :
    (descend p known group queue j).1.toOption =
      ((descend q known group queue j').1.toOption).filter fun r => d ∉ r := by
  fun_induction descend p known group queue j generalizing j' with
  | case1 group j =>
    rw [descend]
    have hno : d ∉ group := fun hmem => List.not_mem_nil (hd.mp hmem)
    simp [Except.toOption, Option.filter, hno]
  | case2 group j n rest e j₁ hf =>
    rw [descend_cons]
    by_cases hn : n = d
    · subst hn
      -- `q` has no class there and goes on, but `d` stays in the group
      obtain ⟨j₂, hq⟩ := h.classFor_absent hknown j'
      rw [hq]
      cases hr : (descend q known group rest j₂).1 with
      | error e' => rfl
      | ok r =>
        have hmem := subset_of_descend hr n (hd.mpr List.mem_cons_self)
        simp [Except.toOption, Option.filter, hmem]
    · obtain ⟨j₂, hq⟩ := h.classFor_eq hn hf j'
      rw [hq]
      rfl
  | case3 group j n rest j₁ hf ih =>
    have hn := h.ne_of_classFor hknown hf
    obtain ⟨j₂, hq⟩ := h.classFor_eq hn hf j'
    rw [descend_cons, hq]
    refine ih ?_ j₂
    rw [hd, List.mem_cons, or_iff_right hn.symm]
  | case4 group j n rest c j₁ hf fresh ih =>
    have hn := h.ne_of_classFor hknown hf
    obtain ⟨j₂, hq⟩ := h.classFor_eq hn hf j'
    rw [descend_cons, hq]
    refine ih ?_ j₂
    rw [mem_join, hd, List.mem_cons, or_iff_right hn.symm, List.mem_append]

/-- **Where a class cannot be read, the nest groups that it is a member of are lost**, and no
others. -/
theorem groupOf_toOption (h : Drops p q d) {s : TypeName} (hs : s ≠ d) (bytes : Bytes)
    (j j' : Journal) :
    (groupOf p ⟨s, bytes⟩ j).1.toOption =
      ((groupOf q ⟨s, bytes⟩ j').1.toOption).filter fun r => d ∉ r := by
  unfold groupOf
  cases parseBlob ⟨s, bytes⟩ with
  | error e => rfl
  | ok c =>
    have hclimb := h.climb_toOption ⟨s, (∅ : SortedMap TypeName ClassFile).insert s c⟩ c.outerOf j j'
    have hstart : ((∅ : SortedMap TypeName ClassFile).insert s c).find? d = none := by
      rw [SortedMap.find?_insert, if_neg hs.symm]
      rfl
    have hends : ∀ b, (climb p ⟨s, (∅ : SortedMap TypeName ClassFile).insert s c⟩ c.outerOf j).1 =
        .ok b → b.classes.find? d = none := fun b => h.find?_of_climb hstart c.outerOf j
    simp only
    generalize climb p _ c.outerOf j = r at hclimb hends
    generalize climb q _ c.outerOf j' = r' at hclimb
    obtain ⟨a, j₁⟩ := r
    obtain ⟨a', j₂⟩ := r'
    cases a with
    | error e =>
      cases a' with
      | error e' => rfl
      | ok a' => cases hclimb
    | ok a =>
      cases a' with
      | error e' => cases hclimb
      | ok a' =>
        cases hclimb
        refine h.descend_toOption (hends a rfl) ?_ j₁ j₂
        simp [join, SortedSet.mem_insert, SortedSet.not_mem_empty]

end Drops

end Nest

/-! ## The closure with and without a class -/

/-- The nest group of the class under a name, if there is one. -/
def ClassMap.nestGroup? (m : ClassMap) (s : TypeName) : Option (SortedSet TypeName) :=
  (m.classes.find? s).bind fun bytes => (Nest.groupOf (.ofMap m) ⟨s, bytes⟩ {}).1.toOption

/-- Whether `d` belongs to the nest group of the class under `s`. -/
def ClassMap.nests (m : ClassMap) (s d : TypeName) : Bool :=
  (m.nestGroup? s).any fun group => d ∈ group

section Erase

variable {m : ClassMap} {d : TypeName} {bytes : Bytes} {fault : ClassFile.Fault}

theorem ClassMap.nestGroup?_erase (hd : m.classes.find? d = some bytes)
    (hfault : ClassFile.parse bytes = .error fault) (s : TypeName) :
    m.nestGroup? s = ((m.erase d).nestGroup? s).filter fun group => d ∉ group := by
  unfold nestGroup?
  rw [find?_erase]
  by_cases hs : s = d
  · subst hs
    rw [hd, if_pos rfl]
    simp only [Option.bind_some, Nest.groupOf, Nest.parseBlob, hfault]
    rfl
  · rw [if_neg hs]
    cases m.classes.find? s with
    | none => rfl
    | some bytes' => exact (Nest.drops_erase hd hfault).groupOf_toOption hs bytes' {} {}

/-- A class that can be read is not the one left out. -/
theorem ClassMap.find?_erase_of_ok (hd : m.classes.find? d = some bytes)
    (hfault : ClassFile.parse bytes = .error fault) {n : TypeName} {bytes' : Bytes} {c : ClassFile}
    (hc : ClassFile.parse bytes' = .ok c) :
    (m.erase d).classes.find? n = some bytes' ↔ m.classes.find? n = some bytes' := by
  rw [find?_erase]
  by_cases hn : n = d
  · subst hn
    rw [if_pos rfl]
    refine ⟨nofun, fun h => ?_⟩
    cases hd.symm.trans h
    rw [hfault] at hc
    cases hc
  · rw [if_neg hn]

namespace Closure

variable {sources : List SourceUnit} {n : TypeName} {always : SortedSet TypeName}
  {logging logging' : LogSettings} {j j' : Journal}

theorem mem_nested_iff :
    n ∈ Nested m (sourceNames sources) ↔
      n.isAdmissible = true ∧ ∃ u ∈ sources, ∃ group, m.nestGroup? u.name = some group ∧
        n ∈ group := by
  refine and_congr_right fun _ => ?_
  unfold ClassMap.nestGroup?
  simp only [Option.bind_eq_some_iff, toOption_eq_some_iff]
  constructor
  · rintro ⟨s, ⟨u, hu, rfl⟩, bytes, group, hb, hg, hn⟩
    exact ⟨u, hu, group, ⟨bytes, hb, hg⟩, hn⟩
  · rintro ⟨u, hu, group, ⟨bytes, hb, hg⟩, hn⟩
    exact ⟨u.name, ⟨u, hu, rfl⟩, bytes, group, hb, hg, hn⟩

/-- The sources whose nest groups the class `d` is no member of. -/
def sourcesWithout (m : ClassMap) (d : TypeName) (sources : List SourceUnit) : List SourceUnit :=
  sources.filter fun u => !m.nests u.name d

section Spoiled

variable (hd : m.classes.find? d = some bytes) (hfault : ClassFile.parse bytes = .error fault)

include hd hfault

theorem nested_erase (sources : List SourceUnit) :
    Nested m (sourceNames sources) =
      Nested (m.erase d) (sourceNames (sourcesWithout (m.erase d) d sources)) := by
  ext n
  rw [mem_nested_iff, mem_nested_iff]
  refine and_congr_right fun _ => exists_congr fun u => ?_
  unfold sourcesWithout ClassMap.nests
  rw [List.mem_filter, ClassMap.nestGroup?_erase hd hfault u.name]
  cases (m.erase d).nestGroup? u.name with
  | none => simp
  | some group => by_cases hg : d ∈ group <;> simp [Option.filter, hg]

theorem referenced_erase (sources : List SourceUnit) :
    Referenced m (sourceNames sources) =
      Referenced (m.erase d) (sourceNames (sourcesWithout (m.erase d) d sources)) := by
  ext n
  unfold Referenced
  rw [nested_erase hd hfault sources]
  refine and_congr_right fun _ => exists_congr fun k => and_congr_right fun _ =>
    exists_congr fun bytes' => exists_congr fun refs => ?_
  rw [and_congr_left_iff]
  rintro ⟨hrefs, -⟩
  obtain ⟨c, hc, -⟩ := ClassFile.parse_of_referencesOf hrefs
  exact (ClassMap.find?_erase_of_ok hd hfault hc).symm

theorem enclosing_erase (sources : List SourceUnit) :
    Enclosing m (sourceNames sources) always n ↔
      Enclosing (m.erase d) (sourceNames (sourcesWithout (m.erase d) d sources)) always n := by
  constructor
  · intro h
    induction h with
    | referenced hr => exact .referenced (referenced_erase hd hfault sources ▸ hr)
    | outer _ hn hb hc ho ih =>
      exact .outer ih hn ((ClassMap.find?_erase_of_ok hd hfault hc).mpr hb) hc ho
  · intro h
    induction h with
    | referenced hr => exact .referenced (referenced_erase hd hfault sources ▸ hr)
    | outer _ hn hb hc ho ih =>
      exact .outer ih hn ((ClassMap.find?_erase_of_ok hd hfault hc).mp hb) hc ho

theorem mem_compute_erase :
    n ∈ (compute ⟨.ofMap m, logging, always⟩ sources j).1 ↔
      n ∈ (compute ⟨.ofMap (m.erase d), logging', always⟩
          (sourcesWithout (m.erase d) d sources) j').1 ∧
        ∀ u ∈ sources, ¬ u.name.Writes n := by
  rw [mem_compute, mem_compute, nested_erase hd hfault, enclosing_erase hd hfault, and_assoc]
  refine and_congr_right fun _ => ?_
  constructor
  · intro h
    refine ⟨?_, fun u hu => h u.name ⟨u, hu, rfl⟩⟩
    rintro s ⟨u, hu, rfl⟩
    exact h u.name ⟨u, (List.mem_filter.mp hu).1, rfl⟩
  · rintro ⟨-, h⟩ s ⟨u, hu, rfl⟩
    exact h u hu

end Spoiled

/-- Without a nest group there is no closure. -/
theorem compute_eq_empty
    (h : ∀ u ∈ sources, m.nestGroup? u.name = none) :
    (compute ⟨.ofMap m, logging, always⟩ sources j).1 = ∅ := by
  have hnested : ∀ n, n ∉ Nested m (sourceNames sources) := by
    intro n hn
    obtain ⟨-, u, hu, group, hg, -⟩ := mem_nested_iff.mp hn
    rw [h u hu] at hg
    cases hg
  have henclosing : ∀ n, ¬ Enclosing m (sourceNames sources) always n := by
    intro n hn
    induction hn with
    | referenced hr =>
      obtain ⟨-, k, hk, -⟩ := hr
      exact hnested k hk
    | outer _ _ _ _ _ ih => exact ih
  refine ClosureSet.ext fun n => ⟨fun hn => ?_, fun hn => absurd hn ClosureSet.not_mem_empty⟩
  rcases (mem_compute.mp hn).1 with hn | ⟨hn, -⟩
  · exact absurd hn (hnested n)
  · exact absurd hn (henclosing n)

theorem parse_broken : ∃ fault, ClassFile.parse [0xCA, 0xFE] = .error fault := by
  have hno : (ClassFile.parse [0xCA, 0xFE]).toOption.isSome = false := by decide +kernel
  cases h : ClassFile.parse [0xCA, 0xFE] with
  | error fault => exact ⟨fault, rfl⟩
  | ok c =>
    rw [h] at hno
    cases hno

/-- **A class that cannot be read costs only the nest groups that it is a member of.** -/
theorem compute_isolates (m : ClassMap) {d : TypeName} {bytes : Bytes} {fault : ClassFile.Fault}
    (hd : m.classes.find? d = some bytes) (hfault : ClassFile.parse bytes = .error fault)
    (always : SortedSet TypeName) (sources : List SourceUnit) (logging logging' : LogSettings)
    (j j' : Journal) :
    (∀ n, n ∈ (compute ⟨.ofMap m, logging, always⟩ sources j).1 ↔
      n ∈ (compute ⟨.ofMap (m.erase d), logging', always⟩
          (sourcesWithout (m.erase d) d sources) j').1 ∧
        ∀ u ∈ sources, ¬ u.name.Writes n) ∧
    ((∀ u ∈ sources, (m.erase d).nests u.name d = false) →
      (compute ⟨.ofMap m, logging, always⟩ sources j).1 =
        (compute ⟨.ofMap (m.erase d), logging', always⟩ sources j').1) := by
  refine ⟨fun n => mem_compute_erase hd hfault, fun hkept => ClosureSet.ext fun n => ?_⟩
  have hall : sourcesWithout (m.erase d) d sources = sources :=
    List.filter_eq_self.mpr fun u hu => by simp [hkept u hu]
  rw [mem_compute_erase hd hfault, hall, and_iff_left_iff_imp]
  exact fun hn u hu => (mem_compute.mp hn).2 u.name ⟨u, hu, rfl⟩

/-- A class `U` with a super class `D`. -/
def orphan : Assembly.ClassSpec := { name := "U", superClass := some "D" }

/-- The class `U`, next to bytes under the name of its super class that are no class. -/
def orphanMap : ClassMap := .ofBlobs [⟨⟨"U"⟩, orphan.bytes⟩, ⟨⟨"D"⟩, [0xCA, 0xFE]⟩]

/-- The class `U` has no other class in its nest group. -/
theorem orphan_alone : (orphanMap.erase ⟨"D"⟩).nests ⟨"U"⟩ ⟨"D"⟩ = false := by
  have hread : (ClassFile.parse orphan.bytes).map (fun c => (c.outerOf, c.directNested)) =
      .ok (none, ∅) := by decide +kernel
  have hfind : (orphanMap.erase ⟨"D"⟩).classes.find? ⟨"U"⟩ = some orphan.bytes := by decide +kernel
  obtain ⟨c, hc, h⟩ := exists_of_map_eq_ok hread
  obtain ⟨ho, hn⟩ := Prod.mk.inj h
  unfold ClassMap.nests ClassMap.nestGroup?
  rw [hfind, Option.bind_some, Nest.groupOf_alone (b := ⟨⟨"U"⟩, orphan.bytes⟩) hc ho hn]
  decide

/-- A super class that cannot be read, as one that the map does not have. -/
theorem compute_isolates_superClass :
    (∃ fault, ClassFile.parse [0xCA, 0xFE] = .error fault) ∧
      orphanMap.classes.find? ⟨"D"⟩ = some [0xCA, 0xFE] ∧
      (orphanMap.erase ⟨"D"⟩).nests ⟨"U"⟩ ⟨"D"⟩ = false ∧
      (compute ⟨.ofMap orphanMap, {}, defaultAvailable⟩ [⟨⟨"U"⟩, ""⟩] {}).1 =
        (compute ⟨.ofMap (orphanMap.erase ⟨"D"⟩), {}, defaultAvailable⟩ [⟨⟨"U"⟩, ""⟩] {}).1 := by
  have hd : orphanMap.classes.find? ⟨"D"⟩ = some [0xCA, 0xFE] := by decide +kernel
  obtain ⟨fault, hfault⟩ := parse_broken
  refine ⟨⟨fault, hfault⟩, hd, orphan_alone, ?_⟩
  refine (compute_isolates orphanMap hd hfault defaultAvailable [⟨⟨"U"⟩, ""⟩] {} {} {} {}).2 ?_
  intro u hu
  rw [List.mem_singleton.mp hu]
  exact orphan_alone

/-! ### A nested class that cannot be read -/

/-- A class `A` with a super class `S` and a nested class `A$B`. -/
def nesting : Assembly.ClassSpec :=
  { name := "A", superClass := some "S", innerClasses := [⟨"A$B", some "A", none, 0⟩] }

/-- The class `A`, next to bytes under the name of its nested class that are no class. -/
def spoiledNest : ClassMap := .ofBlobs [⟨⟨"A"⟩, nesting.bytes⟩, ⟨⟨"A$B"⟩, [0xCA, 0xFE]⟩]

theorem nesting_parsed :
    ∃ c, ClassFile.parse nesting.bytes = .ok c ∧ c.outerOf = none ∧
      c.directNested = .ofList [⟨"A$B"⟩] := by
  have hread : (ClassFile.parse nesting.bytes).map (fun c => (c.outerOf, c.directNested)) =
      .ok (none, .ofList [⟨"A$B"⟩]) := by decide +kernel
  obtain ⟨c, hc, h⟩ := exists_of_map_eq_ok hread
  exact ⟨c, hc, Prod.mk.inj h⟩

/-- Without the bytes that are no class, there is the nest group of `A`. -/
theorem nestGroup?_nesting :
    ∃ group, (spoiledNest.erase ⟨"A$B"⟩).nestGroup? ⟨"A"⟩ = some group ∧
      (⟨"A"⟩ : TypeName) ∈ group ∧ (⟨"A$B"⟩ : TypeName) ∈ group := by
  obtain ⟨c, hc, ho, hd⟩ := nesting_parsed
  have hlist : (spoiledNest.erase ⟨"A$B"⟩).classes.toList = [(⟨"A"⟩, nesting.bytes)] := by
    decide +kernel
  have hread : ∀ e ∈ (spoiledNest.erase ⟨"A$B"⟩).classes.toList,
      ∃ c, ClassFile.parse e.2 = .ok c := by
    intro e he
    rw [hlist, List.mem_singleton] at he
    exact ⟨c, he ▸ hc⟩
  have hfind : (spoiledNest.erase ⟨"A$B"⟩).classes.find? ⟨"A"⟩ = some nesting.bytes := by
    decide +kernel
  obtain ⟨group, hgroup, hself, hnested⟩ := Nest.mem_groupOf_outermost
    (Nest.findClass_ofMap_ne_error hread) (b := ⟨⟨"A"⟩, nesting.bytes⟩) hc ho {}
  refine ⟨group, ?_, hself, hnested _ (by rw [hd]; decide)⟩
  unfold ClassMap.nestGroup?
  rw [hfind, Option.bind_some, hgroup]
  rfl

/-- A source `A` whose nested class cannot be read has no closure; without the bytes that cannot be
read, the super class `S` is in its closure. -/
theorem compute_spoiledNest :
    (∃ fault, ClassFile.parse [0xCA, 0xFE] = .error fault) ∧
      spoiledNest.classes.find? ⟨"A$B"⟩ = some [0xCA, 0xFE] ∧
      (compute ⟨.ofMap spoiledNest, {}, defaultAvailable⟩ [⟨⟨"A"⟩, ""⟩] {}).1 ≠
        (compute ⟨.ofMap (spoiledNest.erase ⟨"A$B"⟩), {}, defaultAvailable⟩ [⟨⟨"A"⟩, ""⟩] {}).1 := by
  obtain ⟨fault, hfault⟩ := parse_broken
  have hd : spoiledNest.classes.find? ⟨"A$B"⟩ = some [0xCA, 0xFE] := by decide +kernel
  obtain ⟨group, hgroup, hself, hnested⟩ := nestGroup?_nesting
  have hempty : (compute ⟨.ofMap spoiledNest, {}, defaultAvailable⟩ [⟨⟨"A"⟩, ""⟩] {}).1 = ∅ := by
    refine compute_eq_empty fun u hu => ?_
    rw [List.mem_singleton.mp hu, ClassMap.nestGroup?_erase hd hfault, hgroup]
    simp [Option.filter, hnested]
  have hsuper : (⟨"S"⟩ : TypeName) ∈ (compute ⟨.ofMap (spoiledNest.erase ⟨"A$B"⟩), {},
      defaultAvailable⟩ [⟨⟨"A"⟩, ""⟩] {}).1 := by
    have hmember : (⟨"A"⟩ : TypeName) ∈
        Nested (spoiledNest.erase ⟨"A$B"⟩) (sourceNames [⟨⟨"A"⟩, ""⟩]) :=
      mem_nested_iff.mpr ⟨by decide, _, List.mem_singleton_self _, group, hgroup, hself⟩
    have hrefs : ClassFile.referencesOf nesting.bytes = .ok (.ofList [⟨"A"⟩, ⟨"A$B"⟩, ⟨"S"⟩]) := by
      decide +kernel
    refine mem_compute.mpr ⟨?_, ?_⟩
    · by_cases hs : (⟨"S"⟩ : TypeName) ∈
          Nested (spoiledNest.erase ⟨"A$B"⟩) (sourceNames [⟨⟨"A"⟩, ""⟩])
      · exact Or.inl hs
      · exact Or.inr ⟨.referenced ⟨hs, _, hmember, _, _, by decide +kernel, hrefs, by decide⟩,
          by decide⟩
    · rintro s ⟨u, hu, rfl⟩
      cases List.mem_singleton.mp hu
      rw [← TypeName.isOutputOf_iff]
      decide
  refine ⟨⟨fault, hfault⟩, hd, fun h => ?_⟩
  rw [← h, hempty] at hsuper
  exact ClosureSet.not_mem_empty hsuper

end Closure

end Erase

end VirtualClasspath
