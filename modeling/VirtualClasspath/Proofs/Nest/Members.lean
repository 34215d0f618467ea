import Mathlib.Control.Monad.Basic
import VirtualClasspath.Assembly.Write
import VirtualClasspath.Proofs.Nest
import VirtualClasspath.Proofs.Sorted

/-!
# A nest group is the same from every member

Two tables have to agree for this. A walk outward follows what a class says about the class around
it, a walk inward what a class says about the classes in it, and a provider is free to have classes
that contradict each other. `WellNested` says that they do not: whatever a class has in it says so
too, and no class lies in itself.

From a class, a walk outward then ends in the outermost class around it (`OutermostOf`), and the nest
group is what lies in that (`groupOf_eq_ok_iff`). A member that the provider has is reached from the
outermost class by steps inward between classes that the provider has; each of them is undone by a
step outward, so the member has the same outermost class (`outermostOf_of_liesIn`).
-/

namespace VirtualClasspath

/-- The provider has the class `c` under the name `n`. -/
def Provider.Has (p : Provider) (n : TypeName) (c : ClassFile) : Prop :=
  ∃ b ∈ p.served n, ClassFile.parse b.bytes = .ok c

namespace Nest

/-- `o` is the class around the class that the provider has under `n`. -/
def Inside (p : Provider) (n o : TypeName) : Prop := ∃ c, p.Has n c ∧ c.outerOf = some o

/-- The classes of the provider agree on what lies in what. -/
structure WellNested (p : Provider) : Prop where
  /-- The same request has the same answer. -/
  steady : p.Steady
  /-- There is at most one class to a name. -/
  single : ∀ n, (p.served n).length ≤ 1
  /-- A class is served under its own name. -/
  named : ∀ n, ∀ b ∈ p.served n, ∃ c, ClassFile.parse b.bytes = .ok c ∧ c.name = n
  /-- The way outward does not come back. -/
  acyclic : ∀ n, ¬ Relation.TransGen (Inside p) n n
  /-- A class says that it lies in the class that it is directly nested in. -/
  back : ∀ o c n d, p.Has o c → p.Has n d → n ∈ c.directNested → d.outerOf = some c.name

namespace WellNested

variable {p : Provider} {n o : TypeName} {c d : ClassFile}

theorem served_eq (h : WellNested p) {b : Blob} (hb : b ∈ p.served n) : p.served n = [b] := by
  have hlength := h.single n
  match hs : p.served n, hb, hlength with
  | [b'], hb, _ => rw [List.mem_singleton.mp hb]

theorem classOf_eq_some_iff (h : WellNested p) : classOf p n = .ok (some c) ↔ p.Has n c := by
  unfold classOf
  constructor
  · intro hc
    cases hs : p.served n with
    | nil =>
      rw [hs] at hc
      cases hc
    | cons b bs =>
      have hb : b ∈ p.served n := by rw [hs]; exact List.mem_cons_self
      obtain ⟨c', hc', -⟩ := h.named n b hb
      rw [hs, firstClass_of_parse hc'] at hc
      cases hc
      exact ⟨b, hb, hc'⟩
  · rintro ⟨b, hb, hc⟩
    rw [h.served_eq hb, firstClass_of_parse hc]

theorem classOf_ne_error (h : WellNested p) (n : TypeName) (e : Error) :
    classOf p n ≠ .error e := by
  refine firstClass_ne_error (fun b hb => ?_) e
  obtain ⟨c, hc, -⟩ := h.named n b hb
  exact ⟨c, hc⟩

theorem findClass_ne_error (h : WellNested p) (n : TypeName) (j : Journal) (e : Error) :
    (findClass p n j).1 ≠ .error e := by
  rw [findClass_eq_classOf h.steady]
  exact h.classOf_ne_error n e

theorem has_unique (h : WellNested p) (hc : p.Has n c) (hd : p.Has n d) : c = d := by
  have hc := h.classOf_eq_some_iff.mpr hc
  rw [h.classOf_eq_some_iff.mpr hd] at hc
  cases hc
  rfl

theorem name_of_has (h : WellNested p) (hc : p.Has n c) : c.name = n := by
  obtain ⟨b, hb, hparse⟩ := hc
  obtain ⟨c', hc', hname⟩ := h.named n b hb
  cases hparse.symm.trans hc'
  exact hname

/-- **A step inward is undone by a step outward.** -/
theorem inside_of_directlyNested (h : WellNested p) (hn : DirectlyNested (classOf p) o n)
    (hd : p.Has n d) : Inside p n o := by
  obtain ⟨c, hc, hmem⟩ := hn
  have hc := h.classOf_eq_some_iff.mp hc
  refine ⟨d, hd, ?_⟩
  rw [h.back o c n d hc hd hmem, h.name_of_has hc]

end WellNested

/-! ## The outermost class -/

/-- `o` is a class without a class around it, and encloses `n` in some number of steps. -/
def OutermostOf (p : Provider) (n o : TypeName) : Prop :=
  Relation.ReflTransGen (Inside p) n o ∧ ∃ c, p.Has o c ∧ c.outerOf = none

section Outward

variable {p : Provider} {n m o : TypeName} {c : ClassFile} {a : Ascent} {outer : Option TypeName}

namespace OutermostOf

theorem has (h : OutermostOf p n o) : ∃ c, p.Has n c := by
  obtain ⟨hpath, c, hc, -⟩ := h
  rcases Relation.ReflTransGen.cases_head hpath with rfl | ⟨m, ⟨d, hd, -⟩, -⟩
  · exact ⟨c, hc⟩
  · exact ⟨d, hd⟩

theorem eq_of_none (hp : WellNested p) (h : OutermostOf p n o) (hc : p.Has n c)
    (hnone : c.outerOf = none) : n = o := by
  rcases Relation.ReflTransGen.cases_head h.1 with he | ⟨m, ⟨d, hd, hm⟩, -⟩
  · exact he
  · rw [hp.has_unique hd hc, hnone] at hm
    cases hm

theorem next (hp : WellNested p) (h : OutermostOf p n o) (hc : p.Has n c)
    (hsome : c.outerOf = some m) : OutermostOf p m o := by
  obtain ⟨hpath, e, he, hnone⟩ := h
  refine ⟨?_, e, he, hnone⟩
  rcases Relation.ReflTransGen.cases_head hpath with rfl | ⟨m', ⟨d, hd, hm⟩, hrest⟩
  · rw [hp.has_unique he hc, hsome] at hnone
    cases hnone
  · rw [hp.has_unique hd hc, hsome] at hm
    cases hm
    exact hrest

end OutermostOf

/-- How far a walk outward has come: the class at the top says what comes next, and the classes that
were read lie in it. -/
structure Climbed (p : Provider) (a : Ascent) (outer : Option TypeName) : Prop where
  top : ∃ c, p.Has a.top c ∧ c.outerOf = outer
  known : ∀ n c, a.classes.find? n = some c → p.Has n c
  below : ∀ n, a.classes.contains n = true → Relation.ReflTransGen (Inside p) n a.top

namespace Climbed

/-- A walk outward comes to one more class. -/
theorem insert {classes : SortedMap TypeName ClassFile} (hc : p.Has n c)
    (hknown : ∀ m d, classes.find? m = some d → p.Has m d)
    (hbelow : ∀ m, classes.contains m = true → Relation.ReflTransGen (Inside p) m n) :
    Climbed p ⟨n, classes.insert n c⟩ c.outerOf where
  top := ⟨c, hc, rfl⟩
  known := SortedMap.forall_insert hc hknown
  below m hm := by
    rcases SortedMap.contains_insert.mp hm with rfl | hm
    · exact .refl
    · exact hbelow m hm

theorem start (hc : p.Has n c) :
    Climbed p ⟨n, (∅ : SortedMap TypeName ClassFile).insert n c⟩ c.outerOf :=
  insert hc (fun _ _ h => nomatch h) (fun _ h => nomatch h)

theorem inside_next (h : Climbed p a (some n)) : Inside p a.top n := h.top

theorem next (h : Climbed p a (some n)) (hc : p.Has n c) :
    Climbed p ⟨n, a.classes.insert n c⟩ c.outerOf :=
  insert hc h.known fun m hm => (h.below m hm).tail h.inside_next

/-- The class that comes next was not read before: it would lie in itself. -/
theorem not_contains (hp : WellNested p) (h : Climbed p a (some n)) :
    ¬ a.classes.contains n = true :=
  fun hn => hp.acyclic n (.tail' (h.below n hn) h.inside_next)

theorem classFor_eq (hp : WellNested p) (h : Climbed p a outer) (n : TypeName) (j : Journal) :
    (classFor p a.classes n j).1 = classOf p n :=
  classFor_eq_classOf hp.steady (fun m d hd => hp.classOf_eq_some_iff.mpr (h.known m d hd)) n j

end Climbed

theorem has_of_findClass (hp : WellNested p) {j j₁ : Journal}
    (hf : findClass p n j = (.ok (some c), j₁)) : p.Has n c := by
  rw [← hp.classOf_eq_some_iff, ← findClass_eq_classOf hp.steady n j, hf]

/-- Where a walk outward ends, there is no class around. -/
theorem climbed_of_climb (hp : WellNested p) (h : Climbed p a outer) {b : Ascent} {j : Journal}
    (hb : (climb p a outer j).1 = .ok b) :
    Climbed p b none ∧ Relation.ReflTransGen (Inside p) a.top b.top := by
  fun_induction climb p a outer j with
  | case1 =>
    cases hb
    exact ⟨h, .refl⟩
  | case2 a j n hs => exact absurd hs (h.not_contains hp)
  | case3 => cases hb
  | case4 => cases hb
  | case5 a j n hs c j₁ hf ih =>
    obtain ⟨hend, hpath⟩ := ih (h.next (has_of_findClass hp hf)) hb
    exact ⟨hend, .head h.inside_next hpath⟩

/-- A walk outward finds the outermost class if there is one. -/
theorem climb_of_outermostOf (hp : WellNested p) (h : Climbed p a outer)
    (ho : OutermostOf p a.top o) (j : Journal) : ∃ b, (climb p a outer j).1 = .ok b ∧ b.top = o := by
  obtain ⟨d, hd, houter⟩ := h.top
  fun_induction climb p a outer j generalizing d with
  | case1 a j => exact ⟨a, rfl, ho.eq_of_none hp hd houter⟩
  | case2 a j n hs => exact absurd hs (h.not_contains hp)
  | case3 a j n hs e j₁ hf => exact absurd (congrArg Prod.fst hf) (hp.findClass_ne_error n j e)
  | case4 a j n hs j₁ hf =>
    have hclass := findClass_eq_classOf hp.steady n j
    obtain ⟨c, hc⟩ := (ho.next hp hd houter).has
    rw [hf, hp.classOf_eq_some_iff.mpr hc] at hclass
    cases hclass
  | case5 a j n hs c j₁ hf ih =>
    have hc := has_of_findClass hp hf
    exact ih (h.next hc) (ho.next hp hd houter) c hc rfl

end Outward

/-! ## Nest groups -/

section Groups

variable {p : Provider} {start b : Blob} {group : SortedSet TypeName} {n o : TypeName} {j j' : Journal}

/-- What a walk inward from one name comes to. -/
theorem mem_descend_one (hp : WellNested p) {a : Ascent} (ha : Climbed p a none)
    (hr : (descend p a.classes (join ∅ [a.top]) [a.top] j).1 = .ok group) :
    n ∈ group ↔ LiesIn (classOf p) a.top n := by
  rw [mem_descend (ha.classFor_eq hp) (.one a.top) hr]
  simp only [mem_join_one, exists_eq_left]

/-- **The nest group of a class** is what lies in the outermost class around it; there is one exactly
if the provider has all classes on the way there. -/
theorem groupOf_eq_ok_iff (hp : WellNested p) (hs : start ∈ p.served start.name) :
    (groupOf p start j).1 = .ok group ↔
      ∃ o, OutermostOf p start.name o ∧ ∀ n, n ∈ group ↔ LiesIn (classOf p) o n := by
  obtain ⟨c, hc, -⟩ := hp.named _ _ hs
  have hparse : parseBlob start = .ok c := parseBlob_of_parse hc
  have hstart := Climbed.start (p := p) ⟨start, hs, hc⟩
  unfold groupOf
  rw [hparse]
  simp only
  constructor
  · intro hg
    generalize hclimb : climb p _ c.outerOf j = r at hg
    obtain ⟨r, j₁⟩ := r
    cases r with
    | error e => cases hg
    | ok a =>
      obtain ⟨hend, hpath⟩ := climbed_of_climb hp hstart (congrArg Prod.fst hclimb)
      exact ⟨a.top, ⟨hpath, hend.top⟩, fun n => mem_descend_one hp hend hg⟩
  · rintro ⟨o, ho, hgroup⟩
    obtain ⟨a, hclimb, rfl⟩ := climb_of_outermostOf hp hstart ho j
    obtain ⟨hend, -⟩ := climbed_of_climb hp hstart hclimb
    generalize climb p _ c.outerOf j = r at hclimb
    obtain ⟨r, j₁⟩ := r
    cases hclimb
    obtain ⟨found, hfound⟩ := descend_ok hp.findClass_ne_error a.classes (join ∅ [a.top]) [a.top] j₁
    have hsame : found = group := SortedSet.ext fun n => by
      rw [mem_descend_one hp hend hfound, hgroup]
    rw [← hsame]
    exact hfound

/-- What lies in the outermost class around a class has the same outermost class. -/
theorem outermostOf_of_liesIn (hp : WellNested p) (hn : LiesIn (classOf p) o n) {c d : ClassFile}
    (hc : p.Has o c) (ho : c.outerOf = none) (hd : p.Has n d) : OutermostOf p n o := by
  refine ⟨?_, c, hc, ho⟩
  induction hn generalizing d with
  | refl => exact .refl
  | tail _ hstep ih =>
    obtain ⟨e, he, hmem⟩ := hstep
    exact .head (hp.inside_of_directlyNested ⟨e, he, hmem⟩ hd) (ih (hp.classOf_eq_some_iff.mp he))

/-- **The nest group is the same from every member** that the provider has. -/
theorem groupOf_member (hp : WellNested p) (hs : start ∈ p.served start.name)
    (hg : (groupOf p start j).1 = .ok group) (hb : b ∈ p.served b.name) (hm : b.name ∈ group) :
    (groupOf p b j').1 = .ok group := by
  obtain ⟨o, ⟨-, c, hc, ho⟩, hgroup⟩ := (groupOf_eq_ok_iff hp hs).mp hg
  obtain ⟨d, hd, -⟩ := hp.named _ _ hb
  have hinside := outermostOf_of_liesIn hp ((hgroup _).mp hm) hc ho ⟨b, hb, hd⟩
  exact (groupOf_eq_ok_iff hp hb).mpr ⟨o, hinside, hgroup⟩

/-- A class `A` with a local class `A$1` and a member `A$B`. -/
def enclosing : Assembly.ClassSpec :=
  { name := "A", superClass := none
    innerClasses := [⟨"A$1", none, none, 0⟩, ⟨"A$B", some "A", some "B", 0⟩] }

/-- The local class `A$1`, declared in `A`. -/
def localClass : Assembly.ClassSpec :=
  { name := "A$1", superClass := none, enclosingMethod := some ("A", none)
    innerClasses := [⟨"A$1", none, none, 0⟩] }

/-- The two classes; there is none under the name `A$B`. -/
def family : ClassMap := .ofBlobs [⟨⟨"A"⟩, enclosing.bytes⟩, ⟨⟨"A$1"⟩, localClass.bytes⟩]

theorem mem_served_family {n : TypeName} {b : Blob} :
    b ∈ (Provider.ofMap family).served n ↔
      n = ⟨"A"⟩ ∧ b = ⟨⟨"A"⟩, enclosing.bytes⟩ ∨ n = ⟨"A$1"⟩ ∧ b = ⟨⟨"A$1"⟩, localClass.bytes⟩ := by
  obtain ⟨name, bytes⟩ := b
  rw [Provider.mem_served_ofMap, family, ClassMap.find?_ofBlobs_two, Blob.mk.injEq, Blob.mk.injEq]
  by_cases hlocal : n = ⟨"A$1"⟩
  · subst hlocal
    simp [eq_comm]
  · rw [if_neg hlocal]
    by_cases ha : n = ⟨"A"⟩
    · subst ha
      simp [eq_comm]
    · simp [ha, hlocal]

theorem enclosing_parsed :
    ∃ c, ClassFile.parse enclosing.bytes = .ok c ∧ c.name = ⟨"A"⟩ ∧ c.outerOf = none ∧
      c.directNested = .ofList [⟨"A$1"⟩, ⟨"A$B"⟩] := by
  have hread : (ClassFile.parse enclosing.bytes).map
      (fun c => (c.name, c.outerOf, c.directNested)) =
        .ok (⟨"A"⟩, none, .ofList [⟨"A$1"⟩, ⟨"A$B"⟩]) := by decide +kernel
  obtain ⟨c, hc, h⟩ := exists_of_map_eq_ok hread
  simp only [Prod.mk.injEq] at h
  exact ⟨c, hc, h⟩

theorem localClass_parsed :
    ∃ c, ClassFile.parse localClass.bytes = .ok c ∧ c.name = ⟨"A$1"⟩ ∧ c.outerOf = some ⟨"A"⟩ ∧
      c.directNested = ∅ := by
  have hread : (ClassFile.parse localClass.bytes).map
      (fun c => (c.name, c.outerOf, c.directNested)) =
        .ok (⟨"A$1"⟩, some ⟨"A"⟩, ∅) := by decide +kernel
  obtain ⟨c, hc, h⟩ := exists_of_map_eq_ok hread
  simp only [Prod.mk.injEq] at h
  exact ⟨c, hc, h⟩

/-- The two classes agree: the local class lies in the other one, which lies in none. -/
theorem wellNested_family : WellNested (.ofMap family) := by
  obtain ⟨a, ha, ha_name, ha_outer, ha_nested⟩ := enclosing_parsed
  obtain ⟨l, hl, hl_name, hl_outer, hl_nested⟩ := localClass_parsed
  have hhas : ∀ n c, (Provider.ofMap family).Has n c ↔
      n = ⟨"A"⟩ ∧ c = a ∨ n = ⟨"A$1"⟩ ∧ c = l := by
    intro n c
    unfold Provider.Has
    simp only [mem_served_family]
    constructor
    · rintro ⟨b, ⟨hn, rfl⟩ | ⟨hn, rfl⟩, hc⟩
      · exact Or.inl ⟨hn, Except.ok.inj (hc.symm.trans ha)⟩
      · exact Or.inr ⟨hn, Except.ok.inj (hc.symm.trans hl)⟩
    · rintro (⟨rfl, rfl⟩ | ⟨rfl, rfl⟩)
      · exact ⟨_, Or.inl ⟨rfl, rfl⟩, ha⟩
      · exact ⟨_, Or.inr ⟨rfl, rfl⟩, hl⟩
  have hinside : ∀ n o, Inside (.ofMap family) n o → n = ⟨"A$1"⟩ ∧ o = ⟨"A"⟩ := by
    rintro n o ⟨c, hc, ho⟩
    rcases (hhas n c).mp hc with ⟨rfl, rfl⟩ | ⟨rfl, rfl⟩
    · rw [ha_outer] at ho
      cases ho
    · rw [hl_outer] at ho
      cases ho
      exact ⟨rfl, rfl⟩
  refine ⟨Provider.steady_ofMap _, fun n => ?_, fun n b hb => ?_, fun n hn => ?_, ?_⟩
  · rw [Provider.served_ofMap]
    cases family.classes.find? n <;> simp
  · rcases mem_served_family.mp hb with ⟨rfl, rfl⟩ | ⟨rfl, rfl⟩
    · exact ⟨a, ha, ha_name⟩
    · exact ⟨l, hl, hl_name⟩
  · obtain ⟨m, hfirst, -⟩ := Relation.TransGen.head'_iff.mp hn
    obtain ⟨k, -, hlast⟩ := Relation.TransGen.tail'_iff.mp hn
    have hstart := (hinside _ _ hfirst).1
    rw [(hinside _ _ hlast).2] at hstart
    exact absurd hstart (by decide)
  · intro o c n d hc hd hn
    rcases (hhas o c).mp hc with ⟨rfl, rfl⟩ | ⟨rfl, rfl⟩
    · rcases (hhas n d).mp hd with ⟨rfl, rfl⟩ | ⟨rfl, rfl⟩
      · rw [ha_nested] at hn
        exact absurd hn (by decide)
      · rw [hl_outer, ha_name]
    · rw [hl_nested] at hn
      exact absurd hn SortedSet.not_mem_empty

/-- The nest group from the outermost class, and from a local class in it; a member that is not
supplied belongs to both. -/
theorem groupOf_member_family :
    WellNested (.ofMap family) ∧
    (⟨⟨"A"⟩, enclosing.bytes⟩ : Blob) ∈ (Provider.ofMap family).served ⟨"A"⟩ ∧
    (⟨⟨"A$1"⟩, localClass.bytes⟩ : Blob) ∈ (Provider.ofMap family).served ⟨"A$1"⟩ ∧
    ∃ group, (groupOf (.ofMap family) ⟨⟨"A"⟩, enclosing.bytes⟩ {}).1 = .ok group ∧
      (⟨"A$1"⟩ : TypeName) ∈ group ∧ (⟨"A$B"⟩ : TypeName) ∈ group ∧
      (groupOf (.ofMap family) ⟨⟨"A$1"⟩, localClass.bytes⟩ {}).1 = .ok group := by
  have hp := wellNested_family
  have hs : (⟨⟨"A"⟩, enclosing.bytes⟩ : Blob) ∈ (Provider.ofMap family).served ⟨"A"⟩ :=
    mem_served_family.mpr (Or.inl ⟨rfl, rfl⟩)
  have hb : (⟨⟨"A$1"⟩, localClass.bytes⟩ : Blob) ∈ (Provider.ofMap family).served ⟨"A$1"⟩ :=
    mem_served_family.mpr (Or.inr ⟨rfl, rfl⟩)
  obtain ⟨a, ha, -, ha_outer, ha_nested⟩ := enclosing_parsed
  obtain ⟨group, hg, -, hnested⟩ :=
    mem_groupOf_outermost hp.findClass_ne_error (b := ⟨⟨"A"⟩, enclosing.bytes⟩) ha ha_outer {}
  have hm : (⟨"A$1"⟩ : TypeName) ∈ group := hnested _ (by rw [ha_nested]; decide)
  exact ⟨hp, hs, hb, group, hg, hm, hnested _ (by rw [ha_nested]; decide),
    groupOf_member hp hs hg hb hm⟩

end Groups

end Nest

end VirtualClasspath
