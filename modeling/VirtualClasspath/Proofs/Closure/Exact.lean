import VirtualClasspath.Proofs.ClassFile.Names
import VirtualClasspath.Proofs.Closure.Phases
import VirtualClasspath.Proofs.Text

/-!
# What the closure of a compilation is

For the classes of a map, the closure has a description in which no order of phases, names or sources
occurs:

* `Nested`: the admissible members of the nest groups of the sources;
* `Referenced`: what the classes of those members refer to, the members left out;
* `Enclosing`: the least set that holds the references and, with a name whose class the map has, the
  class around it.

`compute_exact` says that the closure consists of the first and the admissible part of the third,
less what the sources are compiled to; so it is a function of the set of names of the sources.
-/

namespace VirtualClasspath

namespace Closure

/-- The names of source units. -/
def sourceNames (sources : List SourceUnit) : Set TypeName := {n | ∃ u ∈ sources, u.name = n}

section Description

variable (m : ClassMap) (names : Set TypeName)

/-- The admissible members of the nest groups of those `names` that the map has a class for. -/
def Nested : Set TypeName :=
  {n | n.isAdmissible = true ∧ ∃ s ∈ names, ∃ bytes group, m.classes.find? s = some bytes ∧
    (Nest.groupOf (.ofMap m) ⟨s, bytes⟩ {}).1 = .ok group ∧ n ∈ group}

/-- What the classes of nested members refer to, the members themselves left out. -/
def Referenced : Set TypeName :=
  {n | n ∉ Nested m names ∧ ∃ k ∈ Nested m names, ∃ bytes refs, m.classes.find? k = some bytes ∧
    ClassFile.referencesOf bytes = .ok refs ∧ n ∈ refs}

/-- What the classes of nested members refer to, the members themselves among it. -/
def Mentioned : Set TypeName :=
  {n | ∃ k ∈ Nested m names, ∃ bytes refs, m.classes.find? k = some bytes ∧
    ClassFile.referencesOf bytes = .ok refs ∧ n ∈ refs}

/-- The least set that holds the references and, with a name that the backend does not have anyway,
the class around the class that the map has under it. -/
inductive Enclosing (always : SortedSet TypeName) : TypeName → Prop
  | referenced {n : TypeName} (h : n ∈ Referenced m names) : Enclosing always n
  | outer {n o : TypeName} {bytes : Bytes} {c : ClassFile} (h : Enclosing always n)
      (hn : n ∉ always) (hb : m.classes.find? n = some bytes)
      (hc : ClassFile.parse bytes = .ok c) (ho : c.outerOf = some o) : Enclosing always o

end Description

variable {m : ClassMap} {names : Set TypeName} {always : SortedSet TypeName} {logging : LogSettings}

theorem inNest_iff {sources : List SourceUnit} {n : TypeName} :
    (∃ u ∈ sources, ∃ b ∈ (Provider.ofMap m).served u.name, Draft.InNest (.ofMap m) b n) ∧
        n.isAdmissible = true ↔ n ∈ Nested m (sourceNames sources) := by
  constructor
  · rintro ⟨⟨u, hu, b, hb, group, hg, hn⟩, ha⟩
    obtain ⟨hname, hbytes⟩ := Provider.mem_served_ofMap.mp hb
    refine ⟨ha, u.name, ⟨u, hu, rfl⟩, b.bytes, group, hbytes, ?_, hn⟩
    rw [← hname]
    exact hg
  · rintro ⟨ha, _, ⟨u, hu, rfl⟩, bytes, group, hbytes, hg, hn⟩
    exact ⟨⟨u, hu, ⟨u.name, bytes⟩, Provider.mem_served_ofMap.mpr ⟨rfl, hbytes⟩, group, hg, hn⟩, ha⟩

theorem outward_iff {n o : TypeName} :
    Draft.Outward ⟨.ofMap m, logging, always⟩ n o ↔
      n ∉ always ∧ ∃ bytes c, m.classes.find? n = some bytes ∧ ClassFile.parse bytes = .ok c ∧
        c.outerOf = some o := by
  refine and_congr_right fun _ => ?_
  constructor
  · rintro ⟨b, hb, c, hc, ho⟩
    exact ⟨b.bytes, c, (Provider.mem_served_ofMap.mp hb).2, hc, ho⟩
  · rintro ⟨bytes, c, hb, hc, ho⟩
    exact ⟨⟨n, bytes⟩, Provider.mem_served_ofMap.mpr ⟨rfl, hb⟩, c, hc, ho⟩

theorem around_iff {n : TypeName} :
    Draft.Around ⟨.ofMap m, logging, always⟩ (Referenced m names) n ↔
      Enclosing m names always n := by
  constructor
  · intro h
    induction h with
    | start hr => exact .referenced hr
    | outward _ ho ih =>
      obtain ⟨hn, bytes, c, hb, hc, ho⟩ := outward_iff.mp ho
      exact .outer ih hn hb hc ho
  · intro h
    induction h with
    | referenced hr => exact .start hr
    | outer _ hn hb hc ho ih => exact .outward ih (outward_iff.mpr ⟨hn, _, _, hb, hc, ho⟩)

/-- A name around the references is a reference, or one step outward from such a name. -/
theorem enclosing_iff (logging : LogSettings) {n : TypeName} :
    Enclosing m names always n ↔ n ∈ Referenced m names ∨
      ∃ k, Enclosing m names always k ∧ Draft.Outward ⟨.ofMap m, logging, always⟩ k n := by
  constructor
  · rintro (hr | ⟨h, hn, hb, hc, ho⟩)
    · exact Or.inl hr
    · exact Or.inr ⟨_, h, outward_iff.mpr ⟨hn, _, _, hb, hc, ho⟩⟩
  · rintro (hr | ⟨k, hk, ho⟩)
    · exact .referenced hr
    · obtain ⟨hn, bytes, c, hb, hc, ho⟩ := outward_iff.mp ho
      exact .outer hk hn hb hc ho

theorem mem_referenced_iff {n : TypeName} :
    n ∈ Referenced m names ↔ n ∉ Nested m names ∧ n ∈ Mentioned m names := Iff.rfl

theorem isAdmissible_of_mem_mentioned {n : TypeName} (h : n ∈ Mentioned m names) :
    n.isAdmissible = true := by
  obtain ⟨_, _, _, _, _, hr, hn⟩ := h
  exact ClassFile.isAdmissible_of_mem_references hr hn

/-- When the nested members are asked for, their classes mention these names. -/
theorem mentions_get_iff {closure : ClosureSet} (h : ∀ n, n ∈ closure ↔ n ∈ Nested m names)
    {n : TypeName} :
    (closure.isEmpty = false ∧ ∃ b ∈ m.get closure.toList, Draft.Mentions b n) ↔
      n ∈ Mentioned m names := by
  constructor
  · rintro ⟨-, b, hb, refs, hr, hn⟩
    obtain ⟨hk, hbytes⟩ := ClassMap.mem_get.mp hb
    exact ⟨b.name, (h _).mp hk, b.bytes, refs, hbytes, hr, hn⟩
  · rintro ⟨k, hk, bytes, refs, hbytes, hr, hn⟩
    have hmem : k ∈ closure.toList := (h k).mpr hk
    exact ⟨List.isEmpty_eq_false_iff_exists_mem.mpr ⟨k, hmem⟩, ⟨k, bytes⟩,
      ClassMap.mem_get.mpr ⟨hmem, hbytes⟩, refs, hr, hn⟩

/-- The draft after the first phase. -/
theorem mem_afterNests {sources : List SourceUnit} {j : Journal} {d : Draft}
    (hd : (Draft.nestGroupPhase ⟨.ofMap m, logging, always⟩ sources {} j).1 = d) :
    (∀ n, n ∈ d.closure ↔ n ∈ Nested m (sourceNames sources)) ∧
      d.referenced = ∅ ∧ ∀ n, n ∈ d.sources ↔ n ∈ sourceNames sources := by
  subst hd
  refine ⟨fun n => ?_, Draft.referenced_nestGroupPhase _ _ _ _, fun n => ?_⟩
  · rw [Draft.mem_nestGroupPhase (Provider.steady_ofMap m), inNest_iff]
    exact or_iff_right ClosureSet.not_mem_empty
  · rw [Draft.mem_sources_nestGroupPhase]
    exact or_iff_right List.not_mem_nil

/-- The draft after the first two phases. -/
theorem mem_afterReferences {sources : List SourceUnit} {j j' : Journal} {d : Draft}
    (hd : (Draft.directReferencePhase ⟨.ofMap m, logging, always⟩
      (Draft.nestGroupPhase ⟨.ofMap m, logging, always⟩ sources {} j).1 j').1 = d) :
    (∀ n, n ∈ d.closure ↔
      n ∈ Nested m (sourceNames sources) ∨ n ∈ Referenced m (sourceNames sources)) ∧
    (∀ n, n ∈ d.referenced ↔ n ∈ Referenced m (sourceNames sources)) ∧
    (∀ n, n ∈ d.sources ↔ n ∈ sourceNames sources) := by
  generalize he : (Draft.nestGroupPhase ⟨.ofMap m, logging, always⟩ sources {} j).1 = e at hd
  obtain ⟨hclosure, hreferenced, hsources⟩ := mem_afterNests he
  have hgains := Draft.gains_directReferencePhase ⟨.ofMap m, logging, always⟩ e j'
  rw [hd, Provider.ask_ofMap_fst] at hgains
  have hmentions := fun n => mentions_get_iff hclosure (n := n)
  refine ⟨fun n => ?_, fun n => ?_, fun n => by rw [hgains.sources, hsources]⟩
  · rw [hgains.closure, hclosure, Set.mem_ofPred_eq, hmentions, mem_referenced_iff,
      and_iff_left_of_imp isAdmissible_of_mem_mentioned, or_and_left]
    exact (and_iff_right (Classical.em _)).symm
  · rw [hgains.referenced, hreferenced, Set.mem_ofPred_eq, hmentions, hclosure, mem_referenced_iff,
      or_iff_right SortedSet.not_mem_empty]
    exact ⟨fun h => ⟨h.2.2, h.1⟩, fun h => ⟨h.2, isAdmissible_of_mem_mentioned h.2, h.1⟩⟩

/-- What `finish` takes out: the names that one of the sources writes. -/
theorem isOutput_iff {d : Draft} {n : TypeName} (hs : ∀ k, k ∈ d.sources ↔ k ∈ names) :
    d.isOutput n = true ↔ ∃ k ∈ names, k.Writes n := by
  unfold Draft.isOutput
  rw [List.any_eq_true]
  exact exists_congr fun k => and_congr (hs k) TypeName.isOutputOf_iff

theorem mem_compute {sources : List SourceUnit} {j : Journal} {n : TypeName} :
    n ∈ (compute ⟨.ofMap m, logging, always⟩ sources j).1 ↔
      (n ∈ Nested m (sourceNames sources) ∨
        Enclosing m (sourceNames sources) always n ∧ n.isAdmissible = true) ∧
      ∀ s ∈ sourceNames sources, ¬ s.Writes n := by
  unfold compute
  rw [bind_run, bind_run, bind_run]
  generalize (Draft.nestGroupPhase _ sources {} j).2 = j₁
  generalize hd : (Draft.directReferencePhase _ _ j₁) = r
  obtain ⟨hc, hr, hs⟩ := mem_afterReferences (congrArg Prod.fst hd)
  obtain ⟨d, j₂⟩ := r
  obtain ⟨hc', hs'⟩ := Draft.outerChainPhase_spec (s := ⟨.ofMap m, logging, always⟩) (d := d)
    (j := j₂) (Provider.steady_ofMap m)
  have hset : {k | k ∈ d.referenced} = Referenced m (sourceNames sources) := Set.ext hr
  rw [hset] at hc'
  generalize Draft.outerChainPhase _ d j₂ = r at hc' hs'
  obtain ⟨e, j₃⟩ := r
  change n ∈ e.result ↔ _
  have hout : e.isOutput n = true ↔ ∃ k ∈ sourceNames sources, k.Writes n :=
    isOutput_iff fun k => by rw [hs', hs]
  have hadm : n ∈ Referenced m (sourceNames sources) → n.isAdmissible = true :=
    fun h => isAdmissible_of_mem_mentioned h.2
  unfold Draft.result
  rw [ClosureSet.mem_filter, hc', hc, Bool.not_eq_true', ← Bool.not_eq_true, hout]
  simp only [around_iff, not_exists, not_and]
  refine and_congr_left fun _ => ?_
  rw [enclosing_iff logging, or_assoc, or_and_right, and_iff_left_of_imp hadm]

/-- **The closure, exactly.** For the classes of a map, it consists of the nested members and the
admissible enclosing names, less what the sources are compiled to; so sources with the same names
have the same closure, whatever their order, their number and their texts. -/
theorem compute_exact (m : ClassMap) (always : SortedSet TypeName) (sources : List SourceUnit) :
    (∀ (logging : LogSettings) (j : Journal) (n : TypeName),
      n ∈ (compute ⟨.ofMap m, logging, always⟩ sources j).1 ↔
        (n ∈ Nested m (sourceNames sources) ∨
          Enclosing m (sourceNames sources) always n ∧ n.isAdmissible = true) ∧
        ∀ s ∈ sourceNames sources, ¬ s.Writes n) ∧
    ∀ (others : List SourceUnit) (logging logging' : LogSettings) (j j' : Journal),
      sourceNames others = sourceNames sources →
        (compute ⟨.ofMap m, logging, always⟩ others j).1 =
          (compute ⟨.ofMap m, logging', always⟩ sources j').1 := by
  refine ⟨fun logging j n => mem_compute, fun others logging logging' j j' h => ?_⟩
  refine ClosureSet.ext fun n => ?_
  rw [mem_compute, mem_compute, h]

/-- A class `N` with a member `N$I`. -/
def holder : Assembly.ClassSpec :=
  { name := "N", superClass := none, innerClasses := [⟨"N$I", some "N", none, 0⟩] }

/-- The member, a subclass of a class `S`. -/
def held : Assembly.ClassSpec :=
  ({ name := "N$I", superClass := some "S" } : Assembly.ClassSpec).memberOf "N"

/-- The two classes; there is none under the name `S`. -/
def household : ClassMap := .ofBlobs [⟨⟨"N"⟩, holder.bytes⟩, ⟨⟨"N$I"⟩, held.bytes⟩]

theorem household_parsed : ∀ e ∈ household.classes.toList, ∃ c, ClassFile.parse e.2 = .ok c := by
  have hall : ∀ e ∈ household.classes.toList, (ClassFile.parse e.2).toOption.isSome = true := by
    decide +kernel
  intro e he
  obtain ⟨c, hc⟩ := Option.isSome_iff_exists.mp (hall e he)
  exact ⟨c, toOption_eq_some_iff.mp hc⟩

/-- The nest group of `N` has the member. -/
theorem mem_nested_household (hn : ⟨"N"⟩ ∈ names) : ⟨"N$I"⟩ ∈ Nested household names := by
  have hread : (ClassFile.parse holder.bytes).map (fun c => (c.outerOf, c.directNested)) =
      .ok (none, .ofList [⟨"N$I"⟩]) := by decide +kernel
  obtain ⟨c, hc, h⟩ := exists_of_map_eq_ok hread
  obtain ⟨ho, hd⟩ := Prod.mk.inj h
  obtain ⟨group, hgroup, -, hnested⟩ := Nest.mem_groupOf_outermost
    (Nest.findClass_ofMap_ne_error household_parsed) (b := ⟨⟨"N"⟩, holder.bytes⟩) hc ho {}
  exact ⟨by decide, _, hn, _, group, by decide +kernel, hgroup, hnested _ (by rw [hd]; decide)⟩

/-- The member refers to its super class. -/
theorem mem_mentioned_household (hn : ⟨"N"⟩ ∈ names) : ⟨"S"⟩ ∈ Mentioned household names := by
  have hread : ClassFile.referencesOf held.bytes = .ok (.ofList [⟨"N"⟩, ⟨"N$I"⟩, ⟨"S"⟩]) := by
    decide +kernel
  exact ⟨_, mem_nested_household hn, _, _, by decide +kernel, hread, by decide⟩

/-- Sources of the names `N` and `B`, that of `N` twice and with two texts. -/
def threeSources : List SourceUnit := [⟨⟨"N"⟩, "x"⟩, ⟨⟨"B"⟩, "x"⟩, ⟨⟨"N"⟩, ""⟩]

/-- Sources of the same names. -/
def twoSources : List SourceUnit := [⟨⟨"B"⟩, ""⟩, ⟨⟨"N"⟩, "y"⟩]

/-- Other sources of the same names have the same closure. It has the class `S`, which only the
member refers to, and not the member, which `N` is compiled to. -/
theorem compute_reordered :
    sourceNames twoSources = sourceNames threeSources ∧
      (compute ⟨.ofMap household, {}, defaultAvailable⟩ twoSources {}).1 =
        (compute ⟨.ofMap household, {}, defaultAvailable⟩ threeSources {}).1 ∧
      ⟨"S"⟩ ∈ (compute ⟨.ofMap household, {}, defaultAvailable⟩ threeSources {}).1 ∧
      ⟨"N$I"⟩ ∈ Nested household (sourceNames threeSources) ∧
      ⟨"N$I"⟩ ∉ (compute ⟨.ofMap household, {}, defaultAvailable⟩ threeSources {}).1 := by
  have hnames : sourceNames twoSources = sourceNames threeSources := by
    ext n
    simp only [sourceNames, twoSources, threeSources, Set.mem_ofPred_eq, List.mem_cons,
      List.not_mem_nil, or_false, exists_eq_or_imp, exists_eq_left]
    grind
  have hn : ⟨"N"⟩ ∈ sourceNames threeSources := ⟨_, List.mem_cons_self, rfl⟩
  have hwritten : TypeName.Writes ⟨"N"⟩ ⟨"N$I"⟩ := TypeName.isOutputOf_iff.mp (by decide)
  obtain ⟨hmem, hsame⟩ := compute_exact household defaultAvailable threeSources
  refine ⟨hnames, hsame _ _ _ _ _ hnames, (hmem _ _ _).mpr ⟨?_, ?_⟩, mem_nested_household hn,
    fun h => ((hmem _ _ _).mp h).2 _ hn hwritten⟩
  · by_cases hs : ⟨"S"⟩ ∈ Nested household (sourceNames threeSources)
    · exact Or.inl hs
    · exact Or.inr ⟨.referenced ⟨hs, mem_mentioned_household hn⟩, by decide⟩
  · rintro s ⟨u, hu, rfl⟩
    rw [← TypeName.isOutputOf_iff]
    revert u
    decide

end Closure

end VirtualClasspath
