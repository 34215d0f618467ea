import VirtualClasspath.Assembly.Write
import VirtualClasspath.Proofs.ClassFile.Mentions
import VirtualClasspath.Proofs.Closure.Exact

/-!
# The closure is closed under enclosing classes

Only the names of the second phase are walked outward from. A member of a nest group has the class
around it in the closure for another reason: a class mentions whatever encloses it
(`mem_references_of_outerOf`), so the second phase adds it. `compute_encloses` puts both together.
-/

namespace VirtualClasspath

namespace ClassFile

variable {c : ClassFile} {o : TypeName}

/-- The name of the enclosing class stands in the table of nested classes or is that of the class
that a local class is declared in; a class mentions either. -/
theorem says_outerOf (h : c.outerOf = some o) :
    ∃ text, c.Says (.operand text) ∧ o = .ofInternal text := by
  unfold outerOf at h
  obtain ⟨text, htext, rfl⟩ := Option.map_eq_some_iff.mp h
  refine ⟨text, ?_, rfl⟩
  rcases Option.or_eq_some_iff.mp htext with hentry | ⟨-, henclosing⟩
  · obtain ⟨e, he, houter⟩ := Option.bind_eq_some_iff.mp hentry
    obtain ⟨a, ha, hmem⟩ := List.mem_flatMap.mp (List.mem_of_find?_eq_some he)
    cases a with
    | innerClasses entries => exact .inClass (.here ha) (.outerClass hmem houter)
    | _ => exact absurd hmem List.not_mem_nil
  · obtain ⟨a, ha, howner⟩ := List.exists_of_findSome?_eq_some henclosing
    cases a with
    | enclosingMethod owner method =>
      cases howner
      exact .inClass (.here ha) .enclosingClass
    | _ => cases howner

theorem isArray_ofInternal {text : String} (h : Text.beginsWith "[" text = true) :
    (TypeName.ofInternal text).isArray = true := by
  unfold Text.beginsWith at h
  obtain ⟨rest, hrest⟩ := Option.isSome_iff_exists.mp h
  have htext := Text.after?_eq_some_iff.mp hrest
  unfold TypeName.isArray Text.beginsWith
  refine Option.isSome_iff_exists.mpr ⟨rest.map fun c => if c = '/' then '.' else c, ?_⟩
  rw [Text.after?_eq_some_iff]
  simp [TypeName.ofInternal, Text.exchange, String.toList_map, htext]

/-- **A class mentions the class around it**, unless that is no class. -/
theorem mem_references_of_outerOf {refs : SortedSet TypeName} (h : c.references = .ok refs)
    (ho : c.outerOf = some o) (ha : o.isAdmissible = true) (hp : o.text ∉ primitiveNames) :
    o ∈ refs := by
  obtain ⟨text, hsays, rfl⟩ := says_outerOf ho
  rcases references_cases c with ⟨names, hnames, hall, hmem⟩ | ⟨m, -, -, herror⟩
  · rw [h] at hnames
    cases hnames
    obtain ⟨l, hl⟩ := hall _ hsays
    refine (hmem _).mpr ⟨⟨_, l, hsays, hl, ?_⟩, hp⟩
    simp only [Mention.names, Signature.operandNames] at hl
    split at hl
    · rename_i harray
      simp [TypeName.isAdmissible, isArray_ofInternal harray] at ha
    · split at hl
      · cases hl
        exact List.mem_singleton.mpr rfl
      · cases hl
  · rw [h] at herror
    cases herror

end ClassFile

namespace Closure

/-- **The closure is closed under enclosing classes.** When the class that the map has under a member
can be read, then the class around it is a member too, or is what a source is compiled to; no
exception is made but for the names that every backend has, and for names that no class has. No
member is what a source is compiled to. -/
theorem compute_encloses (m : ClassMap) (always : SortedSet TypeName) (sources : List SourceUnit)
    (logging : LogSettings) (j : Journal) :
    (∀ n ∈ (compute ⟨.ofMap m, logging, always⟩ sources j).1, n ∉ always →
      ∀ bytes c, m.classes.find? n = some bytes → (∃ refs, ClassFile.referencesOf bytes = .ok refs) →
        ClassFile.parse bytes = .ok c → ∀ o, c.outerOf = some o → o.isAdmissible = true →
          o.text ∉ ClassFile.primitiveNames →
            o ∈ (compute ⟨.ofMap m, logging, always⟩ sources j).1 ∨
              ∃ u ∈ sources, u.name.Writes o) ∧
    ∀ n ∈ (compute ⟨.ofMap m, logging, always⟩ sources j).1, ∀ u ∈ sources, ¬ u.name.Writes n := by
  constructor
  · rintro n hn halways bytes c hbytes ⟨refs, hrefs⟩ hc o ho ha hp
    by_cases hwritten : ∃ u ∈ sources, u.name.Writes o
    · exact Or.inr hwritten
    · refine Or.inl (mem_compute.mpr ⟨?_, fun s ⟨u, hu, hs⟩ hw => hwritten ⟨u, hu, hs ▸ hw⟩⟩)
      obtain ⟨c', hc', hread⟩ := ClassFile.parse_of_referencesOf hrefs
      cases hc.symm.trans hc'
      have hmention := ClassFile.mem_references_of_outerOf hread ho ha hp
      rcases (mem_compute.mp hn).1 with hnested | ⟨hsurrounding, -⟩
      · by_cases hmember : o ∈ Nested m (sourceNames sources)
        · exact Or.inl hmember
        · exact Or.inr ⟨.referenced ⟨hmember, n, hnested, bytes, refs, hbytes, hrefs, hmention⟩, ha⟩
      · exact Or.inr ⟨.outer hsurrounding halways hbytes hc ho, ha⟩
  · exact fun n hn u hu => (mem_compute.mp hn).2 u.name ⟨u, hu, rfl⟩

/-- A class `U`, a subclass of the member `O$M` of a class `O`. -/
def inheriting : Assembly.ClassSpec := { name := "U", superClass := some "O$M" }

/-- The member `O$M` of the class `O`. -/
def inherited : Assembly.ClassSpec :=
  ({ name := "O$M", superClass := none } : Assembly.ClassSpec).memberOf "O"

/-- The two classes; there is none under the name `O`. -/
def inheritance : ClassMap := .ofBlobs [⟨⟨"U"⟩, inheriting.bytes⟩, ⟨⟨"O$M"⟩, inherited.bytes⟩]

theorem inherited_parsed :
    ∃ c, ClassFile.parse inherited.bytes = .ok c ∧ c.outerOf = some ⟨"O"⟩ := by
  have houter : (ClassFile.parse inherited.bytes).map ClassFile.outerOf = .ok (some ⟨"O"⟩) := by
    decide +kernel
  exact exists_of_map_eq_ok houter

theorem inheriting_parsed :
    ∃ c, ClassFile.parse inheriting.bytes = .ok c ∧ c.outerOf = none ∧ c.directNested = ∅ := by
  have hread : (ClassFile.parse inheriting.bytes).map (fun c => (c.outerOf, c.directNested)) =
      .ok (none, ∅) := by decide +kernel
  obtain ⟨c, hc, h⟩ := exists_of_map_eq_ok hread
  exact ⟨c, hc, Prod.mk.inj h⟩

/-- The class around the super class of a source, which the map does not have. -/
theorem compute_encloses_inherited :
    (⟨"O$M"⟩ : TypeName) ∈
        (compute ⟨.ofMap inheritance, {}, defaultAvailable⟩ [⟨⟨"U"⟩, ""⟩] {}).1 ∧
      ((⟨"O"⟩ : TypeName) ∈
          (compute ⟨.ofMap inheritance, {}, defaultAvailable⟩ [⟨⟨"U"⟩, ""⟩] {}).1 ∨
        ∃ u ∈ [(⟨⟨"U"⟩, ""⟩ : SourceUnit)], u.name.Writes ⟨"O"⟩) := by
  obtain ⟨u, hu, hu_outer, hu_nested⟩ := inheriting_parsed
  have hgroup : (Nest.groupOf (.ofMap inheritance) ⟨⟨"U"⟩, inheriting.bytes⟩ {}).1 =
      .ok (.ofList [⟨"U"⟩]) := Nest.groupOf_alone hu hu_outer hu_nested {}
  have hsource : inheritance.classes.find? ⟨"U"⟩ = some inheriting.bytes := by decide +kernel
  have hsuper : inheritance.classes.find? ⟨"O$M"⟩ = some inherited.bytes := by decide +kernel
  have hrefs : ClassFile.referencesOf inheriting.bytes = .ok (.ofList [⟨"O$M"⟩, ⟨"U"⟩]) := by
    decide +kernel
  have hread : ClassFile.referencesOf inherited.bytes = .ok (.ofList [⟨"O"⟩, ⟨"O$M"⟩]) := by
    decide +kernel
  have hnested : ∀ n, n ∈ Nested inheritance (sourceNames [⟨⟨"U"⟩, ""⟩]) ↔ n = ⟨"U"⟩ := by
    intro n
    constructor
    · rintro ⟨-, s, ⟨u, hu, rfl⟩, bytes, group, hbytes, hg, hn⟩
      cases List.mem_singleton.mp hu
      cases hsource.symm.trans hbytes
      cases hgroup.symm.trans hg
      exact List.mem_singleton.mp (SortedSet.mem_ofList.mp hn)
    · rintro rfl
      exact ⟨by decide, _, ⟨_, List.mem_singleton_self _, rfl⟩, _, _, hsource, hgroup, by decide⟩
  have hn : (⟨"O$M"⟩ : TypeName) ∈
      (compute ⟨.ofMap inheritance, {}, defaultAvailable⟩ [⟨⟨"U"⟩, ""⟩] {}).1 := by
    refine mem_compute.mpr ⟨Or.inr ⟨.referenced ⟨fun h => ?_, _, (hnested _).mpr rfl, _, _, hsource,
      hrefs, by decide⟩, by decide⟩, ?_⟩
    · exact absurd ((hnested _).mp h) (by decide)
    · rintro s ⟨u, hu, rfl⟩
      cases List.mem_singleton.mp hu
      rw [← TypeName.isOutputOf_iff]
      decide
  obtain ⟨c, hc, ho⟩ := inherited_parsed
  exact ⟨hn, (compute_encloses inheritance defaultAvailable _ {} {}).1 _ hn (by decide) _ _ hsuper
    ⟨_, hread⟩ hc _ ho (by decide) (by decide)⟩

end Closure

end VirtualClasspath
