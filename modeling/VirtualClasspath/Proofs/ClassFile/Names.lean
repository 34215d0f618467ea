import VirtualClasspath.Assembly.Write
import VirtualClasspath.Proofs.ClassFile.Mentions

/-!
# The names that an extraction finds

Whatever bytes a class is made of, the names extracted from it can stand for classes, and they can
because the scanner says so: every name that it reports is `Signature.Plain`, before anything is
left out. **`referencesOf_plain`** says this of the names of every mention, and that of those names
only the primitive ones are left out at the end. `isAdmissible_of_mem_references` is what the
closure of a compilation needs of it.
-/

namespace VirtualClasspath

theorem Signature.Plain.isAdmissible {n : TypeName} (h : Plain n) : n.isAdmissible = true := by
  have harray : n.isArray = false := by
    unfold TypeName.isArray Text.beginsWith
    rw [Option.isSome_eq_false_iff, Option.isNone_iff_eq_none, Text.after?_eq_none_iff]
    intro rest he
    exact h.chars '[' (by decide) (by rw [he]; simp)
  have hsep : n.hasSeparator = false := by
    unfold TypeName.hasSeparator Text.hasChar
    rw [List.contains_eq_mem, decide_eq_false_iff_not]
    exact h.chars '/' (by decide)
  simp [TypeName.isAdmissible, h.ne_empty, harray, hsep]

namespace ClassFile

/-- The class that the names are taken from. -/
theorem parse_of_referencesOf {bytes : Bytes} {names : SortedSet TypeName}
    (h : referencesOf bytes = .ok names) : ∃ c, parse bytes = .ok c ∧ c.references = .ok names := by
  unfold referencesOf at h
  cases hc : parse bytes with
  | error fault =>
    rw [hc] at h
    cases h
  | ok c =>
    rw [hc] at h
    exact ⟨c, rfl, h⟩

/-- Each mention can be read and names plain names, of which the set has all but the primitive ones;
and it has no other names. -/
theorem mentions_of_references {c : ClassFile} {names : SortedSet TypeName}
    (h : c.references = .ok names) :
    (∀ m, c.Says m → ∃ l, m.names = .ok l ∧
      ∀ n ∈ l, Signature.Plain n ∧ (n ∉ names ↔ n.text ∈ primitiveNames)) ∧
    ∀ n ∈ names, Signature.Plain n ∧ n.text ∉ primitiveNames := by
  rcases references_cases c with ⟨names', hnames, hread, hmem⟩ | ⟨m, -, -, herror⟩
  · rw [h] at hnames
    cases hnames
    constructor
    · intro m hm
      obtain ⟨l, hl⟩ := hread m hm
      refine ⟨l, hl, fun n hn => ⟨m.plain_of_mem_names hl hn, ?_⟩⟩
      rw [hmem, and_iff_right ⟨m, l, hm, hl, hn⟩, not_not]
    · intro n hn
      obtain ⟨⟨m, l, -, hl, hnl⟩, hprimitive⟩ := (hmem n).mp hn
      exact ⟨m.plain_of_mem_names hl hnl, hprimitive⟩
  · rw [h] at herror
    cases herror

theorem isAdmissible_of_mem_references {bytes : Bytes} {names : SortedSet TypeName}
    (h : referencesOf bytes = .ok names) {n : TypeName} (hn : n ∈ names) :
    n.isAdmissible = true := by
  obtain ⟨c, -, hc⟩ := parse_of_referencesOf h
  exact ((mentions_of_references hc).2 n hn).1.isAdmissible

/-- **Extracted names are plain names.** If names are extracted from some bytes, each of them is
made of segments that are not empty, without any character of descriptors, and is not that of a
primitive type; so it can stand for a class. This is no merit of leaving names out at the end: the
names of every mention of the class are plain, and those of primitive types are all that is left
out. -/
theorem referencesOf_plain {bytes : Bytes} {names : SortedSet TypeName}
    (h : referencesOf bytes = .ok names) :
    (∀ n ∈ names, Signature.Plain n ∧ n.text ∉ primitiveNames ∧ n.isAdmissible = true) ∧
    ∃ c, parse bytes = .ok c ∧ ∀ m, c.Says m → ∃ l, m.names = .ok l ∧
      ∀ n ∈ l, Signature.Plain n ∧ (n ∉ names ↔ n.text ∈ primitiveNames) := by
  obtain ⟨c, hc, hnames⟩ := parse_of_referencesOf h
  obtain ⟨hmentions, hplain⟩ := mentions_of_references hnames
  refine ⟨fun n hn => ?_, c, hc, hmentions⟩
  obtain ⟨hn, hprimitive⟩ := hplain n hn
  exact ⟨hn, hprimitive, hn.isAdmissible⟩

/-- A class whose super class has the name of a primitive type, and with a class nested in a generic
one in its signature. -/
def oddlyNamed : Assembly.ClassSpec :=
  { name := "p/Q", superClass := some "int", signature := some "Lp/A<Lp/B;>.C;" }

theorem oddlyNamed_parsed :
    (parse oddlyNamed.bytes).map (·.superClass) = .ok (some "int") := by decide +kernel

/-- The nested class comes in with the name that it has with its outer class; the super class is
mentioned and left out. -/
theorem referencesOf_plain_nested :
    Signature.Plain ⟨"p.A$C"⟩ ∧
    ∃ c names, parse oddlyNamed.bytes = .ok c ∧ c.references = .ok names ∧
      ⟨"p.A$C"⟩ ∈ names ∧ c.Says (.operand "int") ∧ ⟨"int"⟩ ∉ names := by
  have hread : referencesOf oddlyNamed.bytes =
      .ok (.ofList [⟨"p.A"⟩, ⟨"p.A$C"⟩, ⟨"p.B"⟩, ⟨"p.Q"⟩]) := by decide +kernel
  obtain ⟨hplain, c, hc, hmentions⟩ := referencesOf_plain hread
  have hnested : (⟨"p.A$C"⟩ : TypeName) ∈
      SortedSet.ofList [⟨"p.A"⟩, ⟨"p.A$C"⟩, ⟨"p.B"⟩, (⟨"p.Q"⟩ : TypeName)] := by decide
  have hparsed := oddlyNamed_parsed
  rw [hc] at hparsed
  have hint : c.Says (.operand "int") := .superClass (Except.ok.inj hparsed)
  obtain ⟨l, hl, hnames⟩ := hmentions _ hint
  have hone : (Mention.operand "int").names = .ok [⟨"int"⟩] := by decide +kernel
  rw [hone] at hl
  cases hl
  refine ⟨(hplain _ hnested).1, c, _, hc, ?_, hnested, hint, ?_⟩
  · obtain ⟨c', hc', hc''⟩ := parse_of_referencesOf hread
    rw [hc] at hc'
    cases hc'
    exact hc''
  · exact (hnames _ (List.mem_singleton_self _)).2.mpr (by decide)

end ClassFile

end VirtualClasspath
