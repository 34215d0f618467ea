import VirtualClasspath.Proofs.View.HostRoot
import VirtualClasspath.Proofs.View.Scan

/-!
# Which package a name is in

Three parts of a class path say it, each in its own way. A listing has the names that begin with the
package and a dot and have no dot after that (`Belongs`). A name says it of itself, by its last dot:
both come to the same for every name that does not begin with a dot (`mem_list_iff_package`), so a
class is found in its own package and in no other. A host tests its names one by one, and there asks
for a simple name after the dot as well: `list_agrees_iff` says that a name which ends in the dot is
all that a listing and a host can differ in, and `list_trailing_dot` that they do.
-/

namespace VirtualClasspath

namespace TypeName

variable {n : TypeName} {package : String}

theorem package_of_not_mem (h : '.' ∉ n.text.toList) : n.package = "" := by
  unfold TypeName.package
  rw [Text.cutLast_eq_none_iff.mpr h]

theorem package_of_append {rest : String} (h : n.text = package ++ "." ++ rest)
    (hr : '.' ∉ rest.toList) : n.package = package := by
  have hcut : Text.cutLast '.' n.text.toList = some (package.toList, rest.toList) := by
    rw [h, String.append_assoc, String.toList_append, String.toList_append]
    exact Text.cutLast_append hr
  unfold TypeName.package
  rw [hcut]
  exact String.ofList_toList

/-- A name with a dot that it does not begin with is its package, a dot, and a rest without one. -/
theorem exists_rest_of_mem (h : '.' ∈ n.text.toList) (hdot : ∀ rest, n.text ≠ "." ++ rest) :
    n.package ≠ "" ∧ ∃ rest, n.text = n.package ++ "." ++ rest ∧ '.' ∉ rest.toList := by
  cases hcut : Text.cutLast '.' n.text.toList with
  | none => exact absurd h (Text.cutLast_eq_none_iff.mp hcut)
  | some p =>
    obtain ⟨pre, post⟩ := p
    obtain ⟨hl, hpost⟩ := Text.cutLast_eq_some_iff.mp hcut
    have htext : n.text = String.ofList pre ++ "." ++ String.ofList post := by
      rw [← String.toList_inj, hl]
      simp
    have hrest : '.' ∉ (String.ofList post).toList := by rwa [String.toList_ofList]
    rw [package_of_append htext hrest]
    refine ⟨fun hpre => hdot (String.ofList post) ?_, String.ofList post, htext, hrest⟩
    rw [htext, hpre, String.empty_append]

end TypeName

namespace View

variable {v : View} {n : TypeName} {package : String} {recursive : Bool} {j : Journal}

/-! ## A name's own package -/

theorem eq_package_of_belongs (h : Belongs package false n) : package = n.package := by
  unfold Belongs at h
  split at h
  · rename_i hp
    have hno := h.resolve_left Bool.false_ne_true
    rw [hp, TypeName.package_of_not_mem hno]
  · obtain ⟨rest, hr, h⟩ := h
    exact (TypeName.package_of_append hr (h.resolve_left Bool.false_ne_true)).symm

theorem belongs_package (hdot : ∀ rest, n.text ≠ "." ++ rest) : Belongs n.package false n := by
  unfold Belongs
  by_cases h : '.' ∈ n.text.toList
  · obtain ⟨hp, rest, hr, hno⟩ := TypeName.exists_rest_of_mem h hdot
    rw [if_neg hp]
    exact ⟨rest, hr, Or.inr hno⟩
  · rw [if_pos (TypeName.package_of_not_mem h)]
    exact Or.inr h

/-- **Packages partition a view.** An entry whose name does not begin with a dot is listed in the
package that its name says, and in no other; and no entry at all is listed in two packages. -/
theorem mem_list_iff_package (v : View) :
    (∀ n, v.contains n = true → (∀ rest, n.text ≠ "." ++ rest) →
      ∀ package j, n ∈ (v.list package false j).1 ↔ package = n.package) ∧
    ∀ n package package' j j', n ∈ (v.list package false j).1 →
      n ∈ (v.list package' false j').1 → package = package' := by
  refine ⟨fun n hn hdot package j => ?_, fun n package package' j j' h h' => ?_⟩
  · rw [mem_list, and_iff_right hn]
    refine ⟨eq_package_of_belongs, ?_⟩
    rintro rfl
    exact belongs_package hdot
  · exact (eq_package_of_belongs (mem_list.mp h).2).trans
      (eq_package_of_belongs (mem_list.mp h').2).symm

/-- Names of the unnamed package, with an empty segment, and with an empty simple name. -/
theorem mem_list_iff_package_odd :
    let v : View := (make (.ofList [⟨"A"⟩, ⟨"a..B"⟩]) ["a.", "a.B"] .none {} {}).1
    v.contains ⟨"a..B"⟩ = true ∧ (∀ rest, "a..B" ≠ "." ++ rest) ∧
    (∀ package j, ⟨"a..B"⟩ ∈ (v.list package false j).1 ↔ package = "a.") ∧
    (v.list "a." false {}).1 = [⟨"a..B"⟩] ∧ (v.list "" false {}).1 = [⟨"A"⟩] := by
  intro v
  have hcontains : v.contains ⟨"a..B"⟩ = true := by decide +kernel
  have hdot : ∀ rest, "a..B" ≠ "." ++ rest := by
    intro rest h
    have hhead := congrArg (fun s => s.toList.head?) h
    rw [String.toList_append] at hhead
    have hne : "a..B".toList.head? ≠ some '.' := by decide +kernel
    exact hne hhead
  have hpackage : (⟨"a..B"⟩ : TypeName).package = "a." := by decide +kernel
  refine ⟨hcontains, hdot, fun package j => ?_, by decide +kernel, by decide +kernel⟩
  rw [(mem_list_iff_package v).1 ⟨"a..B"⟩ hcontains hdot package j, hpackage]

/-! ## A host's test -/

theorem belongs_of_trails (h : Trails package n) : Belongs package recursive n := by
  unfold Belongs
  rw [if_neg h.1]
  exact ⟨"", by rw [h.2, String.append_empty], Or.inr List.not_mem_nil⟩

theorem inPackage_iff_belongs :
    n.inPackage package recursive = true ↔ Belongs package recursive n ∧ ¬ Trails package n := by
  rw [inPackage_iff, belongs_iff_shows]

theorem mem_keys_iff_contains : n ∈ v.entries.keys ↔ v.contains n = true := SortedMap.mem_keys_iff

/-- The types that a host with the names of a view has in a package. -/
theorem types_ofNames_keys (v : View) (package : String) (recursive : Bool)
    (resources : List String) (j : Journal) :
    (Host.ofNames v.entries.keys resources).types package recursive =
      (v.list package recursive j).1.filter fun n => ¬ Trails package n := by
  refine SortedSet.eq_of_ascending ((SortedSet.ascending _).filter _) ?_ fun n => ?_
  · rw [list_fst]
    exact (v.entries.pairwise_keys.filter _).filter _
  · rw [Host.mem_types_ofNames, List.mem_filter, decide_eq_true_iff, mem_list, inPackage_iff_belongs,
      mem_keys_iff_contains, and_assoc]

/-- **Where a view and a host agree.** A listing has the entries that lie in the package, and the
one, if there is one, that is the package and a dot with nothing after it. A host with the same names
lists all but that one, in the same order. So they agree on what is in the package exactly if the
view has no such entry. -/
theorem list_agrees_iff (v : View) (package : String) (recursive : Bool) (resources : List String)
    (j : Journal) :
    let listed := (v.list package recursive j).1
    let types := (Host.ofNames v.entries.keys resources).types package recursive
    (∀ n ∈ v.entries.keys,
      n ∈ listed ↔ n.inPackage package recursive = true ∨ Trails package n) ∧
    types = listed.filter (fun n => ¬ Trails package n) ∧
    ((∀ n ∈ v.entries.keys, (n ∈ listed ↔ n.inPackage package recursive = true)) ∧
      types = listed ↔ ∀ n ∈ v.entries.keys, ¬ Trails package n) := by
  intro listed types
  have hlisted : ∀ n ∈ v.entries.keys,
      (n ∈ listed ↔ n.inPackage package recursive = true ∨ Trails package n) := by
    intro n hn
    rw [mem_list, and_iff_right (mem_keys_iff_contains.mp hn), inPackage_iff_belongs]
    by_cases ht : Trails package n
    · exact iff_of_true (belongs_of_trails ht) (Or.inr ht)
    · rw [and_iff_left ht, or_iff_left ht]
  have htypes : types = listed.filter fun n => ¬ Trails package n :=
    types_ofNames_keys v package recursive resources j
  refine ⟨hlisted, htypes, ?_⟩
  constructor
  · rintro ⟨hagree, -⟩ n hn ht
    exact (inPackage_iff_belongs.mp ((hagree n hn).mp ((hlisted n hn).mpr (Or.inr ht)))).2 ht
  · intro hno
    refine ⟨fun n hn => (hlisted n hn).trans (or_iff_left (hno n hn)), ?_⟩
    rw [htypes, List.filter_eq_self]
    intro n hn
    exact decide_eq_true (hno n (mem_keys_iff_contains.mpr (mem_list.mp hn).1))

/-- A host with the names of a view, among them one that ends in a dot. -/
theorem list_agrees_iff_mixed :
    let v : View := (make (.ofList [⟨"a.B"⟩, ⟨"a.b.C"⟩]) ["a."] .none {} {}).1
    (⟨"a."⟩ ∈ v.entries.keys ∧ Trails "a" ⟨"a."⟩ ∧ ⟨"a."⟩ ∈ (v.list "a" true {}).1) ∧
    (v.list "a.b" true {}).1 = [⟨"a.b.C"⟩] ∧
    (Host.ofNames v.entries.keys []).types "a.b" true = (v.list "a.b" true {}).1 := by
  intro v
  have hkeys : v.entries.keys = [⟨"a."⟩, ⟨"a.B"⟩, ⟨"a.b.C"⟩] := by decide +kernel
  have hmem : (⟨"a."⟩ : TypeName) ∈ v.entries.keys := by rw [hkeys]; exact List.mem_cons_self
  have hno : ∀ n ∈ v.entries.keys, ¬ Trails "a.b" n := by rw [hkeys]; decide +kernel
  have htrails : Trails "a" ⟨"a."⟩ := by decide +kernel
  obtain ⟨hlisted, -, -⟩ := list_agrees_iff v "a" true [] {}
  obtain ⟨-, -, hagree⟩ := list_agrees_iff v "a.b" true [] {}
  exact ⟨⟨hmem, htrails, (hlisted _ hmem).mpr (Or.inr htrails)⟩, by decide +kernel,
    (hagree.mpr hno).2⟩

/-- **A name that ends in a dot** is listed, but lies in no package. -/
theorem list_trailing_dot :
    let v : View := (make ∅ ["a."] .none {} {}).1
    (v.list "a" false {}).1 = [⟨"a."⟩] ∧
    (⟨"a."⟩ : TypeName).inPackage "a" false = false ∧
    (Host.ofNames v.entries.keys []).types "a" false = [] := by
  decide +kernel

end View

end VirtualClasspath
