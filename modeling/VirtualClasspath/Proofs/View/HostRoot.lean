import VirtualClasspath.Proofs.View.Listing

/-!
# Where the root of the class hierarchy comes from

When the host does not serve its types, the root may still come from it. Two locations bring types of
the host into a view: a query for `hostPlatformClassPath` writes them over the entries that are there
(`find?_afterQueries`), a query for `hostSystemModules` only adds those that are missing from its
answer (`mem_merge`). So a root that the closure or the provider's listing has brought in hides the
one of the host from the system modules, until a query of the first kind has covered it:
`root_origin` is the exact condition, and `root_hidden` the smallest case in which it fails.
-/

namespace VirtualClasspath

/-- A listing that a backend asks for. -/
structure Query where
  location : Location
  package : String
  recursive : Bool
  deriving DecidableEq

namespace Query

/-- Whether a type lies where the query looks. -/
def covers (q : Query) (n : TypeName) : Bool := n.inPackage q.package q.recursive

/-- Whether the query makes a type of the host an entry. -/
def absorbs (h : Host) (n : TypeName) (q : Query) : Bool :=
  q.location = .hostPlatformClassPath && n ∈ h.types q.package q.recursive

/-- Whether the query is one for the types of a host without modules, and the type is there. -/
def takesOver (n : TypeName) (q : Query) : Bool :=
  q.location = .hostPlatformClassPath && q.covers n

end Query

theorem Host.mem_types_ofNames {names : List TypeName} {resources : List String} {package : String}
    {recursive : Bool} {n : TypeName} :
    n ∈ (ofNames names resources).types package recursive ↔
      n ∈ names ∧ n.inPackage package recursive = true :=
  List.mem_filter.trans (and_congr_left fun _ => SortedSet.mem_ofList)

theorem Query.absorbs_ofNames {names : List TypeName} {resources : List String} {n : TypeName}
    (h : n ∈ names) : absorbs (.ofNames names resources) n = takesOver n := by
  funext q
  unfold absorbs takesOver covers
  simp [Host.mem_types_ofNames, h]

namespace View

/-- Answers a query. -/
def answer (v : View) (q : Query) : Session (List Entry × View) :=
  v.listLocation q.location q.package q.recursive

/-- The view that has answered queries, one after the other. -/
def afterQueries (v : View) (qs : List Query) : Session View :=
  qs.foldlM (fun v q => do return (← v.answer q).2) v

/-- What is shown for `q` after the queries `past`, by the view of a closure and a listing. -/
def shownAfter (closure : ClosureSet) (listing : List String) (host : Host) (o : Options)
    (past : List Query) (q : Query) : Session (List Entry) := do
  let v ← make closure listing host o
  let v ← v.afterQueries past
  return (← v.answer q).1

variable {v : View} {q : Query} {j : Journal}

/-! ## One query -/

theorem view_answer (ho : v.options.useHostSystemTypes = false) :
    (v.answer q j).1.2 =
      if q.location = .hostPlatformClassPath then v.absorb (v.host.types q.package q.recursive)
      else v := by
  obtain ⟨location, package, recursive⟩ := q
  unfold answer listLocation
  rw [bind_run]
  cases location with
  | classPath => rfl
  | hostPlatformClassPath => simp only [ho, Bool.false_eq_true, if_false, if_true]; rfl
  | hostSystemModules => simp only [ho, Bool.false_eq_true, if_false]; rfl

theorem answer_classPath (hq : q.location = .classPath) :
    ∃ j', (v.answer q j).1.1 = (v.select q.package q.recursive j').1 := by
  unfold answer listLocation
  rw [hq]
  exact ⟨_, rfl⟩

theorem answer_hostPlatformClassPath (ho : v.options.useHostSystemTypes = false)
    (hq : q.location = .hostPlatformClassPath) : (v.answer q j).1.1 = [] := by
  unfold answer listLocation
  rw [hq]
  simp only [ho, Bool.false_eq_true, if_false]
  rfl

theorem answer_hostSystemModules (ho : v.options.useHostSystemTypes = false)
    (hq : q.location = .hostSystemModules) :
    ∃ j', (v.answer q j).1.1 =
      merge v.options (v.select q.package q.recursive j').1
        (v.host.types q.package q.recursive) := by
  unfold answer listLocation
  rw [hq]
  simp only [ho, Bool.false_eq_true, if_false]
  exact ⟨_, rfl⟩

/-! ## Many queries -/

/-- A query for the types of a host without modules writes them over the entries. -/
theorem find?_absorb (names : List TypeName) (n : TypeName) :
    (v.absorb names).entries.find? n =
      if n ∈ names then some (hostOrigin v.options n) else v.entries.find? n :=
  SortedMap.find?_foldl_insert _ names v.entries n

/-- **What queries leave behind**: the types that they have absorbed have the origin of the host's
types, all others the origin that they had. -/
theorem find?_afterQueries (ho : v.options.useHostSystemTypes = false) (past : List Query)
    (j : Journal) :
    (v.afterQueries past j).1.options = v.options ∧ (v.afterQueries past j).1.host = v.host ∧
    ∀ n, (v.afterQueries past j).1.entries.find? n =
      if past.any (Query.absorbs v.host n) then some (hostOrigin v.options n)
      else v.entries.find? n := by
  refine foldlM_invariant (fun (done : List Query) (u : View) =>
      u.options = v.options ∧ u.host = v.host ∧ ∀ n, u.entries.find? n =
        if done.any (Query.absorbs v.host n) then some (hostOrigin v.options n)
        else v.entries.find? n)
    (fun done q u j hI => ?_) ⟨rfl, rfl, fun n => by simp⟩ j
  obtain ⟨hopt, hhost, hfind⟩ := hI
  have hnext : ((do return (← u.answer q).2 : Session View) j).1 = (u.answer q j).1.2 := rfl
  rw [hnext, view_answer (hopt ▸ ho)]
  by_cases hq : q.location = .hostPlatformClassPath
  · rw [if_pos hq]
    refine ⟨hopt, hhost, fun n => ?_⟩
    rw [find?_absorb, hopt, hhost, hfind, List.any_append]
    by_cases hn : n ∈ v.host.types q.package q.recursive
    · rw [if_pos hn, if_pos (by simp [Query.absorbs, hq, hn])]
    · rw [if_neg hn]
      simp [Query.absorbs, hn]
  · rw [if_neg hq]
    refine ⟨hopt, hhost, fun n => ?_⟩
    rw [hfind, List.any_append]
    simp [Query.absorbs, hq]

/-- The entries that a view starts with: all from the provider. -/
theorem find?_initialEntries (closure : ClosureSet) (listing : List TypeName) (n : TypeName) :
    (initialEntries closure listing).find? n =
      if n ∈ closure ∨ n ∈ listing ∧ n.isAdmissible = true then some .provider else none := by
  unfold initialEntries
  rw [SortedMap.find?_foldl_insertNew, SortedMap.find?_empty, Option.getD_none]
  have hmem : n ∈ closure.toList ++ listing.filter TypeName.isAdmissible ↔
      n ∈ closure ∨ n ∈ listing ∧ n.isAdmissible = true := by
    rw [List.mem_append, List.mem_filter]
    rfl
  simp only [hmem]

/-! ## The origin of a type -/

section Shown

variable {o : Options}

/-- The view that answers after `past`: its entry for `n`. -/
theorem shownAfter_eq (closure : ClosureSet) (listing : List String) (names : List TypeName)
    (resources : List String) (ho : o.useHostSystemTypes = false) (past : List Query) (q : Query)
    (j : Journal) :
    ∃ (v : View) (j' : Journal),
      (shownAfter closure listing (.ofNames names resources) o past q j).1 = (v.answer q j').1.1 ∧
      v.options = o ∧ v.host = .ofNames names resources ∧
      ∀ n, v.entries.find? n =
        if past.any (Query.absorbs (.ofNames names resources) n) then some (hostOrigin o n)
        else if n ∈ closure ∨ n.text ∈ listing ∧ n.isAdmissible = true then some .provider
        else none := by
  unfold shownAfter
  rw [bind_run, bind_run]
  generalize hv : make closure listing (.ofNames names resources) o j = r
  obtain ⟨v, j₁⟩ := r
  have hv' : v = ⟨initialEntries closure (listing.map TypeName.mk), .ofNames names resources, o⟩ :=
    (congrArg Prod.fst hv).symm
  subst hv'
  obtain ⟨hopt, hhost, hfind⟩ := find?_afterQueries (v := ⟨_, .ofNames names resources, o⟩) ho past j₁
  refine ⟨_, _, rfl, hopt, hhost, fun n => ?_⟩
  rw [hfind, find?_initialEntries]
  have hmem : n ∈ listing.map TypeName.mk ↔ n.text ∈ listing := by
    rw [List.mem_map]
    exact ⟨fun ⟨s, hs, he⟩ => he ▸ hs, fun hs => ⟨n.text, hs, rfl⟩⟩
  simp only [hmem]

/-- Without the root of the host, no type has the origin of the host. -/
theorem hostOrigin_of_not (h : o.useHostRootType = false) (n : TypeName) :
    hostOrigin o n = .provider := by
  unfold hostOrigin
  rw [h, Bool.and_false]
  rfl

theorem hostOrigin_rootObject (h : o.useHostRootType = true) :
    hostOrigin o TypeName.rootObject = .host := by
  unfold hostOrigin
  rw [h]
  rfl

/-- The listing of a package shows an entry in it once. -/
theorem filter_select {v : View} {n : TypeName} {origin : Origin} (hq : q.covers n = true)
    (hn : v.entries.find? n = some origin) :
    (v.select q.package q.recursive j).1.filter (fun e => e.name = n) = [⟨n, origin⟩] :=
  filter_name_eq (e := ⟨n, origin⟩) (pairwise_select _ _ _ _)
    (mem_select.mpr ⟨hn, (inPackage_iff.mp hq).1⟩)

/-- A merged listing shows a type of the host once, with the origin of its entry if it has one. -/
theorem filter_merge {v : View} {n : TypeName} (hq : q.covers n = true)
    (hn : n ∈ v.host.types q.package q.recursive) :
    (merge v.options (v.select q.package q.recursive j).1
      (v.host.types q.package q.recursive)).filter (fun e => e.name = n) =
        [⟨n, (v.entries.find? n).getD (hostOrigin v.options n)⟩] := by
  refine filter_name_eq (e := ⟨n, _⟩) (pairwise_merge _ _ _) ?_
  rw [mem_merge (pairwise_select _ _ _ _)]
  cases hfind : v.entries.find? n with
  | some origin => exact Or.inl (mem_select.mpr ⟨hfind, (inPackage_iff.mp hq).1⟩)
  | none =>
    refine Or.inr ⟨fun f hf he => ?_, hn, rfl⟩
    have hf := (mem_select.mp hf).1
    rw [he, hfind] at hf
    cases hf

/-- Every origin in an answer is that of an entry, or that of a type that the host has. -/
theorem origin_of_mem_answer {v : View} (ho : v.options.useHostSystemTypes = false) {e : Entry}
    (he : e ∈ (v.answer q j).1.1) :
    v.entries.find? e.name = some e.origin ∨ e.origin = hostOrigin v.options e.name := by
  cases hq : q.location with
  | classPath =>
    obtain ⟨j', hj⟩ := answer_classPath (v := v) (j := j) hq
    rw [hj] at he
    exact Or.inl (mem_select.mp he).1
  | hostPlatformClassPath =>
    rw [answer_hostPlatformClassPath ho hq] at he
    exact absurd he List.not_mem_nil
  | hostSystemModules =>
    obtain ⟨j', hj⟩ := answer_hostSystemModules (j := j) ho hq
    rw [hj, mem_merge (pairwise_select _ _ _ _)] at he
    exact he.imp (fun h => (mem_select.mp h).1) fun h => h.2.2

/-- **Where the root comes from.** When the host has the root but does not serve its types, an
answer that covers the root shows it once. Among the system modules it is the host's exactly if
neither the closure nor the listing has brought one in, or a query for the host without modules has
covered it before; on the class path it is the host's after such a query. When the root is not to
be the host's, no answer has a type of the host. -/
theorem root_origin (closure : ClosureSet) (listing : List String) (names : List TypeName)
    (resources : List String) (o : Options) (ho : o.useHostSystemTypes = false)
    (past : List Query) (q : Query) (j : Journal) :
    (o.useHostRootType = true → TypeName.rootObject ∈ names → q.covers .rootObject = true →
      (q.location = .hostSystemModules → ∃ origin,
        (shownAfter closure listing (.ofNames names resources) o past q j).1.filter
          (fun e => e.name = .rootObject) = [⟨.rootObject, origin⟩] ∧
        (origin = .host ↔
          (TypeName.rootObject ∉ closure ∧ TypeName.rootObject.text ∉ listing) ∨
            past.any (Query.takesOver .rootObject) = true)) ∧
      (q.location = .classPath → past.any (Query.takesOver .rootObject) = true →
        (shownAfter closure listing (.ofNames names resources) o past q j).1.filter
          (fun e => e.name = .rootObject) = [⟨.rootObject, .host⟩])) ∧
    (o.useHostRootType = false →
      ∀ e ∈ (shownAfter closure listing (.ofNames names resources) o past q j).1,
        e.origin = .provider) := by
  obtain ⟨v, j', hshown, hopt, hhost, hfind⟩ :=
    shownAfter_eq closure listing names resources ho past q j
  rw [hshown]
  refine ⟨fun hr hroot hq => ?_, fun hr e he => ?_⟩
  · have hentry := hfind .rootObject
    rw [Query.absorbs_ofNames hroot, hostOrigin_rootObject hr] at hentry
    have hadm : TypeName.rootObject.isAdmissible = true := by decide
    simp only [hadm, and_true] at hentry
    refine ⟨fun hloc => ?_, fun hloc hpast => ?_⟩
    · obtain ⟨j₁, hj⟩ := answer_hostSystemModules (v := v) (j := j') (hopt ▸ ho) hloc
      have hhas : TypeName.rootObject ∈ v.host.types q.package q.recursive := by
        rw [hhost]
        exact Host.mem_types_ofNames.mpr ⟨hroot, hq⟩
      rw [hj]
      refine ⟨_, filter_merge hq hhas, ?_⟩
      rw [hentry, hopt, hostOrigin_rootObject hr]
      by_cases hpast : past.any (Query.takesOver .rootObject) = true
      · simp [hpast]
      · by_cases hown : TypeName.rootObject ∈ closure ∨ TypeName.rootObject.text ∈ listing
        · simp [hpast, hown, ← not_or]
        · simp [hpast, hown, ← not_or]
    · obtain ⟨j₁, hj⟩ := answer_classPath (v := v) (j := j') hloc
      rw [hj]
      rw [if_pos hpast] at hentry
      exact filter_select hq hentry
  · rcases origin_of_mem_answer (hopt ▸ ho) he with h | h
    · rw [hfind, hostOrigin_of_not hr] at h
      split at h
      · exact (Option.some.inj h).symm
      · split at h
        · exact (Option.some.inj h).symm
        · cases h
    · rw [h, hopt, hostOrigin_of_not hr]

/-- A root in the closure, with a query for the host without modules before and without. -/
theorem root_origin_after_takeover :
    (Options.useHostSystemTypes { useHostSystemTypes := false }) = false ∧
    (shownAfter (.ofList [.rootObject]) [] (.ofNames [.rootObject] [])
        { useHostSystemTypes := false } [⟨.hostPlatformClassPath, "java", true⟩]
        ⟨.classPath, "java.lang", false⟩ {}).1.filter (fun e => e.name = .rootObject) =
      [⟨.rootObject, .host⟩] ∧
    ∀ e ∈ (shownAfter (.ofList [.rootObject]) [] (.ofNames [.rootObject] [])
        { useHostSystemTypes := false, useHostRootType := false } []
        ⟨.hostSystemModules, "java.lang", false⟩ {}).1, e.origin = .provider :=
  ⟨rfl,
    ((root_origin _ _ _ _ _ rfl _ _ _).1 rfl (by decide) (by decide)).2 rfl (by decide),
    (root_origin _ _ _ _ _ rfl _ _ _).2 rfl⟩

/-- **A root in the closure hides the host's** from the system modules. -/
theorem root_hidden :
    (⟨.hostSystemModules, "java.lang", false⟩ : Query).covers .rootObject = true ∧
    (shownAfter (.ofList [.rootObject]) [] (.ofNames [.rootObject] [])
      { useHostSystemTypes := false } [] ⟨.hostSystemModules, "java.lang", false⟩ {}).1 =
        [⟨.rootObject, .provider⟩] := by
  decide +kernel

end Shown

end View

end VirtualClasspath
