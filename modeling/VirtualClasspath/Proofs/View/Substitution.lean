import VirtualClasspath.Proofs.View.HostRoot

/-!
# Two ways of serving the types of a host

A host that does not serve its types itself has them served in one of two ways. The modules of the
system are listed with the types of the host merged in, and nothing stays behind
(`mem_shown_modules`). A platform without modules lists nothing, but its types become entries, and
the class path shows them from then on (`next_platform`). The first way tests a type for the package,
the second scans for the beginning of its name. `Substitutes` says what makes the two one: they show
the same names, and it does not matter in which order and how often types are taken over.

A type of a package is shown in the listing of the package (`inPackage_iff`), so all that
is left to compare is the members of two listings in order.
-/

namespace VirtualClasspath.View

variable {v : View} {h : Host} {o : Options}

/-- The names that the answer to a query lists. -/
def shown (v : View) (q : Query) (j : Journal) : List TypeName := (v.answer q j).1.1.map (·.name)

/-- The view that has answered a query. -/
def next (v : View) (q : Query) (j : Journal) : View := (v.answer q j).1.2

/-- The view of a closure and a listing that has answered the queries `past`. -/
def reached (closure : ClosureSet) (listing : List String) (host : Host) (o : Options)
    (past : List Query) : Session View := do
  (← make closure listing host o).afterQueries past

/-! ## Taking over types -/

theorem absorb_absorb (names names' : List TypeName) :
    (v.absorb names).absorb names' = v.absorb (names ++ names') := by
  unfold absorb
  rw [List.foldl_append]

/-- What is taken over depends on which names there are only. -/
theorem absorb_congr {names names' : List TypeName} (hn : ∀ n, n ∈ names ↔ n ∈ names') :
    v.absorb names = v.absorb names' := by
  have hentries : (v.absorb names).entries = (v.absorb names').entries :=
    SortedMap.ext fun n => by simp only [find?_absorb, hn]
  exact congrArg (fun m => { v with entries := m }) hentries

/-! ## What one query does -/

/-- When the host serves its types itself, a query leaves the view alone. -/
theorem next_of_served (ho : v.options.useHostSystemTypes = true) (q : Query) (j : Journal) :
    v.next q j = v := by
  obtain ⟨location, package, recursive⟩ := q
  unfold next answer listLocation
  rw [bind_run]
  cases location with
  | classPath => rfl
  | hostPlatformClassPath => simp only [ho, if_true]; rfl
  | hostSystemModules => simp only [ho, if_true]; rfl

theorem next_platform (ho : v.options.useHostSystemTypes = false) (package : String)
    (recursive : Bool) (j : Journal) :
    v.next ⟨.hostPlatformClassPath, package, recursive⟩ j =
      v.absorb (v.host.types package recursive) := by
  unfold next
  rw [view_answer ho, if_pos rfl]

theorem next_of_ne (ho : v.options.useHostSystemTypes = false) {q : Query}
    (hq : q.location ≠ .hostPlatformClassPath) (j : Journal) : v.next q j = v := by
  unfold next
  rw [view_answer ho, if_neg hq]

/-- No query changes the options or the host. -/
theorem options_host_next (v : View) (q : Query) (j : Journal) :
    (v.next q j).options = v.options ∧ (v.next q j).host = v.host := by
  by_cases ho : v.options.useHostSystemTypes = true
  · rw [next_of_served ho]
    exact ⟨rfl, rfl⟩
  · unfold next
    rw [view_answer (Bool.not_eq_true _ ▸ ho)]
    split
    · exact ⟨rfl, rfl⟩
    · exact ⟨rfl, rfl⟩

theorem options_host_reached (closure : ClosureSet) (listing : List String) (past : List Query)
    (j : Journal) :
    (reached closure listing h o past j).1.options = o ∧
      (reached closure listing h o past j).1.host = h := by
  refine foldlM_invariant (fun (_ : List Query) (u : View) => u.options = o ∧ u.host = h)
    (fun _ q u j hu => ?_) ⟨rfl, rfl⟩ _
  obtain ⟨hopt, hhost⟩ := options_host_next u q j
  exact ⟨hopt.trans hu.1, hhost.trans hu.2⟩

/-! ## What listings show -/

section Shown

variable {package : String} {recursive : Bool} {j k : Journal} {n : TypeName}

theorem mem_names_select :
    n ∈ (v.select package recursive j).1.map (·.name) ↔
      v.entries.contains n = true ∧ Shows (packageBeginning package) recursive n := by
  rw [List.mem_map, SortedMap.contains, Option.isSome_iff_exists]
  constructor
  · rintro ⟨e, he, rfl⟩
    obtain ⟨hfind, hs⟩ := mem_select.mp he
    exact ⟨⟨e.origin, hfind⟩, hs⟩
  · rintro ⟨⟨origin, hfind⟩, hs⟩
    exact ⟨⟨n, origin⟩, mem_select.mpr ⟨hfind, hs⟩, rfl⟩

theorem mem_names_merge {selected : List Entry} {names : List TypeName}
    (hs : selected.Pairwise fun e f => e.name < f.name) :
    n ∈ (merge o selected names).map (·.name) ↔ n ∈ selected.map (·.name) ∨ n ∈ names := by
  rw [List.mem_map, List.mem_map]
  constructor
  · rintro ⟨e, he, rfl⟩
    rcases (mem_merge hs).mp he with he | ⟨-, hn, -⟩
    · exact Or.inl ⟨e, he, rfl⟩
    · exact Or.inr hn
  · intro hn
    by_cases hsel : ∃ e ∈ selected, e.name = n
    · obtain ⟨e, he, rfl⟩ := hsel
      exact ⟨e, (mem_merge hs).mpr (Or.inl he), rfl⟩
    · refine ⟨⟨n, hostOrigin o n⟩, (mem_merge hs).mpr (Or.inr ⟨?_, hn.resolve_left hsel, rfl⟩), rfl⟩
      exact fun f hf hfn => hsel ⟨f, hf, hfn⟩

/-- The class path shows the entries whose names begin like the package. -/
theorem mem_shown_classPath :
    n ∈ v.shown ⟨.classPath, package, recursive⟩ j ↔
      v.entries.contains n = true ∧ Shows (packageBeginning package) recursive n := by
  obtain ⟨_, hj⟩ := answer_classPath (v := v) (q := ⟨.classPath, package, recursive⟩) (j := j) rfl
  rw [shown, hj, mem_names_select]

theorem pairwise_shown_classPath :
    (v.shown ⟨.classPath, package, recursive⟩ j).Pairwise (· < ·) := by
  obtain ⟨_, hj⟩ := answer_classPath (v := v) (q := ⟨.classPath, package, recursive⟩) (j := j) rfl
  rw [shown, hj]
  exact List.pairwise_map.mpr (pairwise_select _ _ _ _)

/-- The modules show the names on the class path and those of the host. -/
theorem mem_shown_modules (ho : v.options.useHostSystemTypes = false) :
    n ∈ v.shown ⟨.hostSystemModules, package, recursive⟩ j ↔
      n ∈ v.shown ⟨.classPath, package, recursive⟩ k ∨ n ∈ v.host.types package recursive := by
  obtain ⟨_, hj⟩ := answer_hostSystemModules
    (q := ⟨.hostSystemModules, package, recursive⟩) (j := j) ho rfl
  rw [shown, hj, mem_names_merge (pairwise_select _ _ _ _), mem_names_select, mem_shown_classPath]

theorem pairwise_shown_modules (ho : v.options.useHostSystemTypes = false) :
    (v.shown ⟨.hostSystemModules, package, recursive⟩ j).Pairwise (· < ·) := by
  obtain ⟨_, hj⟩ := answer_hostSystemModules
    (q := ⟨.hostSystemModules, package, recursive⟩) (j := j) ho rfl
  rw [shown, hj]
  exact List.pairwise_map.mpr (pairwise_merge _ _ _)

theorem contains_absorb {names : List TypeName} :
    (v.absorb names).entries.contains n = true ↔ n ∈ names ∨ v.entries.contains n = true := by
  unfold SortedMap.contains
  rw [find?_absorb]
  by_cases hn : n ∈ names
  · simp [hn]
  · simp [hn]

/-- **Two ways, one listing**: types that are shown wherever they are looked for are listed among
the modules as they are on the class path once they have been taken over. -/
theorem shown_modules_eq (ho : v.options.useHostSystemTypes = false)
    (hshow : ∀ n ∈ v.host.types package recursive, Shows (packageBeginning package) recursive n) :
    v.shown ⟨.hostSystemModules, package, recursive⟩ j =
      (v.absorb (v.host.types package recursive)).shown ⟨.classPath, package, recursive⟩ k := by
  refine SortedSet.eq_of_ascending (pairwise_shown_modules ho) pairwise_shown_classPath fun n => ?_
  rw [mem_shown_modules ho (k := j), mem_shown_classPath, mem_shown_classPath, contains_absorb,
    or_and_right, or_comm, and_iff_left_of_imp (hshow n)]

end Shown

/-! ## A host in the place of a provider -/

/-- What a view shows and keeps when the types of its host are served like names of the class
path. All of it is said for every package, with and without what lies below it. -/
structure Substitutes (h : Host) (o : Options) (v : View) : Prop where
  /-- The names among the modules are in order. -/
  ascending : ∀ package recursive j,
    (v.shown ⟨.hostSystemModules, package, recursive⟩ j).Pairwise (· < ·)
  /-- They are those on the class path and the host's. -/
  union : ∀ package recursive j j' n, n ∈ v.shown ⟨.hostSystemModules, package, recursive⟩ j ↔
    n ∈ v.shown ⟨.classPath, package, recursive⟩ j' ∨ n ∈ h.types package recursive
  /-- The class path shows the same once the platform has been asked. -/
  agree : ∀ package recursive j j' j'', v.shown ⟨.hostSystemModules, package, recursive⟩ j =
    (v.next ⟨.hostPlatformClassPath, package, recursive⟩ j').shown
      ⟨.classPath, package, recursive⟩ j''
  /-- The platform itself lists nothing. -/
  silent : ∀ package recursive j,
    (v.answer ⟨.hostPlatformClassPath, package, recursive⟩ j).1.1 = []
  /-- What it leaves behind are just the types of the host. -/
  absorbs : ∀ package recursive j n,
    (v.next ⟨.hostPlatformClassPath, package, recursive⟩ j).originOf n =
      if n ∈ h.types package recursive then some (hostOrigin o n) else v.originOf n
  /-- Asking again changes nothing. -/
  again : ∀ package recursive j j',
    (v.next ⟨.hostPlatformClassPath, package, recursive⟩ j).next
        ⟨.hostPlatformClassPath, package, recursive⟩ j' =
      v.next ⟨.hostPlatformClassPath, package, recursive⟩ j
  /-- It does not matter what is asked first. -/
  commute : ∀ package recursive package' recursive' j₁ j₂ j₁' j₂',
    (v.next ⟨.hostPlatformClassPath, package, recursive⟩ j₁).next
        ⟨.hostPlatformClassPath, package', recursive'⟩ j₂ =
      (v.next ⟨.hostPlatformClassPath, package', recursive'⟩ j₁').next
        ⟨.hostPlatformClassPath, package, recursive⟩ j₂'
  /-- Other queries leave the view alone. -/
  keeps : ∀ q, q.location ≠ .hostPlatformClassPath → ∀ j, v.next q j = v

theorem next_next (ho : v.options.useHostSystemTypes = false) (package package' : String)
    (recursive recursive' : Bool) (j j' : Journal) :
    (v.next ⟨.hostPlatformClassPath, package, recursive⟩ j).next
        ⟨.hostPlatformClassPath, package', recursive'⟩ j' =
      v.absorb (v.host.types package recursive ++ v.host.types package' recursive') := by
  obtain ⟨hopt, hhost⟩ := options_host_next v ⟨.hostPlatformClassPath, package, recursive⟩ j
  rw [next_platform (hopt ▸ ho), hhost, next_platform ho, absorb_absorb]

theorem substitutes_ofNames {names : List TypeName} {resources : List String}
    (ho : v.options.useHostSystemTypes = false) (hopt : v.options = o)
    (hh : v.host = .ofNames names resources) : Substitutes (.ofNames names resources) o v := by
  have hshow : ∀ package recursive, ∀ n ∈ v.host.types package recursive,
      Shows (packageBeginning package) recursive n := by
    intro package recursive n hn
    rw [hh, Host.mem_types_ofNames] at hn
    exact (inPackage_iff.mp hn.2).1
  rw [← hopt, ← hh]
  exact {
    ascending _ _ _ := pairwise_shown_modules ho
    union _ _ _ _ _ := mem_shown_modules ho
    agree package recursive _ _ _ := by
      rw [next_platform ho]
      exact shown_modules_eq ho (hshow package recursive)
    silent _ _ _ := answer_hostPlatformClassPath ho rfl
    absorbs _ _ _ n := by
      rw [next_platform ho]
      exact find?_absorb _ n
    again _ _ _ _ := by
      rw [next_next ho, next_platform ho]
      exact absorb_congr fun n => by rw [List.mem_append, or_self]
    commute _ _ _ _ _ _ _ _ := by
      rw [next_next ho, next_next ho]
      exact absorb_congr fun n => by rw [List.mem_append, List.mem_append, or_comm]
    keeps _ hq j := next_of_ne ho hq j }

/-- **The two ways agree.** Whatever has been asked before, a view that does not leave the types of
a host with fixed names to the host lists the same names among the modules and, after they have been
taken over, on the class path; taking over types can be repeated and exchanged, and no other query
changes the view. A view that leaves its types to the host is changed by no query. -/
theorem host_substituted (closure : ClosureSet) (listing : List String) (names : List TypeName)
    (resources : List String) (o : Options) (past : List Query) (j : Journal) :
    (o.useHostSystemTypes = false → Substitutes (.ofNames names resources) o
      (reached closure listing (.ofNames names resources) o past j).1) ∧
    (o.useHostSystemTypes = true → ∀ (h : Host) (q : Query) (j' : Journal),
      (reached closure listing h o past j).1.next q j' =
        (reached closure listing h o past j).1) := by
  constructor
  · intro ho
    obtain ⟨hopt, hhost⟩ := options_host_reached (h := .ofNames names resources) (o := o) closure
      listing past j
    exact substitutes_ofNames (by rw [hopt, ho]) hopt hhost
  · intro ho h q j'
    obtain ⟨hopt, -⟩ := options_host_reached (h := h) (o := o) closure listing past j
    exact next_of_served (by rw [hopt, ho]) q j'

/-- A package of the closure, the listing and the host, after part of the host was taken over. -/
theorem host_substituted_java_lang :
    let host := Host.ofNames [.rootObject, ⟨"java.lang.String"⟩, ⟨"java.util.List"⟩] []
    let v : View := (reached (.ofList [⟨"java.lang.Thing"⟩]) ["java.lang.String"] host
      { useHostSystemTypes := false } [⟨.hostPlatformClassPath, "java.util", true⟩] {}).1
    v.shown ⟨.hostSystemModules, "java.lang", false⟩ {} =
      [.rootObject, ⟨"java.lang.String"⟩, ⟨"java.lang.Thing"⟩] ∧
    v.shown ⟨.hostSystemModules, "java.lang", false⟩ {} =
      (v.next ⟨.hostPlatformClassPath, "java.lang", false⟩ {}).shown
        ⟨.classPath, "java.lang", false⟩ {} ∧
    Substitutes host { useHostSystemTypes := false } v ∧
    (reached ∅ ["a.B"] host {} [] {}).1.next ⟨.hostPlatformClassPath, "", true⟩ {} =
      (reached ∅ ["a.B"] host {} [] {}).1 := by
  intro host v
  have hv := (host_substituted (.ofList [⟨"java.lang.Thing"⟩]) ["java.lang.String"]
    [.rootObject, ⟨"java.lang.String"⟩, ⟨"java.util.List"⟩] [] { useHostSystemTypes := false }
    [⟨.hostPlatformClassPath, "java.util", true⟩] {}).1 rfl
  exact ⟨by decide +kernel, hv.agree _ _ _ _ _, hv,
    (host_substituted ∅ ["a.B"] [] [] {} [] {}).2 rfl _ _ _⟩

end VirtualClasspath.View
