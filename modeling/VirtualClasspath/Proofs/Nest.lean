import Mathlib.Logic.Relation
import VirtualClasspath.ClassFile.Nesting
import VirtualClasspath.Proofs.Provider

/-!
# Nest groups from a steady provider

With a steady provider, the nest group of a class is a function of the class: `groupOf_fst` says
that the journal has no part in it. `climb_next` and `descend_cons` state one step of each walk.

What the steps of a walk inward keep is `KeptInward`, and `KeptInward.descend_cases` says that it
holds where the walk ends. So `mem_descend` says what a walk inward comes to: every name that lies in
the names it started from, by any number of steps to a directly nested class. Of the members of a
group, the last section has those that are clear from the class itself.
-/

namespace VirtualClasspath.Nest

variable {p : Provider}

/-! ## One step of a walk -/

theorem climb_next {a : Ascent} {n : TypeName} (hn : a.classes.contains n = false) (j : Journal) :
    climb p a (some n) j =
      match findClass p n j with
      | (.error e, j) => (.error e, j)
      | (.ok none, j) => (.error (.missing n), j)
      | (.ok (some c), j) => climb p ⟨n, a.classes.insert n c⟩ c.outerOf j := by
  rw [climb, dif_neg (by rw [hn]; exact Bool.false_ne_true)]
  split <;> rename_i hf <;> rw [hf]

theorem descend_cons (known : SortedMap TypeName ClassFile) (group : SortedSet TypeName)
    (current : TypeName) (rest : List TypeName) (j : Journal) :
    descend p known group (current :: rest) j =
      match classFor p known current j with
      | (.error e, j) => (.error e, j)
      | (.ok none, j) => descend p known group rest j
      | (.ok (some c), j) =>
        descend p known (join group (freshNested c group)) (rest ++ freshNested c group) j := by
  rw [descend]
  split <;> rename_i hf <;> rw [hf]

theorem parseBlob_of_parse {b : Blob} {c : ClassFile} (hc : ClassFile.parse b.bytes = .ok c) :
    parseBlob b = .ok c := by
  unfold parseBlob
  rw [hc]
  rfl

/-- The search from a class that can be read: outward, then inward from where that ends. -/
theorem groupOf_read {start : Blob} {c : ClassFile} (hc : parseBlob start = .ok c) :
    groupOf p start =
      climb p ⟨start.name, (∅ : SortedMap TypeName ClassFile).insert start.name c⟩ c.outerOf >>=
        fun
          | .error e => pure (.error e)
          | .ok a => descend p a.classes (join ∅ [a.top]) [a.top] := by
  funext j
  unfold groupOf
  rw [hc, bind_run]
  dsimp only
  split
  · rename_i hf
    rw [hf]
    rfl
  · rename_i hf
    rw [hf]

theorem groupOf_broken {start : Blob} {e : Error} (hc : parseBlob start = .error e) :
    groupOf p start = pure (.error e) := by
  funext j
  unfold groupOf
  rw [hc]
  rfl

/-! ## The journal has no part in the result -/

/-- The class that a search takes from an answer. -/
def firstClass : List Blob → Except Error (Option ClassFile)
  | [] => .ok none
  | b :: _ => (parseBlob b).map some

theorem firstClass_of_parse {b : Blob} {bs : List Blob} {c : ClassFile}
    (hc : ClassFile.parse b.bytes = .ok c) : firstClass (b :: bs) = .ok (some c) := by
  rw [firstClass, parseBlob_of_parse hc]
  rfl

theorem firstClass_ne_error {bs : List Blob} (h : ∀ b ∈ bs, ∃ c, ClassFile.parse b.bytes = .ok c)
    (e : Error) : firstClass bs ≠ .error e := by
  intro herror
  cases bs with
  | nil => cases herror
  | cons b bs =>
    obtain ⟨c, hc⟩ := h b List.mem_cons_self
    rw [firstClass_of_parse hc] at herror
    cases herror

theorem findClass_fst (n : TypeName) (j : Journal) :
    (findClass p n j).1 = firstClass (p.fetch n j).1 := by
  unfold findClass
  split <;> rename_i hf <;> rw [hf] <;> rfl

theorem findClass_run (n : TypeName) :
    findClass p n = (do return firstClass (← p.fetch n) : Session _) := by
  funext j
  refine Prod.ext (findClass_fst n j) ?_
  unfold findClass
  rw [bind_run]
  split <;> rename_i hf <;> rw [hf] <;> rfl

theorem findClass_ofMap (m : ClassMap) (n : TypeName) (j : Journal) :
    (findClass (.ofMap m) n j).1 =
      match m.classes.find? n with
      | none => .ok none
      | some bytes => (parseBlob ⟨n, bytes⟩).map some := by
  rw [findClass_fst, (Provider.steady_ofMap m).fetch_fst, Provider.served_ofMap]
  cases m.classes.find? n <;> rfl

/-- Where every class of a map can be read, no search for a class meets an error. -/
theorem findClass_ofMap_ne_error {m : ClassMap}
    (h : ∀ e ∈ m.classes.toList, ∃ c, ClassFile.parse e.2 = .ok c) (n : TypeName) (j : Journal)
    (e : Error) : (findClass (.ofMap m) n j).1 ≠ .error e := by
  rw [findClass_fst, (Provider.steady_ofMap m).fetch_fst]
  refine firstClass_ne_error (fun b hb => ?_) e
  obtain ⟨rfl, hfind⟩ := Provider.mem_served_ofMap.mp hb
  exact h (b.name, b.bytes) (SortedMap.mem_toList_iff.mpr hfind)

theorem findClass_again (h : p.Steady) {n : TypeName} {j j₁ : Journal}
    {r : Except Error (Option ClassFile)} (hf : findClass p n j = (r, j₁)) (j' : Journal) :
    ∃ j₂, findClass p n j' = (r, j₂) := by
  refine ⟨(findClass p n j').2, Prod.ext ?_ rfl⟩
  have hr := findClass_fst (p := p) n j
  rw [h.fetch_fst, ← h.fetch_fst n j', ← findClass_fst, hf] at hr
  exact hr.symm

theorem classFor_again (h : p.Steady) {known : SortedMap TypeName ClassFile} {n : TypeName}
    {j j₁ : Journal} {r : Except Error (Option ClassFile)}
    (hf : classFor p known n j = (r, j₁)) (j' : Journal) :
    ∃ j₂, classFor p known n j' = (r, j₂) := by
  unfold classFor at hf ⊢
  split
  · rename_i hk
    rw [hk] at hf
    exact ⟨j', by rw [← (Prod.mk.inj hf).1]⟩
  · rename_i hk
    rw [hk] at hf
    exact findClass_again h hf j'

theorem climb_fst (h : p.Steady) (a : Ascent) (outer : Option TypeName) (j j' : Journal) :
    (climb p a outer j).1 = (climb p a outer j').1 := by
  fun_induction climb p a outer j generalizing j' with
  | case1 => rw [climb]
  | case2 a j n hs => rw [climb, dif_pos hs]
  | case3 a j n hs e j₁ hf =>
    obtain ⟨j₂, hf'⟩ := findClass_again h hf j'
    rw [climb_next (by simpa using hs), hf']
  | case4 a j n hs j₁ hf =>
    obtain ⟨j₂, hf'⟩ := findClass_again h hf j'
    rw [climb_next (by simpa using hs), hf']
  | case5 a j n hs c j₁ hf ih =>
    obtain ⟨j₂, hf'⟩ := findClass_again h hf j'
    rw [climb_next (by simpa using hs), hf']
    exact ih j₂

theorem descend_fst (h : p.Steady) (known : SortedMap TypeName ClassFile)
    (group : SortedSet TypeName) (queue : List TypeName) (j j' : Journal) :
    (descend p known group queue j).1 = (descend p known group queue j').1 := by
  fun_induction descend p known group queue j generalizing j' with
  | case1 => rw [descend]
  | case2 group j n rest e j₁ hf =>
    obtain ⟨j₂, hf'⟩ := classFor_again h hf j'
    rw [descend_cons, hf']
  | case3 group j n rest j₁ hf ih =>
    obtain ⟨j₂, hf'⟩ := classFor_again h hf j'
    rw [descend_cons, hf']
    exact ih j₂
  | case4 group j n rest c j₁ hf fresh ih =>
    obtain ⟨j₂, hf'⟩ := classFor_again h hf j'
    rw [descend_cons, hf']
    exact ih j₂

/-- **The nest group does not depend on the journal.** -/
theorem groupOf_fst (h : p.Steady) (start : Blob) (j j' : Journal) :
    (groupOf p start j).1 = (groupOf p start j').1 := by
  unfold groupOf
  split
  · rfl
  · rename_i c _
    have hv := climb_fst h ⟨start.name, (∅ : SortedMap TypeName ClassFile).insert start.name c⟩
      c.outerOf j j'
    generalize climb p _ c.outerOf j = r at hv
    generalize climb p _ c.outerOf j' = r' at hv
    obtain ⟨a, j₁⟩ := r
    obtain ⟨a', j₂⟩ := r'
    cases hv
    cases a with
    | error e => rfl
    | ok a => exact descend_fst h _ _ _ _ _

/-! ## What a walk inward comes to -/

theorem mem_join {group : SortedSet TypeName} {names : List TypeName} {n : TypeName} :
    n ∈ join group names ↔ n ∈ group ∨ n ∈ names :=
  SortedSet.mem_foldl_insert

/-- The group that a walk inward starts with. -/
theorem mem_join_one {o n : TypeName} : n ∈ join ∅ [o] ↔ n = o := by
  rw [mem_join, List.mem_singleton]
  exact ⟨fun h => h.resolve_left SortedSet.not_mem_empty, Or.inr⟩

theorem mem_freshNested {c : ClassFile} {group : SortedSet TypeName} {n : TypeName} :
    n ∈ freshNested c group ↔ n ∈ c.directNested ∧ n ∉ group := by
  unfold freshNested
  rw [List.mem_filter, decide_eq_true_iff]
  rfl

/-- What a steady provider has under a name. -/
def classOf (p : Provider) (n : TypeName) : Except Error (Option ClassFile) :=
  firstClass (p.served n)

theorem findClass_eq_classOf (h : p.Steady) (n : TypeName) (j : Journal) :
    (findClass p n j).1 = classOf p n := by
  rw [findClass_fst, h.fetch_fst]
  rfl

/-- A class that was read before is the one that the provider has. -/
theorem classFor_eq_classOf (h : p.Steady) {known : SortedMap TypeName ClassFile}
    (hknown : ∀ n c, known.find? n = some c → classOf p n = .ok (some c)) (n : TypeName)
    (j : Journal) : (classFor p known n j).1 = classOf p n := by
  unfold classFor
  split
  · rename_i c hc
    exact (hknown n c hc).symm
  · exact findClass_eq_classOf h n j

section Inward

variable {classes : TypeName → Except Error (Option ClassFile)}

/-- `n` is directly nested in the class under `o`; `classes` says what there is under a name. -/
def DirectlyNested (classes : TypeName → Except Error (Option ClassFile)) (o n : TypeName) : Prop :=
  ∃ c, classes o = .ok (some c) ∧ n ∈ c.directNested

/-- `n` lies in `o`: it is `o`, or is reached by steps to a directly nested class. -/
def LiesIn (classes : TypeName → Except Error (Option ClassFile)) (o n : TypeName) : Prop :=
  Relation.ReflTransGen (DirectlyNested classes) o n

/-- How far a walk inward has come: the queue holds members of the group, and what is directly
nested in a member that is not in the queue is in the group. -/
structure Swept (classes : TypeName → Except Error (Option ClassFile))
    (group : SortedSet TypeName) (queue : List TypeName) : Prop where
  queued : ∀ n ∈ queue, n ∈ group
  closed : ∀ n ∈ group, n ∈ queue ∨ ∀ m, DirectlyNested classes n m → m ∈ group

namespace Swept

variable {group : SortedSet TypeName} {queue rest : List TypeName} {current : TypeName}
  {c : ClassFile}

/-- A walk inward starts with one name. -/
theorem one (o : TypeName) : Swept classes (join ∅ [o]) [o] where
  queued _ hn := mem_join_one.mpr (List.mem_singleton.mp hn)
  closed _ hn := Or.inl (List.mem_singleton.mpr (mem_join_one.mp hn))

/-- Nothing lies in a name without a class. -/
theorem pass (h : Swept classes group (current :: rest)) (hc : classes current = .ok none) :
    Swept classes group rest where
  queued n hn := h.queued n (List.mem_cons_of_mem _ hn)
  closed n hn := by
    rcases h.closed n hn with hq | hall
    · rcases List.mem_cons.mp hq with rfl | hq
      · refine Or.inr fun m ⟨c, hc', _⟩ => ?_
        rw [hc] at hc'
        cases hc'
      · exact Or.inl hq
    · exact Or.inr hall

/-- What is directly nested in a class joins the group, and the queue if it is new. -/
theorem expand (h : Swept classes group (current :: rest)) (hc : classes current = .ok (some c)) :
    Swept classes (join group (freshNested c group)) (rest ++ freshNested c group) where
  queued n hn := by
    rw [mem_join]
    exact (List.mem_append.mp hn).imp_left fun hn => h.queued n (List.mem_cons_of_mem _ hn)
  closed n hn := by
    rcases mem_join.mp hn with hn | hn
    · rcases h.closed n hn with hq | hall
      · rcases List.mem_cons.mp hq with rfl | hq
        · refine Or.inr fun m ⟨d, hd, hm⟩ => ?_
          cases hc.symm.trans hd
          by_cases hg : m ∈ group
          · exact mem_join.mpr (Or.inl hg)
          · exact mem_join.mpr (Or.inr (mem_freshNested.mpr ⟨hm, hg⟩))
        · exact Or.inl (List.mem_append_left _ hq)
      · exact Or.inr fun m hm => mem_join.mpr (Or.inl (hall m hm))
    · exact Or.inl (List.mem_append_right _ hn)

/-- When the queue is empty, all that lies in a member is a member. -/
theorem mem_of_liesIn (h : Swept classes group []) {o n : TypeName} (ho : o ∈ group)
    (hn : LiesIn classes o n) : n ∈ group := by
  induction hn with
  | refl => exact ho
  | tail _ hm ih => exact (h.closed _ ih).resolve_left List.not_mem_nil _ hm

end Swept

/-- What each step of a walk inward keeps, of the group and the queue: a name without a class leaves
the queue, and what is new in a class joins both. -/
structure KeptInward (classes : TypeName → Except Error (Option ClassFile))
    (I : SortedSet TypeName → List TypeName → Prop) : Prop where
  pass : ∀ {group current rest}, I group (current :: rest) → classes current = .ok none →
    I group rest
  expand : ∀ {group current rest c}, I group (current :: rest) → classes current = .ok (some c) →
    I (join group (freshNested c group)) (rest ++ freshNested c group)

section Walk

variable {known : SortedMap TypeName ClassFile} {group r : SortedSet TypeName}
  {queue : List TypeName} {I : SortedSet TypeName → List TypeName → Prop}
  (hclasses : ∀ n j, (classFor p known n j).1 = classes n)

include hclasses

theorem eq_of_classFor {found : Except Error (Option ClassFile)} {n : TypeName} {j j' : Journal}
    (hf : classFor p known n j = (found, j')) : classes n = found := by
  rw [← hclasses n j, hf]

/-- **What each step keeps holds where a walk inward ends**: with an empty queue, or with a class in
front of it that cannot be read. -/
theorem KeptInward.descend_cases (hI : KeptInward classes I) {g : SortedSet TypeName}
    (h : I g queue) (j : Journal) :
    (∃ r, (descend p known g queue j).1 = .ok r ∧ I r []) ∨
      ∃ e g' current rest, (descend p known g queue j).1 = .error e ∧
        I g' (current :: rest) ∧ classes current = .error e := by
  fun_induction descend p known g queue j with
  | case1 group j => exact Or.inl ⟨group, rfl, h⟩
  | case2 group j current rest e j₁ hf =>
    exact Or.inr ⟨e, group, current, rest, rfl, h, eq_of_classFor hclasses hf⟩
  | case3 group j current rest j₁ hf ih => exact ih (hI.pass h (eq_of_classFor hclasses hf))
  | case4 group j current rest c j₁ hf fresh ih =>
    exact ih (hI.expand h (eq_of_classFor hclasses hf))

/-- **A walk inward comes to what lies in the group that it started with.** -/
theorem mem_descend {j : Journal} (h : Swept classes group queue)
    (hr : (descend p known group queue j).1 = .ok r) {n : TypeName} :
    n ∈ r ↔ ∃ o ∈ group, LiesIn classes o n := by
  have hkept : KeptInward classes fun g q => Swept classes g q ∧ (∀ o ∈ group, o ∈ g) ∧
      ∀ n ∈ g, ∃ o ∈ group, LiesIn classes o n := by
    constructor
    · rintro g current rest ⟨hs, hsub, hlies⟩ hc
      exact ⟨hs.pass hc, hsub, hlies⟩
    · rintro g current rest c ⟨hs, hsub, hlies⟩ hc
      refine ⟨hs.expand hc, fun o ho => mem_join.mpr (Or.inl (hsub o ho)), fun n hn => ?_⟩
      rcases mem_join.mp hn with hn | hn
      · exact hlies n hn
      · obtain ⟨o, ho, hcurrent⟩ := hlies current (hs.queued _ List.mem_cons_self)
        exact ⟨o, ho, hcurrent.tail ⟨c, hc, (mem_freshNested.mp hn).1⟩⟩
  rcases hkept.descend_cases hclasses ⟨h, fun o ho => ho, fun n hn => ⟨n, hn, .refl⟩⟩ j with
    ⟨r', hr', hs, hsub, hlies⟩ | ⟨e, _, _, _, herror, -⟩
  · cases hr.symm.trans hr'
    exact ⟨hlies n, fun ⟨o, ho, hn⟩ => hs.mem_of_liesIn (hsub o ho) hn⟩
  · cases hr.symm.trans herror

end Walk

end Inward

/-! ## What a nest group holds -/

/-- A walk inward keeps what it has come to. -/
theorem subset_of_descend {known : SortedMap TypeName ClassFile} {group r : SortedSet TypeName}
    {queue : List TypeName} {j : Journal} (hr : (descend p known group queue j).1 = .ok r) :
    ∀ n ∈ group, n ∈ r := by
  fun_induction descend p known group queue j with
  | case1 =>
    cases hr
    exact fun n hn => hn
  | case2 => cases hr
  | case3 group j current rest j₁ hf ih => exact ih hr
  | case4 group j current rest c j₁ hf fresh ih =>
    exact fun n hn => ih hr n (mem_join.mpr (Or.inl hn))

/-- A walk inward ends well if every class can be read. -/
theorem descend_ok (h : ∀ n j e, (findClass p n j).1 ≠ .error e)
    (known : SortedMap TypeName ClassFile) (group : SortedSet TypeName) (queue : List TypeName)
    (j : Journal) : ∃ r, (descend p known group queue j).1 = .ok r := by
  fun_induction descend p known group queue j with
  | case1 group j => exact ⟨group, rfl⟩
  | case2 group j n rest e j₁ hf =>
    unfold classFor at hf
    split at hf
    · cases hf
    · exact absurd (congrArg Prod.fst hf) (h n j e)
  | case3 group j n rest j₁ hf ih => exact ih
  | case4 group j n rest c j₁ hf fresh ih => exact ih

/-- The nest group of a class without an enclosing class: a walk inward from it that has come to the
classes directly nested in it. -/
theorem groupOf_outermost {b : Blob} {c : ClassFile}
    (hc : ClassFile.parse b.bytes = .ok c) (ho : c.outerOf = none) (j : Journal) :
    groupOf p b j = descend p ((∅ : SortedMap TypeName ClassFile).insert b.name c)
      (join (join ∅ [b.name]) (freshNested c (join ∅ [b.name])))
      (freshNested c (join ∅ [b.name])) j := by
  have hparse : parseBlob b = .ok c := parseBlob_of_parse hc
  have hknown : classFor p ((∅ : SortedMap TypeName ClassFile).insert b.name c) b.name j =
      (.ok (some c), j) := by
    unfold classFor
    rw [SortedMap.find?_insert, if_pos rfl]
  simp only [groupOf, hparse, ho, climb]
  rw [descend_cons, hknown]
  rfl

/-- The class is a member with the classes directly nested in it. -/
theorem mem_groupOf_outermost (h : ∀ n j e, (findClass p n j).1 ≠ .error e) {b : Blob}
    {c : ClassFile} (hc : ClassFile.parse b.bytes = .ok c) (ho : c.outerOf = none) (j : Journal) :
    ∃ r, (groupOf p b j).1 = .ok r ∧ b.name ∈ r ∧ ∀ n ∈ c.directNested, n ∈ r := by
  rw [groupOf_outermost hc ho]
  obtain ⟨r, hr⟩ := descend_ok h ((∅ : SortedMap TypeName ClassFile).insert b.name c)
    (join (join ∅ [b.name]) (freshNested c (join ∅ [b.name])))
    (freshNested c (join ∅ [b.name])) j
  have hsub := subset_of_descend hr
  have hself : b.name ∈ join ∅ [b.name] := SortedSet.mem_insert.mpr (Or.inl rfl)
  refine ⟨r, hr, hsub _ (mem_join.mpr (Or.inl hself)),
    fun n hn => hsub n (mem_join.mpr ?_)⟩
  by_cases hmem : n ∈ join ∅ [b.name]
  · exact Or.inl hmem
  · exact Or.inr (List.mem_filter.mpr ⟨hn, decide_eq_true hmem⟩)

/-- A class without an enclosing class and without nested ones is alone in its nest group. -/
theorem groupOf_alone {b : Blob} {c : ClassFile}
    (hc : ClassFile.parse b.bytes = .ok c) (ho : c.outerOf = none) (hn : c.directNested = ∅)
    (j : Journal) : (groupOf p b j).1 = .ok (join ∅ [b.name]) := by
  have hfresh : freshNested c (join ∅ [b.name]) = [] := by
    unfold freshNested
    rw [hn]
    rfl
  rw [groupOf_outermost hc ho, hfresh, descend]
  rfl

end VirtualClasspath.Nest
