import VirtualClasspath.ClassFile.Basic
import VirtualClasspath.Provider

/-!
# How classes nest

The table of nested classes says, for each class that it lists, which class it is a member of; local
and anonymous classes are listed without one. `outerOf` goes one step out, `directNested` one step
in.

The nest group of a class is the outermost class around it together with everything nested in that,
as far as the provider supplies it. `Nest.climb` walks outward until a class has no enclosing class,
or one that was met before; `Nest.descend` walks inward, breadth first. A class that was read on the
way out is not asked for again on the way in.

A class around the start that the provider does not supply is an error; a nested class that it does
not supply is a member of the group all the same. Both walks end because the provider supplies
finitely many names.

`outerOf`, `directNested` and `Nest.groupOf` are `outer_of`, `direct_nested_of` and `full_nest_group`
of section 4.2 of the specification, the last one as the two walks that it consists of. The walk
inward could let go of a class once its turn is over; here the class stays known, and no name has a
second turn.
-/

namespace VirtualClasspath

namespace ClassFile

/-- The class that directly encloses `c`: the one that its entry in the table names, or else the
class that it is declared in. -/
def outerOf (c : ClassFile) : Option TypeName :=
  let entry := c.innerClasses.find? fun e => e.inner = c.thisClass && e.outer.isSome
  ((entry.bind (·.outer)).or c.enclosingClass).map .ofInternal

/-- Whether an entry of the table of `c` is a class directly nested in `c`: a member that names `c`
as its class, or a local class named after `c` with one more segment. -/
def isDirectNested (c : ClassFile) (e : InnerClass) : Bool :=
  e.inner ≠ c.thisClass &&
    match e.outer with
    | some outer => outer = c.thisClass
    | none =>
      match Text.after? (c.thisClass.toList ++ ['$']) e.inner.toList with
      | some suffix => !suffix.isEmpty && !suffix.contains '$'
      | none => false

/-- The classes directly nested in `c`. -/
def directNested (c : ClassFile) : SortedSet TypeName :=
  .ofList ((c.innerClasses.filter c.isDirectNested).map fun e => .ofInternal e.inner)

end ClassFile

namespace Nest

/-- Why a nest group cannot be found. -/
inductive Error
  | missing (name : TypeName)
  | malformed (name : TypeName) (fault : ClassFile.Fault)
  deriving DecidableEq

/-- The wording of an error. -/
def Error.message : Error → String
  | missing name => "no bytecode available for " ++ name.text
  | malformed name fault => "malformed bytecode for " ++ name.text ++ ": " ++ fault.message

/-- The class that a blob holds. -/
def parseBlob (b : Blob) : Except Error ClassFile :=
  (ClassFile.parse b.bytes).mapError (.malformed b.name)

/-- The class that the provider has under a name: the first that it answers with. -/
def findClass (p : Provider) (name : TypeName) (j : Journal) :
    Except Error (Option ClassFile) × Journal :=
  match p.fetch name j with
  | ([], j) => (.ok none, j)
  | (b :: _, j) => ((parseBlob b).map some, j)

theorem mem_supply_of_findClass {p : Provider} {name : TypeName} {j j' : Journal} {c : ClassFile}
    (h : findClass p name j = (.ok (some c), j')) : name ∈ p.supply := by
  unfold findClass at h
  split at h
  · simp at h
  · rename_i b bs _ hf
    refine Provider.mem_supply_of_fetch (j := j) (b := b) ?_
    rw [hf]
    exact List.mem_cons_self

/-! ## Outward -/

/-- How far a walk outward has come: the outermost class so far, and all classes on the way. -/
structure Ascent where
  top : TypeName
  classes : SortedMap TypeName ClassFile

/-- The names of `l` without a value in `m`. -/
def missingIn (m : SortedMap TypeName ClassFile) (l : List TypeName) : List TypeName :=
  l.filter fun n => !m.contains n

theorem missingIn_insert_lt {m : SortedMap TypeName ClassFile} {l : List TypeName} {n : TypeName}
    {c : ClassFile} (hn : n ∈ l) (hm : m.contains n = false) :
    (missingIn (m.insert n c) l).length < (missingIn m l).length := by
  refine length_filter_lt_of_imp (fun x hx => ?_) hn ?_ ?_
  · unfold SortedMap.contains at hx ⊢
    rw [SortedMap.find?_insert] at hx
    by_cases he : x = n
    · simp [he] at hx
    · simpa [he] using hx
  · simp [SortedMap.contains, SortedMap.find?_insert]
  · simp [hm]

/-- Walks outward from a class with the given enclosing class. -/
def climb (p : Provider) (a : Ascent) (outer : Option TypeName) (j : Journal) :
    Except Error Ascent × Journal :=
  match outer with
  | none => (.ok a, j)
  | some ancestor =>
    if _hs : a.classes.contains ancestor then (.ok a, j)
    else
      match _hf : findClass p ancestor j with
      | (.error e, j) => (.error e, j)
      | (.ok none, j) => (.error (.missing ancestor), j)
      | (.ok (some c), j) => climb p ⟨ancestor, a.classes.insert ancestor c⟩ c.outerOf j
termination_by (missingIn a.classes p.supply).length
decreasing_by exact missingIn_insert_lt (mem_supply_of_findClass _hf) (by simpa using _hs)

/-! ## Inward -/

/-- A class that was read before, or else the one that the provider has. -/
def classFor (p : Provider) (known : SortedMap TypeName ClassFile) (name : TypeName) (j : Journal) :
    Except Error (Option ClassFile) × Journal :=
  match known.find? name with
  | some c => (.ok (some c), j)
  | none => findClass p name j

/-- The names that a walk inward may find a class for. -/
def expandable (p : Provider) (known : SortedMap TypeName ClassFile) : List TypeName :=
  known.keys ++ p.supply

theorem mem_expandable_of_classFor {p : Provider} {known : SortedMap TypeName ClassFile}
    {name : TypeName} {j j' : Journal} {c : ClassFile}
    (h : classFor p known name j = (.ok (some c), j')) : name ∈ expandable p known := by
  unfold classFor at h
  split at h
  · rename_i c' hk
    exact List.mem_append_left _ (SortedMap.mem_keys_iff.mpr (by rw [hk]; rfl))
  · exact List.mem_append_right _ (mem_supply_of_findClass h)

/-- The classes directly nested in `c` that are not in the group yet. -/
def freshNested (c : ClassFile) (group : SortedSet TypeName) : List TypeName :=
  c.directNested.toList.filter fun n => n ∉ group

/-- The group with more members. -/
def join (group : SortedSet TypeName) (names : List TypeName) : SortedSet TypeName :=
  names.foldl SortedSet.insert group

/-- The names of `l` outside a group. -/
def outside (group : SortedSet TypeName) (l : List TypeName) : List TypeName :=
  l.filter fun n => n ∉ group

theorem outside_join_length_le (group : SortedSet TypeName) (names l : List TypeName) :
    (outside (join group names) l).length ≤ (outside group l).length :=
  length_filter_le_of_imp fun _ hx => decide_eq_true fun h =>
    of_decide_eq_true hx (SortedSet.mem_foldl_insert.mpr (Or.inl h))

theorem outside_join_length_lt {group : SortedSet TypeName} {names l : List TypeName} {n : TypeName}
    (hn : n ∈ names) (hl : n ∈ l) (hg : n ∉ group) :
    (outside (join group names) l).length < (outside group l).length :=
  length_filter_lt_of_imp (fun _ hx => decide_eq_true fun h =>
      of_decide_eq_true hx (SortedSet.mem_foldl_insert.mpr (Or.inl h)))
    hl (decide_eq_false fun h => h (SortedSet.mem_foldl_insert.mpr (Or.inr hn))) (decide_eq_true hg)

/-- Walks inward from the names of `queue`, the oldest first; `group` holds every name that was ever
in the queue. -/
def descend (p : Provider) (known : SortedMap TypeName ClassFile) (group : SortedSet TypeName)
    (queue : List TypeName) (j : Journal) : Except Error (SortedSet TypeName) × Journal :=
  match queue with
  | [] => (.ok group, j)
  | current :: rest =>
    match _hf : classFor p known current j with
    | (.error e, j) => (.error e, j)
    | (.ok none, j) => descend p known group rest j
    | (.ok (some c), j) =>
      let fresh := freshNested c group
      descend p known (join group fresh) (rest ++ fresh) j
termination_by
  ((outside group (expandable p known)).length,
    (queue.filter fun n => n ∈ expandable p known).length, queue.length)
decreasing_by
  · refine Prod.Lex.right _ ?_
    by_cases hc : current ∈ expandable p known
    · exact Prod.Lex.left _ _ (by simp [hc])
    · simp only [List.filter_cons, hc, decide_false]
      exact Prod.Lex.right _ (by simp)
  · have hcur := mem_expandable_of_classFor _hf
    by_cases hnew : ∃ n ∈ freshNested c group, n ∈ expandable p known
    · obtain ⟨n, hn, he⟩ := hnew
      exact Prod.Lex.left _ _ (outside_join_length_lt hn he (by simpa using (List.mem_filter.mp hn).2))
    · have hnone : (freshNested c group).filter (fun n => n ∈ expandable p known) = [] :=
        List.filter_eq_nil_iff.mpr fun n hn => by
          simpa using fun he => hnew ⟨n, hn, he⟩
      rcases Nat.lt_or_eq_of_le
        (outside_join_length_le group (freshNested c group) (expandable p known)) with hlt | heq
      · exact Prod.Lex.left _ _ hlt
      · rw [heq]
        refine Prod.Lex.right _ (Prod.Lex.left _ _ ?_)
        simp [List.filter_append, hnone, hcur]

/-! ## Both -/

/-- The nest group of a class. -/
def groupOf (p : Provider) (start : Blob) : Session (Except Error (SortedSet TypeName)) := fun j =>
  match parseBlob start with
  | .error e => (.error e, j)
  | .ok c =>
    match climb p ⟨start.name, (∅ : SortedMap TypeName ClassFile).insert start.name c⟩ c.outerOf j with
    | (.error e, j) => (.error e, j)
    | (.ok a, j) => descend p a.classes (join ∅ [a.top]) [a.top] j

end Nest

end VirtualClasspath
