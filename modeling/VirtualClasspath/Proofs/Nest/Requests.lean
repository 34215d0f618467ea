import VirtualClasspath.Proofs.Nest
import VirtualClasspath.Proofs.Sorted

/-!
# What a search for a nest group asks for

The search is two loops, a walk outward and a walk inward. `Stage` is where it stands between two of
their rounds, and `Stage.next` is one round, with no word about when the loops end. The search comes
to `Stage.ended` all the same, whatever the classes say about each other (`outward_ends`,
`inward_ends`): the provider supplies finitely many names.

On the way inward a round takes a class that was read on the way outward from those at hand, and it
is not at hand any more. Nothing is missed by that: a name enters the queue when it becomes a member
and has its turn once (`Queued`), and the classes at hand are what they were for every name that can
still have its turn (`Keeps`).

A round asks for one class at most. **`groupOf_requests`**: over all rounds no name is asked for
twice, and the name of the class that the search starts from is never asked for. What makes it so is
`Spares`: on the way outward, whatever was asked for is among the classes read; on the way inward it
is at hand, or it is a member that has left the queue.
-/

namespace VirtualClasspath.Nest

/-- Where a search for a nest group stands. -/
inductive Stage
  | outward (a : Ascent) (outer : Option TypeName)
  /-- The classes at hand, the group so far, and the members that have not had their turn. -/
  | inward (left : SortedMap TypeName ClassFile) (group : SortedSet TypeName)
    (queue : List TypeName)
  | ended (result : Except Error (SortedSet TypeName))

namespace Stage

variable {p : Provider} {j : Journal}

/-! ## Rounds -/

/-- The walk inward begins where the walk outward has come to. -/
def turn (a : Ascent) : Stage := .inward a.classes (join ∅ [a.top]) [a.top]

/-- A search begins with reading the class that it starts from. -/
def start (b : Blob) : Stage :=
  match parseBlob b with
  | .error e => .ended (.error e)
  | .ok c => .outward ⟨b.name, (∅ : SortedMap TypeName ClassFile).insert b.name c⟩ c.outerOf

/-- One round of the loop that the search is in. -/
def next (p : Provider) : Stage → Session Stage
  | .outward a none => return turn a
  | .outward a (some n) =>
    if a.classes.contains n then return turn a
    else do
      match ← findClass p n with
      | .error e => return .ended (.error e)
      | .ok none => return .ended (.error (.missing n))
      | .ok (some c) => return .outward ⟨n, a.classes.insert n c⟩ c.outerOf
  | .inward _ group [] => return .ended (.ok group)
  | .inward left group (n :: rest) => do
    match ← classFor p left n with
    | .error e => return .ended (.error e)
    | .ok none => return .inward (left.erase n) group rest
    | .ok (some c) =>
      return .inward (left.erase n) (join group (freshNested c group))
        (rest ++ freshNested c group)
  | .ended result => return .ended result

/-- A number of rounds. -/
def after (p : Provider) : Nat → Stage → Session Stage
  | 0, s => return s
  | k + 1, s => do after p k (← s.next p)

theorem after_succ (k : Nat) (s : Stage) :
    s.after p (k + 1) j = (s.next p j).1.after p k (s.next p j).2 := rfl

theorem after_add (k l : Nat) (s : Stage) :
    s.after p (k + l) j = (s.after p k j).1.after p l (s.after p k j).2 := by
  induction k generalizing s j with
  | zero => rw [Nat.zero_add]; rfl
  | succ k ih => rw [Nat.succ_add, after_succ, ih, after_succ]

/-! ## The queue -/

/-- The queue holds members of the group, each of them once. -/
structure Queued (group : SortedSet TypeName) (queue : List TypeName) : Prop where
  nodup : queue.Nodup
  member : ∀ n ∈ queue, n ∈ group

section Queue

variable {group : SortedSet TypeName} {queue rest : List TypeName} {n m : TypeName}

theorem queued_one (o : TypeName) : Queued (join ∅ [o]) [o] where
  nodup := List.nodup_cons.mpr ⟨List.not_mem_nil, .nil⟩
  member _ hn := mem_join_one.mpr (List.mem_singleton.mp hn)

namespace Queued

theorem pass (h : Queued group (n :: rest)) : Queued group rest where
  nodup := (List.nodup_cons.mp h.nodup).2
  member m hm := h.member m (List.mem_cons_of_mem n hm)

/-- A member has its turn once. -/
theorem popped (h : Queued group (n :: rest)) : n ∈ group ∧ n ∉ rest :=
  ⟨h.member n List.mem_cons_self, (List.nodup_cons.mp h.nodup).1⟩

theorem expand (h : Queued group rest) (c : ClassFile) :
    Queued (join group (freshNested c group)) (rest ++ freshNested c group) where
  nodup := by
    refine List.nodup_append.mpr ⟨h.nodup, c.directNested.nodup_toList.filter _, ?_⟩
    intro m hm m' hm' he
    exact (mem_freshNested.mp hm').2 (he ▸ h.member m hm)
  member m hm := mem_join.mpr ((List.mem_append.mp hm).imp_left (h.member m))

end Queued

/-- A name enters the queue when it becomes a member. -/
theorem popped_expand (c : ClassFile) (hm : m ∈ group ∧ m ∉ rest) :
    m ∈ join group (freshNested c group) ∧ m ∉ rest ++ freshNested c group := by
  refine ⟨mem_join.mpr (Or.inl hm.1), fun hmem => ?_⟩
  rcases List.mem_append.mp hmem with hr | hf
  · exact hm.2 hr
  · exact (mem_freshNested.mp hf).2 hm.1

/-- The classes at hand are the known ones as far as they can be of use. -/
structure Keeps (known left : SortedMap TypeName ClassFile) (group : SortedSet TypeName)
    (queue : List TypeName) : Prop where
  queued : Queued group queue
  same : ∀ n, n ∉ group ∨ n ∈ queue → left.find? n = known.find? n

theorem keeps_one (known : SortedMap TypeName ClassFile) (o : TypeName) :
    Keeps known known (join ∅ [o]) [o] where
  queued := queued_one o
  same _ _ := rfl

namespace Keeps

variable {known left : SortedMap TypeName ClassFile}

theorem pass (h : Keeps known left group (n :: rest)) :
    Keeps known (left.erase n) group rest where
  queued := h.queued.pass
  same m hm := by
    obtain ⟨hgroup, hrest⟩ := h.queued.popped
    have hne : m ≠ n := by
      rintro rfl
      exact hm.elim (fun hout => hout hgroup) hrest
    rw [SortedMap.find?_erase, if_neg hne]
    exact h.same m (hm.imp_right (List.mem_cons_of_mem n))

theorem expand (h : Keeps known left group rest) (c : ClassFile) :
    Keeps known left (join group (freshNested c group)) (rest ++ freshNested c group) where
  queued := h.queued.expand c
  same m hm := by
    refine h.same m ?_
    rcases hm with hout | hm
    · exact Or.inl fun hin => hout (mem_join.mpr (Or.inl hin))
    · rcases List.mem_append.mp hm with hr | hf
      · exact Or.inr hr
      · exact Or.inl (mem_freshNested.mp hf).2

theorem classFor_eq (h : Keeps known left group (n :: rest)) :
    classFor p left n = classFor p known n := by
  funext j
  unfold classFor
  rw [h.same n (Or.inr List.mem_cons_self)]

end Keeps

end Queue

/-! ## The end of the search -/

/-- The walk outward ends, with the outermost class or with an error. -/
theorem outward_ends (a : Ascent) (outer : Option TypeName) (j : Journal) :
    ∃ rounds, (outward a outer).after p rounds j =
      match climb p a outer j with
      | (.error e, j') => (.ended (.error e), j')
      | (.ok b, j') => (turn b, j') := by
  fun_induction climb p a outer j with
  | case1 a j => exact ⟨1, rfl⟩
  | case2 a j n hs => exact ⟨1, by simp only [after_succ, next, hs, if_true]; rfl⟩
  | case3 a j n hs e j₁ hf =>
    exact ⟨1, by simp only [after_succ, next, hs, if_false, bind_run, hf, Bool.false_eq_true]; rfl⟩
  | case4 a j n hs j₁ hf =>
    exact ⟨1, by simp only [after_succ, next, hs, if_false, bind_run, hf, Bool.false_eq_true]; rfl⟩
  | case5 a j n hs c j₁ hf ih =>
    obtain ⟨rounds, hrounds⟩ := ih
    refine ⟨rounds + 1, ?_⟩
    simp only [after_succ, next, hs, if_false, bind_run, hf, Bool.false_eq_true]
    exact hrounds

/-- The walk inward ends, with the group or with an error. -/
theorem inward_ends {known left : SortedMap TypeName ClassFile} {group : SortedSet TypeName}
    {queue : List TypeName} (h : Keeps known left group queue) (j : Journal) :
    ∃ rounds, (inward left group queue).after p rounds j =
      (.ended (descend p known group queue j).1, (descend p known group queue j).2) := by
  fun_induction descend p known group queue j generalizing left with
  | case1 group j => exact ⟨1, rfl⟩
  | case2 group j n rest e j₁ hf =>
    exact ⟨1, by simp only [after_succ, next, bind_run, h.classFor_eq, hf]; rfl⟩
  | case3 group j n rest j₁ hf ih =>
    obtain ⟨rounds, hrounds⟩ := ih h.pass
    refine ⟨rounds + 1, ?_⟩
    simp only [after_succ, next, bind_run, h.classFor_eq, hf]
    exact hrounds
  | case4 group j n rest c j₁ hf fresh =>
    rename_i ih
    obtain ⟨rounds, hrounds⟩ := ih (h.pass.expand c)
    refine ⟨rounds + 1, ?_⟩
    simp only [after_succ, next, bind_run, h.classFor_eq, hf]
    exact hrounds

/-- **The search ends**, with the nest group that it is for. -/
theorem start_ends (b : Blob) (j : Journal) :
    ∃ rounds, (start b).after p rounds j = (.ended (groupOf p b j).1, (groupOf p b j).2) := by
  unfold start
  cases hc : parseBlob b with
  | error e =>
    rw [groupOf_broken hc]
    exact ⟨0, rfl⟩
  | ok c =>
    obtain ⟨out, hout⟩ := outward_ends (p := p)
      ⟨b.name, (∅ : SortedMap TypeName ClassFile).insert b.name c⟩ c.outerOf j
    rw [groupOf_read hc, bind_run]
    generalize climb p _ c.outerOf j = r at hout
    obtain ⟨r, j₁⟩ := r
    cases r with
    | error e => exact ⟨out, hout⟩
    | ok a =>
      obtain ⟨rounds, hin⟩ := inward_ends (p := p) (keeps_one a.classes a.top) j₁
      refine ⟨out + rounds, ?_⟩
      rw [after_add, hout]
      exact hin

/-! ## No name twice -/

/-- No round from this stage on asks for a name of `spared`. -/
def Spares (spared : List TypeName) : Stage → Prop
  | .outward a _ => ∀ n ∈ spared, a.classes.contains n = true
  | .inward left group queue =>
    Queued group queue ∧ ∀ n ∈ spared, left.contains n = true ∨ n ∈ group ∧ n ∉ queue
  | .ended _ => True

section Spares

variable {n : TypeName} {spared : List TypeName}

theorem Spares.mono {s : Stage} {spared' : List TypeName} (h : s.Spares spared')
    (hsub : ∀ m ∈ spared, m ∈ spared') : s.Spares spared := by
  cases s with
  | outward a outer => exact fun m hm => h m (hsub m hm)
  | inward left group queue => exact ⟨h.1, fun m hm => h.2 m (hsub m hm)⟩
  | ended result => trivial

/-- What was read on the way outward is not asked for on the way inward. -/
theorem spares_turn {a : Ascent} {outer : Option TypeName} (h : (outward a outer).Spares spared) :
    (turn a).Spares spared :=
  ⟨queued_one a.top, fun m hm => Or.inl (h m hm)⟩

variable {left : SortedMap TypeName ClassFile} {group : SortedSet TypeName}
  {rest : List TypeName}

theorem spares_pass (h : (inward left group (n :: rest)).Spares spared) :
    (inward (left.erase n) group rest).Spares (spared ++ [n]) := by
  obtain ⟨hqueued, hspared⟩ := h
  refine ⟨hqueued.pass, fun m hm => ?_⟩
  by_cases hmn : m = n
  · rw [hmn]
    exact Or.inr hqueued.popped
  · have hm := (List.mem_append.mp hm).resolve_right (mt List.mem_singleton.mp hmn)
    rcases hspared m hm with hleft | ⟨hgroup, hqueue⟩
    · exact Or.inl (SortedMap.contains_erase.mpr ⟨hmn, hleft⟩)
    · exact Or.inr ⟨hgroup, fun hrest => hqueue (List.mem_cons_of_mem n hrest)⟩

theorem spares_expand (c : ClassFile) (h : (inward left group rest).Spares spared) :
    (inward left (join group (freshNested c group)) (rest ++ freshNested c group)).Spares spared :=
  ⟨h.1.expand c, fun m hm => (h.2 m hm).imp_right (popped_expand c)⟩

end Spares

/-- The search from `first` has come to a stage and asked for `asked` on the way, one name at a
time, none of them twice and none of them `first`. -/
structure Frugal (first : TypeName) (before : Journal) (s : Stage) (j : Journal)
    (asked : List TypeName) : Prop where
  requests : j.requests.toList = before.requests.toList ++ asked.map fun n => [n]
  nodup : (first :: asked).Nodup
  spares : s.Spares (first :: asked)

namespace Frugal

variable {first : TypeName} {before : Journal} {s s' : Stage} {asked : List TypeName} {n : TypeName}

/-- A round that asks for nothing. -/
theorem keep (h : Frugal first before s j asked) (hs : s'.Spares (first :: asked)) :
    Frugal first before s' j asked :=
  ⟨h.requests, h.nodup, hs⟩

/-- A round that asks for a name that was not asked for. -/
theorem ask (h : Frugal first before s j asked) (hn : n ∉ first :: asked)
    (hs : s'.Spares (first :: asked ++ [n])) :
    Frugal first before s' (findClass p n j).2 (asked ++ [n]) where
  requests := by
    rw [findClass_run]
    change (j.requests.push [n]).toList = _
    rw [Array.toList_push, h.requests, List.map_append, List.append_assoc]
    rfl
  nodup := List.nodup_append.mpr
    ⟨h.nodup, List.nodup_cons.mpr ⟨List.not_mem_nil, .nil⟩, fun a ha b hb => by
      rw [List.mem_singleton.mp hb]
      exact fun he => hn (he ▸ ha)⟩
  spares := hs

/-- A walk outward asks for a class that it has not read. -/
theorem next_outward {a : Ascent} (h : Frugal first before (.outward a (some n)) j asked) :
    ∃ asked', Frugal first before (Stage.next p (.outward a (some n)) j).1
      (Stage.next p (.outward a (some n)) j).2 asked' := by
  have hspares := h.spares
  by_cases hs : a.classes.contains n = true
  · simp only [Stage.next, hs, if_true]
    exact ⟨asked, h.keep (spares_turn hspares)⟩
  · have hask : ∀ {s' : Stage}, s'.Spares (first :: asked ++ [n]) →
        Frugal first before s' (findClass p n j).2 (asked ++ [n]) :=
      h.ask fun hn => hs (hspares n hn)
    simp only [Stage.next, hs, if_false, bind_run, Bool.false_eq_true]
    refine ⟨asked ++ [n], ?_⟩
    cases (findClass p n j).1 with
    | error e => exact hask trivial
    | ok found =>
      cases found with
      | none => exact hask trivial
      | some c =>
        refine hask fun m hm => SortedMap.contains_insert.mpr ?_
        exact (List.mem_append.mp hm).symm.imp List.mem_singleton.mp (hspares m)

/-- A walk inward asks for a member that was not read on the way outward. -/
theorem next_inward {left : SortedMap TypeName ClassFile} {group : SortedSet TypeName}
    {rest : List TypeName} (h : Frugal first before (.inward left group (n :: rest)) j asked) :
    ∃ asked', Frugal first before (Stage.next p (.inward left group (n :: rest)) j).1
      (Stage.next p (.inward left group (n :: rest)) j).2 asked' := by
  have hpass := spares_pass h.spares
  cases hleft : left.find? n with
  | some c =>
    simp only [Stage.next, bind_run, classFor, hleft]
    exact ⟨asked, h.keep ((spares_expand c hpass).mono fun m hm => List.mem_append_left _ hm)⟩
  | none =>
    have hn : n ∉ first :: asked := fun hn =>
      (h.spares.2 n hn).elim (SortedMap.not_contains_of_find? hleft)
        fun hpopped => hpopped.2 List.mem_cons_self
    have hask : ∀ {s' : Stage}, s'.Spares (first :: asked ++ [n]) →
        Frugal first before s' (findClass p n j).2 (asked ++ [n]) := h.ask hn
    simp only [Stage.next, bind_run, classFor, hleft]
    refine ⟨asked ++ [n], ?_⟩
    cases (findClass p n j).1 with
    | error e => exact hask trivial
    | ok found =>
      cases found with
      | none => exact hask hpass
      | some c => exact hask (spares_expand c hpass)

/-- **A round keeps a search frugal.** -/
theorem next (h : Frugal first before s j asked) :
    ∃ asked', Frugal first before (s.next p j).1 (s.next p j).2 asked' := by
  cases s with
  | outward a outer =>
    cases outer with
    | none => exact ⟨asked, h.keep (spares_turn h.spares)⟩
    | some n => exact h.next_outward
  | inward known group queue =>
    cases queue with
    | nil => exact ⟨asked, h.keep trivial⟩
    | cons n rest => exact h.next_inward
  | ended result => exact ⟨asked, h.keep trivial⟩

/-- Any number of rounds keeps a search frugal. -/
theorem after (h : Frugal first before s j asked) (k : Nat) :
    ∃ asked', Frugal first before (s.after p k j).1 (s.after p k j).2 asked' := by
  induction k generalizing s j asked with
  | zero => exact ⟨asked, h⟩
  | succ k ih =>
    obtain ⟨asked', h'⟩ := h.next (p := p)
    exact ih h'

end Frugal

theorem frugal_start (b : Blob) (j : Journal) : Frugal b.name j (start b) j [] where
  requests := (List.append_nil _).symm
  nodup := List.nodup_cons.mpr ⟨List.not_mem_nil, .nil⟩
  spares := by
    unfold start
    cases parseBlob b with
    | error e => trivial
    | ok c =>
      exact fun n hn => SortedMap.contains_insert.mpr (Or.inl (List.mem_singleton.mp hn))

end Stage

/-- **A search for a nest group ends and never asks twice.** Whatever classes the provider has, and
whatever they say about what lies in what, a finite number of rounds leads from the class that the
search starts from to its result. The requests on the way are for one name each, all of them for
different names, and none for the name of the class that the search starts from. -/
theorem groupOf_requests (p : Provider) (b : Blob) (j : Journal) :
    (∃ rounds, (Stage.start b).after p rounds j = (.ended (groupOf p b j).1, (groupOf p b j).2)) ∧
    ∃ asked : List TypeName,
      (groupOf p b j).2.requests.toList = j.requests.toList ++ asked.map (fun n => [n]) ∧
      asked.Nodup ∧ b.name ∉ asked := by
  obtain ⟨rounds, hrounds⟩ := Stage.start_ends (p := p) b j
  obtain ⟨asked, hasked⟩ := (Stage.frugal_start b j).after (p := p) rounds
  rw [hrounds] at hasked
  obtain ⟨hfirst, hnodup⟩ := List.nodup_cons.mp hasked.nodup
  exact ⟨⟨rounds, hrounds⟩, asked, hasked.requests, hnodup, hfirst⟩

end VirtualClasspath.Nest
