import Mathlib.Data.List.Chain
import Mathlib.Data.List.Nodup
import Mathlib.Order.Bounds.Basic
import VirtualClasspath.Assembly.Write
import VirtualClasspath.Proofs.Nest
import VirtualClasspath.Proofs.Sorted

/-!
# The nest group, exactly

What a search for a nest group comes to is said here without its loops, for any classes of a steady
provider: those that contradict each other and those that are missing or cannot be read among them.

From the class that the search starts from, each class says which one it lies in; the names on the
way are a `Way`. There is just one that cannot be continued (`WholeWay`, `WholeWay.unique`): its
last class says nothing more, names a class that was met, or cannot be read. The walk outward goes
this way (`climb_spec`), and **`groupOf_exact`** describes the result from its last class `o`: it is
missing, or something that lies in it cannot be read, or the group is the least set that holds `o`
and what is directly nested in each of its members.
-/

namespace VirtualClasspath.Nest

variable {classes : TypeName → Except Error (Option ClassFile)} {start n m o : TypeName}

/-! ## Ways outward -/

/-- The class under `n` says that it lies directly in `o`. -/
def LiesDirectlyIn (classes : TypeName → Except Error (Option ClassFile)) (n o : TypeName) : Prop :=
  ∃ c, classes n = .ok (some c) ∧ c.outerOf = some o

theorem LiesDirectlyIn.unique (ho : LiesDirectlyIn classes n o) (hm : LiesDirectlyIn classes n m) :
    o = m := by
  obtain ⟨c, hc, ho⟩ := ho
  obtain ⟨d, hd, hm⟩ := hm
  cases hc.symm.trans hd
  exact Option.some.inj (ho.symm.trans hm)

/-- A way outward from `start`, the last class first: each class is the one that the class met
before it says it lies in, and none is met twice. -/
structure Way (classes : TypeName → Except Error (Option ClassFile)) (start : TypeName)
    (way : List TypeName) : Prop where
  starts : way.getLast? = some start
  steps : way.IsChain fun o n => LiesDirectlyIn classes n o
  nodup : way.Nodup

/-- A way outward that cannot be continued: its last class does not say what it lies in, or names a
class on the way. -/
structure WholeWay (classes : TypeName → Except Error (Option ClassFile)) (start : TypeName)
    (way : List TypeName) : Prop extends Way classes start way where
  ended : ∀ o ∈ way.head?, ∀ m, LiesDirectlyIn classes o m → m ∈ way

namespace Way

variable {way way' : List TypeName}

theorem single (classes : TypeName → Except Error (Option ClassFile)) (start : TypeName) :
    Way classes start [start] :=
  ⟨rfl, .singleton start, List.nodup_singleton start⟩

theorem cons (h : Way classes start (n :: way)) (ho : LiesDirectlyIn classes n o)
    (hnew : o ∉ n :: way) : Way classes start (o :: n :: way) where
  starts := h.starts
  steps := List.isChain_cons_cons.mpr ⟨ho, h.steps⟩
  nodup := List.nodup_cons.mpr ⟨hnew, h.nodup⟩

theorem tail (h : Way classes start (o :: n :: way)) : Way classes start (n :: way) where
  starts := h.starts
  steps := (List.isChain_cons_cons.mp h.steps).2
  nodup := (List.nodup_cons.mp h.nodup).2

theorem start_mem (h : Way classes start way) : start ∈ way := List.mem_of_getLast? h.starts

/-- All classes on a way can be read, but for the last one perhaps. -/
theorem read_of_mem (h : Way classes start (o :: way)) (hn : n ∈ way) :
    ∃ c, classes n = .ok (some c) := by
  induction way generalizing o with
  | nil => exact absurd hn List.not_mem_nil
  | cons m way ih =>
    rcases List.mem_cons.mp hn with rfl | hn
    · obtain ⟨⟨c, hc, -⟩, -⟩ := List.isChain_cons_cons.mp h.steps
      exact ⟨c, hc⟩
    · exact ih h.tail hn

/-- Of two ways from the same class, one is the beginning of the other. -/
theorem suffix_total (h : Way classes start way) (h' : Way classes start way') :
    way <:+ way' ∨ way' <:+ way := by
  induction way with
  | nil => cases h.starts
  | cons n way ih =>
    cases way with
    | nil =>
      cases h.starts
      obtain ⟨met, hmet⟩ := List.getLast?_eq_some_iff.mp h'.starts
      exact Or.inl ⟨met, hmet.symm⟩
    | cons m way =>
      rcases ih h.tail with ⟨met, rfl⟩ | hsuffix
      · rcases List.eq_nil_or_concat met with rfl | ⟨met, k, rfl⟩
        · exact Or.inr (List.suffix_cons n _)
        · -- both go on from `m`, and so to the same class
          rw [List.concat_eq_append, List.append_assoc] at h' ⊢
          have hsteps := h'.steps
          have hk := (List.isChain_append_cons_cons.mp hsteps).2.1
          have hn := (List.isChain_cons_cons.mp h.steps).1
          rw [hk.unique hn]
          exact Or.inl ⟨met, rfl⟩
      · exact Or.inr (hsuffix.trans (List.suffix_cons n _))

end Way

namespace WholeWay

variable {way way' : List TypeName}

theorem eq_of_suffix (h : WholeWay classes start way) (h' : Way classes start way')
    (hs : way <:+ way') : way = way' := by
  obtain ⟨met, rfl⟩ := hs
  rcases List.eq_nil_or_concat met with rfl | ⟨met, k, rfl⟩
  · rfl
  · cases way with
    | nil => cases h.starts
    | cons o way =>
      rw [List.concat_eq_append, List.append_assoc] at h'
      have hk := h.ended o rfl k (List.isChain_append_cons_cons.mp h'.steps).2.1
      exact absurd hk (List.nodup_cons.mp (List.nodup_append.mp h'.nodup).2.1).1

/-- **There is one whole way** from a class. -/
theorem unique (h : WholeWay classes start way) (h' : WholeWay classes start way') : way = way' :=
  (h.toWay.suffix_total h'.toWay).elim (h.eq_of_suffix h'.toWay)
    fun hs => (h'.eq_of_suffix h.toWay hs).symm

/-- The way cannot be continued from a name without a class. -/
theorem of_unread (h : Way classes start (o :: way)) (ho : ∀ c, classes o ≠ .ok (some c)) :
    WholeWay classes start (o :: way) where
  toWay := h
  ended k hk m hm := by
    cases hk
    obtain ⟨c, hc, -⟩ := hm
    exact absurd hc (ho c)

end WholeWay

/-! ## Outward -/

section Outward

variable {p : Provider} {a : Ascent} {outer : Option TypeName} {inner : List TypeName}

/-- A walk outward has come along a way: it holds the classes on the way, and the one at the top
says what comes next. -/
structure Climbing (classes : TypeName → Except Error (Option ClassFile)) (start : TypeName)
    (a : Ascent) (outer : Option TypeName) (inner : List TypeName) : Prop where
  way : Way classes start (a.top :: inner)
  top : ∃ c, classes a.top = .ok (some c) ∧ c.outerOf = outer
  known : ∀ n, a.classes.contains n = true ↔ n ∈ a.top :: inner
  read : ∀ n c, a.classes.find? n = some c → classes n = .ok (some c)

namespace Climbing

theorem of_insert {known : SortedMap TypeName ClassFile} {c : ClassFile}
    (hc : classes n = .ok (some c)) (hway : Way classes start (n :: inner))
    (hknown : ∀ m, known.contains m = true ↔ m ∈ inner)
    (hread : ∀ m d, known.find? m = some d → classes m = .ok (some d)) :
    Climbing classes start ⟨n, known.insert n c⟩ c.outerOf inner where
  way := hway
  top := ⟨c, hc, rfl⟩
  known m := by rw [SortedMap.contains_insert, hknown, List.mem_cons]
  read := SortedMap.forall_insert hc hread

theorem begin {c : ClassFile} (hc : classes start = .ok (some c)) :
    Climbing classes start ⟨start, (∅ : SortedMap TypeName ClassFile).insert start c⟩ c.outerOf
      [] :=
  of_insert hc (.single classes start)
    (fun _ => ⟨fun h => (Bool.false_ne_true h).elim, fun h => absurd h List.not_mem_nil⟩)
    (fun _ _ h => nomatch h)

theorem liesDirectlyIn (h : Climbing classes start a (some n) inner) :
    LiesDirectlyIn classes a.top n := h.top

theorem way_next (h : Climbing classes start a (some n) inner)
    (hnew : ¬ a.classes.contains n = true) : Way classes start (n :: a.top :: inner) :=
  h.way.cons h.liesDirectlyIn (mt (h.known n).mpr hnew)

theorem next (h : Climbing classes start a (some n) inner) (hnew : ¬ a.classes.contains n = true)
    {c : ClassFile} (hc : classes n = .ok (some c)) :
    Climbing classes start ⟨n, a.classes.insert n c⟩ c.outerOf (a.top :: inner) :=
  of_insert hc (h.way_next hnew) h.known h.read

/-- There is no class around the top, or it was met before. -/
theorem whole (h : Climbing classes start a outer inner)
    (hmet : ∀ n ∈ outer, a.classes.contains n = true) :
    WholeWay classes start (a.top :: inner) where
  toWay := h.way
  ended o ho n hn := by
    cases ho
    obtain ⟨c, hc, rfl⟩ := h.top
    obtain ⟨d, hd, houter⟩ := hn
    cases hc.symm.trans hd
    exact (h.known n).mp (hmet n houter)

/-- The class that the walk started from is among those that it holds. -/
theorem start_known (h : Climbing classes start a outer inner) :
    a.classes.contains start = true :=
  (h.known start).mpr h.way.start_mem

/-- A class that the walk holds is the one that there is under the name, and the search asks for the
others. -/
theorem classFor_eq (hclasses : ∀ n j, n ≠ start → (findClass p n j).1 = classes n)
    (h : Climbing classes start a outer inner) (n : TypeName) (j : Journal) :
    (classFor p a.classes n j).1 = classes n := by
  unfold classFor
  split
  · rename_i c hc
    exact (h.read n c hc).symm
  · rename_i hnone
    refine hclasses n j ?_
    rintro rfl
    exact SortedMap.not_contains_of_find? hnone h.start_known

/-- What the walk finds under a name that it has not met. -/
theorem found_eq (hclasses : ∀ n j, n ≠ start → (findClass p n j).1 = classes n)
    (h : Climbing classes start a outer inner) (hnew : ¬ a.classes.contains n = true)
    {found : Except Error (Option ClassFile)} {j j' : Journal}
    (hf : findClass p n j = (found, j')) : classes n = found := by
  rw [← hclasses n j fun he => hnew (he ▸ h.start_known), hf]

end Climbing

/-- What a walk outward comes to, by what there is under the last name on the way. -/
inductive Arrival (classes : TypeName → Except Error (Option ClassFile)) (start o : TypeName)
    (inner : List TypeName) : Except Error Ascent → Prop
  | broken (e : Error) (he : classes o = .error e) : Arrival classes start o inner (.error e)
  | missing (ho : classes o = .ok none) : Arrival classes start o inner (.error (.missing o))
  | top (a : Ascent) (outer : Option TypeName) (htop : a.top = o)
      (h : Climbing classes start a outer inner) : Arrival classes start o inner (.ok a)

/-- **A walk outward goes the whole way.** -/
theorem climb_spec (hclasses : ∀ n j, n ≠ start → (findClass p n j).1 = classes n)
    (h : Climbing classes start a outer inner) (j : Journal) :
    ∃ o inner', WholeWay classes start (o :: inner') ∧
      Arrival classes start o inner' (climb p a outer j).1 := by
  fun_induction climb p a outer j generalizing inner with
  | case1 a j =>
    have hnone : ∀ n ∈ (none : Option TypeName), a.classes.contains n = true := by
      intro n hn
      cases hn
    exact ⟨a.top, inner, h.whole hnone, .top a none rfl h⟩
  | case2 a j n hs =>
    exact ⟨a.top, inner, h.whole fun m hm => Option.some.inj hm ▸ hs, .top a (some n) rfl h⟩
  | case3 a j n hs e j₁ hf =>
    have hn := h.found_eq hclasses hs hf
    exact ⟨n, _, .of_unread (h.way_next hs) (by simp [hn]), .broken e hn⟩
  | case4 a j n hs j₁ hf =>
    have hn := h.found_eq hclasses hs hf
    exact ⟨n, _, .of_unread (h.way_next hs) (by simp [hn]), .missing hn⟩
  | case5 a j n hs c j₁ hf ih =>
    exact ih (h.next hs (h.found_eq hclasses hs hf))

end Outward

/-! ## Inward -/

section Inward

variable {p : Provider} {known : SortedMap TypeName ClassFile} {group r : SortedSet TypeName}
  {queue : List TypeName} {j : Journal}

/-- A walk inward that ends well has read all classes of the group. -/
theorem read_of_descend (hclasses : ∀ n j, (classFor p known n j).1 = classes n)
    (h : ∀ n ∈ group, n ∈ queue ∨ ∃ found, classes n = .ok found)
    (hr : (descend p known group queue j).1 = .ok r) : ∀ n ∈ r, ∃ found, classes n = .ok found := by
  have hkept : KeptInward classes fun g q => ∀ n ∈ g, n ∈ q ∨ ∃ found, classes n = .ok found := by
    constructor
    · intro g current rest h hc n hn
      rcases h n hn with hq | hread
      · rcases List.mem_cons.mp hq with rfl | hq
        · exact Or.inr ⟨none, hc⟩
        · exact Or.inl hq
      · exact Or.inr hread
    · intro g current rest c h hc n hn
      rcases mem_join.mp hn with hn | hn
      · rcases h n hn with hq | hread
        · rcases List.mem_cons.mp hq with rfl | hq
          · exact Or.inr ⟨some c, hc⟩
          · exact Or.inl (List.mem_append_left _ hq)
        · exact Or.inr hread
      · exact Or.inl (List.mem_append_right _ hn)
  rcases hkept.descend_cases hclasses h j with ⟨r', hr', hread⟩ | ⟨e, _, _, _, herror, -⟩
  · cases hr.symm.trans hr'
    exact fun n hn => (hread n hn).resolve_left List.not_mem_nil
  · cases hr.symm.trans herror

/-- A walk inward that fails has come to a class that cannot be read. -/
theorem broken_of_descend (hclasses : ∀ n j, (classFor p known n j).1 = classes n)
    (h : ∀ n ∈ queue, LiesIn classes o n) {e : Error}
    (hr : (descend p known group queue j).1 = .error e) :
    ∃ n, LiesIn classes o n ∧ classes n = .error e := by
  have hkept : KeptInward classes fun _ q => ∀ n ∈ q, LiesIn classes o n := by
    constructor
    · exact fun h _ n hn => h n (List.mem_cons_of_mem _ hn)
    · intro g current rest c h hc n hn
      rcases List.mem_append.mp hn with hn | hn
      · exact h n (List.mem_cons_of_mem _ hn)
      · exact (h current List.mem_cons_self).tail ⟨c, hc, (mem_freshNested.mp hn).1⟩
  rcases hkept.descend_cases hclasses (g := group) h j with
    ⟨r', hr', -⟩ | ⟨e', g, current, rest, herror, hlies, hc⟩
  · cases hr.symm.trans hr'
  · cases hr.symm.trans herror
    exact ⟨current, hlies current List.mem_cons_self, hc⟩

end Inward

/-! ## The search -/

/-- What there is under a name for the search from `b`: the class that it starts from, or what the
provider has. -/
def classesFrom (p : Provider) (b : Blob) (n : TypeName) : Except Error (Option ClassFile) :=
  if n = b.name then (parseBlob b).map some else classOf p n

/-- An error of a blob is about the class of its name. -/
theorem parseBlob_error {b : Blob} {e : Error} (h : (parseBlob b).map some = .error e) :
    ∃ fault, e = .malformed b.name fault := by
  unfold parseBlob at h
  cases hc : ClassFile.parse b.bytes with
  | ok c =>
    rw [hc] at h
    cases h
  | error fault =>
    rw [hc] at h
    cases h
    exact ⟨fault, rfl⟩

section Search

variable {p : Provider} {b : Blob}

/-- An error under a name is about the class of that name. -/
theorem classesFrom_error {e : Error} (h : classesFrom p b n = .error e) :
    ∃ fault, e = .malformed n fault := by
  unfold classesFrom classOf at h
  split at h
  · rename_i hn
    exact hn ▸ parseBlob_error h
  · cases hs : p.served n with
    | nil =>
      rw [hs] at h
      cases h
    | cons b' bs =>
      rw [hs] at h
      have hb' : b' ∈ p.served n := hs ▸ List.mem_cons_self
      have hname : b'.name = n := of_decide_eq_true (List.mem_filter.mp hb').2
      exact hname ▸ parseBlob_error h

theorem findClass_eq_classesFrom (hp : p.Steady) (hn : n ≠ b.name) (j : Journal) :
    (findClass p n j).1 = classesFrom p b n := by
  rw [findClass_eq_classOf hp, classesFrom, if_neg hn]

theorem classesFrom_name : classesFrom p b b.name = (parseBlob b).map some :=
  if_pos rfl

/-- What a search comes to, by what lies in the last name `o` on the way outward. -/
inductive Outcome (classes : TypeName → Except Error (Option ClassFile)) (o : TypeName) :
    Except Error (SortedSet TypeName) → Prop
  | missing (ho : classes o = .ok none) : Outcome classes o (.error (.missing o))
  | malformed (n : TypeName) (e : Error) (hn : LiesIn classes o n) (he : classes n = .error e) :
      Outcome classes o (.error e)
  | found (c : ClassFile) (group : SortedSet TypeName) (ho : classes o = .ok (some c))
      (hread : ∀ n, LiesIn classes o n → ∃ found, classes n = .ok found)
      (hgroup : ∀ n, n ∈ group ↔ LiesIn classes o n) : Outcome classes o (.ok group)

/-- What a walk inward from the top of a walk outward comes to. -/
theorem outcome_of_descend {a : Ascent} {outer : Option TypeName} {inner : List TypeName}
    (hclasses : ∀ n j, n ≠ start → (findClass p n j).1 = classes n)
    (h : Climbing classes start a outer inner) (j : Journal) :
    Outcome classes a.top (descend p a.classes (join ∅ [a.top]) [a.top] j).1 := by
  cases hr : (descend p a.classes (join ∅ [a.top]) [a.top] j).1 with
  | error e =>
    have hqueue : ∀ n ∈ [a.top], LiesIn classes a.top n := fun n hn =>
      List.mem_singleton.mp hn ▸ .refl
    obtain ⟨n, hn, he⟩ := broken_of_descend (h.classFor_eq hclasses) hqueue hr
    exact .malformed n e hn he
  | ok group =>
    have hgroup : ∀ n, n ∈ group ↔ LiesIn classes a.top n := fun n => by
      rw [mem_descend (h.classFor_eq hclasses) (.one a.top) hr]
      simp only [mem_join_one, exists_eq_left]
    have hread := read_of_descend (h.classFor_eq hclasses)
      (fun n hn => Or.inl (List.mem_singleton.mpr (mem_join_one.mp hn))) hr
    obtain ⟨c, hc, -⟩ := h.top
    exact .found c group hc (fun n hn => hread n ((hgroup n).mpr hn)) hgroup

/-- A search goes the whole way outward, and its result is clear from there. -/
theorem groupOf_outcome (hp : p.Steady) (b : Blob) (j : Journal) :
    ∃ o inner, WholeWay (classesFrom p b) b.name (o :: inner) ∧
      Outcome (classesFrom p b) o (groupOf p b j).1 := by
  have hclasses : ∀ n j, n ≠ b.name → (findClass p n j).1 = classesFrom p b n :=
    fun n j hn => findClass_eq_classesFrom hp hn j
  have hself : classesFrom p b b.name = (parseBlob b).map some := classesFrom_name
  cases hc : parseBlob b with
  | error e =>
    rw [hc] at hself
    rw [groupOf_broken hc]
    exact ⟨b.name, [], .of_unread (.single _ _) (fun c hc => nomatch hself.symm.trans hc),
      .malformed b.name e .refl hself⟩
  | ok c =>
    rw [hc] at hself
    obtain ⟨o, inner, hway, harrival⟩ := climb_spec hclasses (.begin hself) j
    refine ⟨o, inner, hway, ?_⟩
    rw [groupOf_read hc, bind_run]
    generalize climb p _ c.outerOf j = r at harrival
    obtain ⟨r, j₁⟩ := r
    cases harrival with
    | broken e he => exact .malformed o e .refl he
    | missing ho => exact .missing ho
    | top a outer htop h => exact htop ▸ outcome_of_descend hclasses h j₁

end Search

/-! ## The result -/

/-- What lies in a name is the least set that holds it and what is directly nested in its members. -/
theorem isLeast_liesIn (classes : TypeName → Except Error (Option ClassFile)) (o : TypeName) :
    IsLeast {s : Set TypeName | o ∈ s ∧ ∀ n ∈ s, ∀ m, DirectlyNested classes n m → m ∈ s}
      {n | LiesIn classes o n} := by
  refine ⟨⟨.refl, fun n hn m hm => hn.tail hm⟩, fun s ⟨ho, hs⟩ n hn => ?_⟩
  change LiesIn classes o n at hn
  induction hn with
  | refl => exact ho
  | tail _ hm ih => exact hs _ ih _ hm

/-- Nothing but itself lies in a name without a class. -/
theorem eq_of_liesIn_none (ho : classes o = .ok none) (hn : LiesIn classes o n) : n = o := by
  rcases Relation.ReflTransGen.cases_head hn with he | ⟨m, ⟨c, hc, -⟩, -⟩
  · exact he.symm
  · cases ho.symm.trans hc

/-- What cannot be read on a whole way is the last class. -/
theorem WholeWay.liesIn_of_error {inner : List TypeName} (h : WholeWay classes start (o :: inner))
    {e : Error} (hn : n ∈ o :: inner) (he : classes n = .error e) : LiesIn classes o n := by
  rcases List.mem_cons.mp hn with rfl | hn
  · exact .refl
  · obtain ⟨c, hc⟩ := h.toWay.read_of_mem hn
    cases he.symm.trans hc

namespace Outcome

variable {r : Except Error (SortedSet TypeName)}

theorem eq_missing_iff (hnames : ∀ n e, classes n = .error e → ∃ fault, e = .malformed n fault)
    (h : Outcome classes o r) : r = .error (.missing m) ↔ m = o ∧ classes o = .ok none := by
  cases h with
  | missing ho => exact ⟨fun h => by cases h; exact ⟨rfl, ho⟩, fun ⟨h, _⟩ => h ▸ rfl⟩
  | malformed n e hn he =>
    obtain ⟨fault, rfl⟩ := hnames n e he
    refine ⟨nofun, fun ⟨_, ho⟩ => ?_⟩
    cases (eq_of_liesIn_none ho hn ▸ he).symm.trans ho
  | found c group ho => exact ⟨nofun, fun ⟨_, hnone⟩ => nomatch ho.symm.trans hnone⟩

theorem liesIn_of_malformed (hnames : ∀ n e, classes n = .error e → ∃ fault, e = .malformed n fault)
    {fault : ClassFile.Fault} (h : Outcome classes o r) (hr : r = .error (.malformed n fault)) :
    LiesIn classes o n ∧ classes n = .error (.malformed n fault) := by
  cases h with
  | missing => cases hr
  | malformed n' e hn he =>
    cases hr
    obtain ⟨_, heq⟩ := hnames n' _ he
    cases heq
    exact ⟨hn, he⟩
  | found => cases hr

theorem exists_malformed_iff
    (hnames : ∀ n e, classes n = .error e → ∃ fault, e = .malformed n fault)
    (h : Outcome classes o r) :
    (∃ n fault, r = .error (.malformed n fault)) ↔
      ∃ n e, LiesIn classes o n ∧ classes n = .error e := by
  refine ⟨fun ⟨n, fault, hr⟩ => ⟨n, _, h.liesIn_of_malformed hnames hr⟩, fun ⟨n, e, hn, he⟩ => ?_⟩
  cases h with
  | missing ho => cases (eq_of_liesIn_none ho hn ▸ he).symm.trans ho
  | malformed n' e' hn' he' =>
    obtain ⟨fault, rfl⟩ := hnames n' e' he'
    exact ⟨n', fault, rfl⟩
  | found c group ho hread =>
    obtain ⟨found, hfound⟩ := hread n hn
    cases he.symm.trans hfound

theorem eq_ok_iff {group : SortedSet TypeName} (h : Outcome classes o r) :
    r = .ok group ↔ (∃ c, classes o = .ok (some c)) ∧
      (∀ n, LiesIn classes o n → ∀ e, classes n ≠ .error e) ∧
      IsLeast {s : Set TypeName | o ∈ s ∧ ∀ n ∈ s, ∀ m, DirectlyNested classes n m → m ∈ s}
        {n | n ∈ group} := by
  cases h with
  | missing ho => exact ⟨nofun, fun ⟨⟨c, hc⟩, _⟩ => nomatch ho.symm.trans hc⟩
  | malformed n e hn he => exact ⟨nofun, fun ⟨_, hread, _⟩ => absurd he (hread n hn e)⟩
  | found c group' ho hread hgroup =>
    have hset : {n | n ∈ group'} = {n | LiesIn classes o n} := Set.ext hgroup
    constructor
    · intro hr
      cases hr
      refine ⟨⟨c, ho⟩, fun n hn e he => ?_, hset ▸ isLeast_liesIn classes o⟩
      obtain ⟨found, hfound⟩ := hread n hn
      cases he.symm.trans hfound
    · rintro ⟨-, -, hleast⟩
      have hsame := hleast.unique (isLeast_liesIn classes o)
      rw [← hset] at hsame
      exact congrArg Except.ok (SortedSet.ext fun n => (Set.ext_iff.mp hsame n).symm)

end Outcome

/-- **The nest group, exactly.** There is one whole way outward from the class that the search
starts from, whatever the classes say. Let `o` be the last name on it. The search reports that `o`
is missing exactly if there is no class under it, and then all classes before it have been read. It
reports a class that cannot be read exactly if there is one on the way or in `o`, and names such a
class. Otherwise the result is the least set that holds `o` and, with each member, what is directly
nested in it; a member without a class has nothing nested in it. -/
theorem groupOf_exact {p : Provider} (hp : p.Steady) (b : Blob) (j : Journal) :
    ∃ o inner, WholeWay (classesFrom p b) b.name (o :: inner) ∧
      (∀ way, WholeWay (classesFrom p b) b.name way → way = o :: inner) ∧
      (∀ a, (groupOf p b j).1 = .error (.missing a) ↔
        a = o ∧ classesFrom p b o = .ok none ∧
          ∀ n ∈ inner, ∃ c, classesFrom p b n = .ok (some c)) ∧
      (∀ n fault, (groupOf p b j).1 = .error (.malformed n fault) →
        (n ∈ o :: inner ∨ LiesIn (classesFrom p b) o n) ∧
          classesFrom p b n = .error (.malformed n fault)) ∧
      ((∃ n fault, (groupOf p b j).1 = .error (.malformed n fault)) ↔
        ∃ n e, (n ∈ o :: inner ∨ LiesIn (classesFrom p b) o n) ∧ classesFrom p b n = .error e) ∧
      ∀ group, (groupOf p b j).1 = .ok group ↔
        (∃ c, classesFrom p b o = .ok (some c)) ∧
          (∀ n, LiesIn (classesFrom p b) o n → ∀ e, classesFrom p b n ≠ .error e) ∧
          IsLeast
            {s : Set TypeName | o ∈ s ∧
              ∀ n ∈ s, ∀ m, DirectlyNested (classesFrom p b) n m → m ∈ s}
            {n | n ∈ group} := by
  obtain ⟨o, inner, hway, houtcome⟩ := groupOf_outcome hp b j
  have hnames : ∀ n e, classesFrom p b n = .error e → ∃ fault, e = .malformed n fault :=
    fun _ _ => classesFrom_error
  have hmet : ∀ n e, classesFrom p b n = .error e →
      (n ∈ o :: inner ∨ LiesIn (classesFrom p b) o n ↔ LiesIn (classesFrom p b) o n) :=
    fun n e he => or_iff_right_of_imp fun hn => hway.liesIn_of_error hn he
  refine ⟨o, inner, hway, fun way h => h.unique hway, fun a => ?_, fun n fault hr => ?_, ?_,
    fun group => houtcome.eq_ok_iff⟩
  · rw [houtcome.eq_missing_iff hnames, and_congr_right_iff, iff_self_and]
    exact fun _ _ _ hn => hway.toWay.read_of_mem hn
  · exact (houtcome.liesIn_of_malformed hnames hr).imp_left Or.inr
  · rw [houtcome.exists_malformed_iff hnames]
    refine exists_congr fun n => exists_congr fun e => and_congr_left fun he => (hmet n e he).symm

/-! ## Classes that contradict each other -/

/-- A class `A` that says that it lies in `B`, and that `B` and `A$M` lie in it. -/
def crossedA : Assembly.ClassSpec :=
  { name := "A", superClass := none
    innerClasses :=
      [⟨"A", some "B", some "A", 0⟩, ⟨"B", some "A", some "B", 0⟩, ⟨"A$M", some "A", some "M", 0⟩] }

/-- A class `B` that says that it lies in `A`, and that `A` lies in it. -/
def crossedB : Assembly.ClassSpec :=
  { name := "B", superClass := none
    innerClasses := [⟨"B", some "A", some "B", 0⟩, ⟨"A", some "B", some "A", 0⟩] }

/-- The two classes; there is none under the name `A$M`. -/
def crossed : ClassMap := .ofBlobs [⟨⟨"A"⟩, crossedA.bytes⟩, ⟨⟨"B"⟩, crossedB.bytes⟩]

theorem crossedA_parsed :
    ∃ c, parseBlob ⟨⟨"A"⟩, crossedA.bytes⟩ = .ok c ∧ c.outerOf = some ⟨"B"⟩ ∧
      c.directNested = .ofList [⟨"A$M"⟩, ⟨"B"⟩] := by
  have hread : (parseBlob ⟨⟨"A"⟩, crossedA.bytes⟩).map (fun c => (c.outerOf, c.directNested)) =
      .ok (some ⟨"B"⟩, .ofList [⟨"A$M"⟩, ⟨"B"⟩]) := by decide +kernel
  obtain ⟨c, hc, h⟩ := exists_of_map_eq_ok hread
  exact ⟨c, hc, Prod.mk.inj h⟩

theorem crossedB_parsed :
    ∃ c, parseBlob ⟨⟨"B"⟩, crossedB.bytes⟩ = .ok c ∧ c.outerOf = some ⟨"A"⟩ ∧
      c.directNested = .ofList [⟨"A"⟩] := by
  have hread : (parseBlob ⟨⟨"B"⟩, crossedB.bytes⟩).map (fun c => (c.outerOf, c.directNested)) =
      .ok (some ⟨"A"⟩, .ofList [⟨"A"⟩]) := by decide +kernel
  obtain ⟨c, hc, h⟩ := exists_of_map_eq_ok hread
  exact ⟨c, hc, Prod.mk.inj h⟩

theorem classesFrom_crossed (n : TypeName) :
    classesFrom (.ofMap crossed) ⟨⟨"A"⟩, crossedA.bytes⟩ n =
      if n = ⟨"A"⟩ then (parseBlob ⟨⟨"A"⟩, crossedA.bytes⟩).map some
      else if n = ⟨"B"⟩ then (parseBlob ⟨⟨"B"⟩, crossedB.bytes⟩).map some else .ok none := by
  unfold classesFrom classOf
  by_cases hA : n = ⟨"A"⟩
  · rw [if_pos hA, if_pos hA]
  · rw [if_neg hA, if_neg hA, Provider.served_ofMap, crossed, ClassMap.find?_ofBlobs_two]
    by_cases hB : n = ⟨"B"⟩
    · rw [if_pos hB, if_pos hB, hB]
      rfl
    · rw [if_neg hB, if_neg hB, if_neg hA]
      rfl

/-- The way outward from `A` ends with `B`, since `A` was met before. The group is what lies in `B`,
with the member that has no class. -/
theorem groupOf_exact_crossed :
    (Provider.ofMap crossed).Steady ∧
    (groupOf (.ofMap crossed) ⟨⟨"A"⟩, crossedA.bytes⟩ {}).1 =
      .ok (.ofList [⟨"A"⟩, ⟨"A$M"⟩, ⟨"B"⟩]) := by
  refine ⟨Provider.steady_ofMap crossed, ?_⟩
  obtain ⟨a, ha, ha_outer, ha_nested⟩ := crossedA_parsed
  obtain ⟨b, hb, hb_outer, hb_nested⟩ := crossedB_parsed
  obtain ⟨o, inner, -, hunique, -, -, -, hok⟩ :=
    groupOf_exact (Provider.steady_ofMap crossed) ⟨⟨"A"⟩, crossedA.bytes⟩ {}
  have hclasses := classesFrom_crossed
  rw [ha, hb] at hclasses
  generalize classesFrom (.ofMap crossed) ⟨⟨"A"⟩, crossedA.bytes⟩ = classes at *
  have hA : classes ⟨"A"⟩ = .ok (some a) := by rw [hclasses]; rfl
  have hB : classes ⟨"B"⟩ = .ok (some b) := by rw [hclasses]; rfl
  have hway : WholeWay classes ⟨"A"⟩ [⟨"B"⟩, ⟨"A"⟩] :=
    { Way.cons (.single classes ⟨"A"⟩) ⟨a, hA, ha_outer⟩ (by decide) with
      ended := by
        rintro _ ⟨⟩ m hm
        rw [← LiesDirectlyIn.unique ⟨b, hB, hb_outer⟩ hm]
        decide }
  obtain ⟨rfl, rfl⟩ := List.cons.inj (hunique _ hway)
  have hstepA : ∀ m, DirectlyNested classes ⟨"A"⟩ m ↔ m = ⟨"A$M"⟩ ∨ m = ⟨"B"⟩ := fun m => by
    simp [DirectlyNested, hA, ha_nested, SortedSet.mem_ofList]
  have hstepB : ∀ m, DirectlyNested classes ⟨"B"⟩ m ↔ m = ⟨"A"⟩ := fun m => by
    simp [DirectlyNested, hB, hb_nested, SortedSet.mem_ofList]
  refine (hok _).mpr ⟨⟨b, hB⟩, fun n _ e he => ?_, ⟨by decide, fun n hn m hm => ?_⟩,
    fun s ⟨hBs, hs⟩ n hn => ?_⟩
  · rw [hclasses] at he
    split_ifs at he <;> cases he
  · by_cases hnA : n = ⟨"A"⟩
    · rcases (hstepA m).mp (hnA ▸ hm) with rfl | rfl <;> decide
    by_cases hnB : n = ⟨"B"⟩
    · rw [(hstepB m).mp (hnB ▸ hm)]
      decide
    · obtain ⟨c, hc, -⟩ := hm
      rw [hclasses, if_neg hnA, if_neg hnB] at hc
      cases hc
  · have hAs : ⟨"A"⟩ ∈ s := hs _ hBs _ ((hstepB _).mpr rfl)
    have hMs : ⟨"A$M"⟩ ∈ s := hs _ hAs _ ((hstepA _).mpr (Or.inl rfl))
    have hmem := SortedSet.mem_ofList.mp hn
    simp only [List.mem_cons, List.not_mem_nil, or_false] at hmem
    rcases hmem with rfl | rfl | rfl
    exacts [hAs, hMs, hBs]

end VirtualClasspath.Nest
