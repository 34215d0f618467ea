import Mathlib.Data.List.Perm.Basic
import VirtualClasspath.Assembly.Write
import VirtualClasspath.Proofs.ClassFile.Names
import VirtualClasspath.Proofs.Closure.Phases

/-!
# Classes that nobody asked for

A provider may answer a request for a name with a class that goes under another one, a *stray*. Who
asks for one name drops the strays (`Provider.fetch`), and all steps of a closure do so but one: the
second phase asks for all members at once, and takes the answer as it is. So what strays refer to
becomes part of the closure.

`directReferencePhase_agrees_iff` says what that comes to for a provider that answers name by name:
the phase adds what the fetched classes and the strays mention, so it adds what a phase that fetches
would add exactly if the strays mention nothing else. `directReferencePhase_stray` is a stray that
does.
-/

namespace VirtualClasspath

/-- The answer to several names is that to the first, then that to the second, and so on. -/
def Provider.Concatenates (p : Provider) : Prop :=
  ∀ past names, p.answer past names = names.flatMap fun n => p.answer past [n]

theorem Provider.concatenates_ofList (served : List (TypeName × Blob)) (listing : List String) :
    (ofList served listing).Concatenates := by
  intro past names
  simp [ofList]

namespace Closure.Draft

variable {s : Setting} {d : Draft} {j : Journal} {m : TypeName}

/-- The classes that requests for one member at a time find. -/
def fetched (s : Setting) (d : Draft) (j : Journal) : List Blob :=
  d.closure.toList.flatMap fun n => (s.provider.fetch n j).1

/-- The classes that come with them under another name than the one that was asked for. -/
def strays (s : Setting) (d : Draft) (j : Journal) : List Blob :=
  d.closure.toList.flatMap fun n => (s.provider.ask [n] j).1.filter fun b => b.name ≠ n

/-! ## One request for all members -/

theorem ask_members (h : s.provider.Concatenates) :
    (s.provider.ask d.closure.toList j).1 =
      d.closure.toList.flatMap fun n => (s.provider.ask [n] j).1 :=
  h j.requests d.closure.toList

/-- The answer consists of the fetched classes and the strays. -/
theorem fetched_append_strays_perm (h : s.provider.Concatenates) :
    (fetched s d j ++ strays s d j).Perm (s.provider.ask d.closure.toList j).1 := by
  rw [ask_members h]
  refine (List.flatMap_append_perm _ _ _).trans (List.Perm.flatMap_left _ fun n _ => ?_)
  simpa [Provider.fetch, Provider.ask] using
    List.filter_append_perm (fun b : Blob => decide (b.name = n)) (s.provider.ask [n] j).1

/-- The phase is given the fetched classes, in their order, exactly if there are no strays. -/
theorem ask_members_eq_iff (h : s.provider.Concatenates) :
    (s.provider.ask d.closure.toList j).1 = fetched s d j ↔ strays s d j = [] := by
  constructor
  · intro he
    have hlength := (fetched_append_strays_perm h (d := d) (j := j)).length_eq
    rw [he, List.length_append] at hlength
    exact List.eq_nil_of_length_eq_zero (by omega)
  · intro he
    rw [ask_members h]
    refine List.flatMap_congr fun n hn => (List.filter_eq_self.mpr fun b hb => ?_).symm
    -- A class under another name would be a stray.
    by_contra hname
    have hstray : b ∈ strays s d j :=
      List.mem_flatMap.mpr ⟨n, hn, List.mem_filter.mpr ⟨hb, by simpa using hname⟩⟩
    rw [he] at hstray
    exact List.not_mem_nil hstray

/-- What a class mentions may be a member of a closure. -/
theorem Mentions.isAdmissible {b : Blob} (h : Mentions b m) : m.isAdmissible = true := by
  obtain ⟨names, hnames, hm⟩ := h
  exact ClassFile.isAdmissible_of_mem_references hnames hm

/-- What the phase adds: the names that fetched classes and strays mention. -/
theorem mem_directReferencePhase (h : s.provider.Concatenates) :
    m ∈ (directReferencePhase s d j).1.closure ↔
      m ∈ d.closure ∨ (∃ b ∈ fetched s d j, Mentions b m) ∨ ∃ b ∈ strays s d j, Mentions b m := by
  have hasked : (∃ b ∈ (s.provider.ask d.closure.toList j).1, Mentions b m) ↔
      (∃ b ∈ fetched s d j, Mentions b m) ∨ ∃ b ∈ strays s d j, Mentions b m := by
    simp only [← (fetched_append_strays_perm h).mem_iff, List.mem_append, or_and_right, exists_or]
  rw [(gains_directReferencePhase s d j).closure, ← hasked]
  refine or_congr_right ⟨fun ⟨⟨_, hm⟩, _⟩ => hm, fun hm => ⟨⟨?_, hm⟩, ?_⟩⟩
  · obtain ⟨b, hb, -⟩ := hm
    rw [ask_members h] at hb
    obtain ⟨n, hn, -⟩ := List.mem_flatMap.mp hb
    exact List.isEmpty_eq_false_iff_exists_mem.mpr ⟨n, hn⟩
  · obtain ⟨b, -, hb⟩ := hm
    exact hb.isAdmissible

theorem referenced_directReferencePhase :
    m ∈ (directReferencePhase s d j).1.referenced ↔
      m ∈ d.referenced ∨ m ∈ (directReferencePhase s d j).1.closure ∧ m ∉ d.closure := by
  have hgains := gains_directReferencePhase s d j
  rw [hgains.referenced, hgains.closure]
  refine or_congr_right ⟨fun ⟨hm, ha, hd⟩ => ⟨Or.inr ⟨hm, ha⟩, hd⟩, fun ⟨hm, hd⟩ => ?_⟩
  obtain ⟨hm, ha⟩ := hm.resolve_left hd
  exact ⟨hm, ha, hd⟩

/-- **Where one request for all members agrees with a request for each.** If a provider answers name
by name, the second phase adds the names that the classes mention which are fetched for the members,
and those that strays mention. So the phase adds what fetched classes alone would add exactly if the
strays mention nothing else that is new; and it is given the fetched classes alone exactly if there
are no strays. -/
theorem directReferencePhase_agrees_iff (h : s.provider.Concatenates) (d : Draft) (j : Journal) :
    let added := (directReferencePhase s d j).1
    (∀ m, m ∈ added.closure ↔ m ∈ d.closure ∨
      (∃ b ∈ fetched s d j, Mentions b m) ∨ ∃ b ∈ strays s d j, Mentions b m) ∧
    (∀ m, m ∈ added.referenced ↔ m ∈ d.referenced ∨ m ∈ added.closure ∧ m ∉ d.closure) ∧
    ((∀ m, m ∈ added.closure ↔ m ∈ d.closure ∨ ∃ b ∈ fetched s d j, Mentions b m) ↔
      ∀ b ∈ strays s d j, ∀ m, Mentions b m →
        m ∈ d.closure ∨ ∃ b ∈ fetched s d j, Mentions b m) ∧
    ((s.provider.ask d.closure.toList j).1 = fetched s d j ↔ strays s d j = []) := by
  intro added
  have hadded : ∀ m, m ∈ added.closure ↔ m ∈ d.closure ∨
      (∃ b ∈ fetched s d j, Mentions b m) ∨ ∃ b ∈ strays s d j, Mentions b m :=
    fun m => mem_directReferencePhase h
  refine ⟨hadded, fun m => referenced_directReferencePhase, ?_, ask_members_eq_iff h⟩
  constructor
  · exact fun hagree b hb m hm => (hagree m).mp ((hadded m).mpr (Or.inr (Or.inr ⟨b, hb, hm⟩)))
  · intro hnothing m
    rw [hadded m]
    constructor
    · rintro (hm | hm | ⟨b, hb, hm⟩)
      · exact Or.inl hm
      · exact Or.inr hm
      · exact hnothing b hb m hm
    · exact Or.imp_right Or.inl

/-! ## Two strays -/

/-- A class `A` without a super class. -/
def plainClass : Assembly.ClassSpec := { name := "A", superClass := none }

/-- A class `A` with the super class `S`. -/
def extendingClass : Assembly.ClassSpec := { name := "A", superClass := some "S" }

/-- Who asks for `A` is given two classes, of the names `A` and `B`. -/
def twoFor (a b : Assembly.ClassSpec) : Setting where
  provider := .ofList [(⟨"A"⟩, ⟨⟨"A"⟩, a.bytes⟩), (⟨"A"⟩, ⟨⟨"B"⟩, b.bytes⟩)] []
  logging := {}
  alwaysAvailable := defaultAvailable

/-- The closure with the member `A`. -/
def ofA : Draft := { closure := .ofList [⟨"A"⟩] }

theorem strays_twoFor (a b : Assembly.ClassSpec) :
    strays (twoFor a b) ofA {} = [⟨⟨"B"⟩, b.bytes⟩] := rfl

theorem eq_of_mentions_plainClass {n : TypeName} (h : Mentions ⟨n, plainClass.bytes⟩ m) :
    m = ⟨"A"⟩ := by
  have hread : ClassFile.referencesOf plainClass.bytes = .ok (.ofList [⟨"A"⟩]) := by decide +kernel
  obtain ⟨names, hnames, hm⟩ := h
  cases hread.symm.trans hnames
  exact List.mem_singleton.mp (SortedSet.mem_ofList.mp hm)

/-- The stray is an older version of the class, from before it had a super class. -/
theorem directReferencePhase_agrees_iff_older :
    let s := twoFor extendingClass plainClass
    s.provider.Concatenates ∧ strays s ofA {} = [⟨⟨"B"⟩, plainClass.bytes⟩] ∧
      (∀ m, m ∈ (directReferencePhase s ofA {}).1.closure ↔
        m ∈ ofA.closure ∨ ∃ b ∈ fetched s ofA {}, Mentions b m) := by
  intro s
  have hs : s.provider.Concatenates := Provider.concatenates_ofList _ _
  obtain ⟨-, -, hagree, -⟩ := directReferencePhase_agrees_iff hs ofA {}
  refine ⟨hs, strays_twoFor _ _, hagree.mpr fun b hb m hm => Or.inl ?_⟩
  cases List.mem_singleton.mp hb
  rw [eq_of_mentions_plainClass hm]
  decide

/-- **A stray that refers to more**: its super class becomes a member, though no class that is
fetched for a member mentions it. -/
theorem directReferencePhase_stray :
    let s := twoFor plainClass extendingClass
    s.provider.Concatenates ∧
      ⟨"S"⟩ ∈ (directReferencePhase s ofA {}).1.closure ∧ ⟨"S"⟩ ∉ ofA.closure ∧
      ∀ b ∈ fetched s ofA {}, ¬ Mentions b ⟨"S"⟩ := by
  refine ⟨Provider.concatenates_ofList _ _, by decide +kernel, by decide, fun b hb hm => ?_⟩
  cases List.mem_singleton.mp hb
  exact absurd (eq_of_mentions_plainClass hm) (by decide)

end Closure.Draft

end VirtualClasspath
