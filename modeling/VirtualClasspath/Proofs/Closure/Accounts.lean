import VirtualClasspath.Proofs.Closure.Exact
import VirtualClasspath.Proofs.Closure.Moves
import VirtualClasspath.Proofs.Sorted
import VirtualClasspath.Proofs.Text

/-!
# A closure and the accounts of it

A draft keeps accounts of its closure: which names count as references, how many names each phase has
added, and, when the details of the extraction are wanted, a message for each name. The phases can be
called in any order and as often as one likes, with any sources: the accounts are right after every
call (`Accounts`), and neither the closure nor the references ever lose a name (`Grows`).

What the messages say is read back from their texts. No beginning of such a message is the beginning
of another (`eq_of_addedText_begins`), so `announced?` recovers the phase and the name, whatever
characters the name is made of.

Both hold because each `Move` keeps them, and calls make nothing but moves.
-/

namespace VirtualClasspath

theorem ClosureSet.size_insert {c : ClosureSet} {n : TypeName} (h : c.admits n = true) :
    (c.insert n).size = c.size + 1 := by
  obtain ⟨hadm, hnew⟩ := admits_iff.mp h
  rw [insert, dif_pos hadm]
  exact SortedSet.size_insert hnew

namespace Closure

/-! ## What messages say -/

/-- What the message about an added name says before the name. -/
def addedText (phase : Phase) : String :=
  "Adding class to classpath listing (" ++ phase.text ++ "): "

/-- The phase and the name, if the message says that a name was added. -/
def announced? (m : Message) : Option (Phase × TypeName) :=
  if m.category = .extractionDetailed then
    [Phase.nestGroup, .directReference, .outerChain].findSome? fun phase =>
      (Text.stripBeginning? (addedText phase) m.text).map fun name => (phase, ⟨name⟩)
  else none

/-- The names that messages say were added, each with the phase. -/
def announced (ms : List Message) : List (Phase × TypeName) := ms.filterMap announced?

/-- The first letter of what messages call a phase; no two phases share it. -/
def Phase.initial : Phase → Char
  | nestGroup => 'n'
  | directReference => 'd'
  | outerChain => 'e'

theorem Phase.head?_text (phase : Phase) : phase.text.toList.head? = some phase.initial := by
  cases phase <;> decide +kernel

theorem addedText_toList (phase : Phase) :
    (addedText phase).toList =
      "Adding class to classpath listing (".toList ++ (phase.text.toList ++ "): ".toList) := by
  unfold addedText
  rw [String.toList_append, String.toList_append, List.append_assoc]

theorem eq_of_addedText_begins {phase phase' : Phase}
    (h : (addedText phase).toList <+: (addedText phase').toList) : phase = phase' := by
  rw [addedText_toList, addedText_toList, List.prefix_append_right_inj] at h
  obtain ⟨rest, hr⟩ := h
  have hhead := congrArg List.head? hr
  simp only [List.append_assoc, List.head?_append, Phase.head?_text, Option.some_or,
    Option.some.injEq] at hhead
  revert hhead
  cases phase <;> cases phase' <;> decide

theorem stripBeginning?_addedMessage (phase phase' : Phase) (n : TypeName) :
    Text.stripBeginning? (addedText phase') (addedMessage phase n).text =
      if phase' = phase then some n.text else none := by
  have htext : (addedMessage phase n).text.toList = (addedText phase).toList ++ n.text.toList :=
    String.toList_append
  split
  · rename_i h
    rw [Text.stripBeginning?_eq_some_iff, htext, h]
  · rename_i h
    exact Text.stripBeginning?_eq_none_of_apart htext (fun hp => h (eq_of_addedText_begins hp))
      fun hp => h (eq_of_addedText_begins hp).symm

/-- The message about an added name can be read back. -/
theorem announced?_addedMessage (phase : Phase) (n : TypeName) :
    announced? (addedMessage phase n) = some (phase, n) := by
  have hcat : (addedMessage phase n).category = .extractionDetailed := rfl
  simp only [announced?, hcat, if_true, List.findSome?_cons, stripBeginning?_addedMessage]
  cases phase <;> rfl

theorem announced?_skippedMessage (n : TypeName) (e : CompileError) :
    announced? (skippedMessage n e) = none := by
  have hadded : "Adding class to classpath listing (".toList.head? = some 'A' := by decide +kernel
  have hskipped : "Skipping dependency ".toList.head? = some 'S' := by decide +kernel
  have hno : ∀ phase, Text.stripBeginning? (addedText phase) (skippedMessage n e).text = none := by
    intro phase
    rw [Text.stripBeginning?_eq_none_iff]
    intro tail ht
    have hhead := congrArg List.head? ht
    simp only [skippedMessage, String.toList_append, addedText_toList, List.append_assoc,
      List.head?_append, hadded, hskipped, Option.some_or, Option.some.injEq] at hhead
    exact absurd hhead (by decide)
  simp only [announced?, hno, Option.map_none, List.findSome?_cons, List.findSome?_nil, ite_self]

/-! ## The accounts -/

/-- What was sent while a closure was built says of each member once that it was added, as often for
each phase as the phase has added names, and besides only that classes were skipped. -/
structure Told (c : ClosureSet) (added : Tally) (sent : List Message) : Prop where
  once : ∀ n, ((announced sent).map Prod.snd).count n = if n ∈ c then 1 else 0
  phases : ∀ phase, (announced sent).countP (·.1 = phase) = added.count phase
  others : ∀ m ∈ sent, (announced? m).isSome = true ∨ ∃ n e, m = skippedMessage n e

namespace Told

variable {c : ClosureSet} {t : Tally} {sent : List Message} {n : TypeName}

theorem empty : Told ∅ {} [] where
  once n := by rw [if_neg ClosureSet.not_mem_empty]; rfl
  phases phase := by cases phase <;> rfl
  others _ h := absurd h List.not_mem_nil

theorem add (h : Told c t sent) (phase : Phase) (hn : c.admits n = true) :
    Told (c.insert n) (t.bump phase) (sent ++ [addedMessage phase n]) := by
  obtain ⟨hadm, hnew⟩ := ClosureSet.admits_iff.mp hn
  have hlog : announced (sent ++ [addedMessage phase n]) = announced sent ++ [(phase, n)] := by
    rw [announced, List.filterMap_append, List.filterMap_cons, announced?_addedMessage]
    rfl
  refine ⟨fun k => ?_, fun p => ?_, fun m hm => ?_⟩
  · rw [hlog, List.map_append, List.count_append, h.once]
    by_cases hk : k = n
    · subst hk
      simp [ClosureSet.mem_insert, hnew, hadm]
    · simp [ClosureSet.mem_insert, hk, Ne.symm hk]
  · rw [hlog, List.countP_append, h.phases]
    cases phase <;> cases p <;> rfl
  · rcases List.mem_append.mp hm with hm | hm
    · exact h.others m hm
    · rw [List.mem_singleton.mp hm, announced?_addedMessage]
      exact Or.inl rfl

theorem skip (h : Told c t sent) (n : TypeName) (e : CompileError) :
    Told c t (sent ++ [skippedMessage n e]) := by
  have hlog : announced (sent ++ [skippedMessage n e]) = announced sent := by
    rw [announced, List.filterMap_append, List.filterMap_cons, announced?_skippedMessage]
    exact List.append_nil _
  refine ⟨fun k => ?_, fun p => ?_, fun m hm => ?_⟩
  · rw [hlog, h.once]
  · rw [hlog, h.phases]
  · rcases List.mem_append.mp hm with hm | hm
    · exact h.others m hm
    · exact Or.inr ⟨n, e, List.mem_singleton.mp hm⟩

end Told

/-- The accounts of a draft are right, for a builder that was made when the journal was `before`. -/
structure Accounts (logging : LogSettings) (before : Journal) (d : Draft) (j : Journal) : Prop where
  admissible : ∀ n ∈ d.closure, n.isAdmissible = true
  referenced : ∀ n ∈ d.referenced, n ∈ d.closure
  total : d.added.total = d.closure.size
  told : logging.enables .extractionDetailed = true →
    ∃ sent, j.messages.toList = before.messages.toList ++ sent ∧ Told d.closure d.added sent

/-- The second draft has every name of the first. -/
structure Grows (d e : Draft) : Prop where
  closure : ∀ n ∈ d.closure, n ∈ e.closure
  referenced : ∀ n ∈ d.referenced, n ∈ e.referenced

namespace Grows

variable {d e f : Draft}

theorem of_eq (hc : e.closure = d.closure) (hr : e.referenced = d.referenced) : Grows d e :=
  ⟨fun _ hm => hc ▸ hm, fun _ hm => hr ▸ hm⟩

theorem trans (h : Grows d e) (h' : Grows e f) : Grows d f :=
  ⟨fun n hn => h'.closure n (h.closure n hn), fun n hn => h'.referenced n (h.referenced n hn)⟩

end Grows

theorem Tally.total_bump (t : Tally) (phase : Phase) : (t.bump phase).total = t.total + 1 := by
  unfold total
  cases phase <;> simp only [bump] <;> omega

section Moves

variable {logging : LogSettings} {before : Journal} {x y : Draft × Journal}

theorem Accounts.new (logging : LogSettings) (j : Journal) : Accounts logging j {} j where
  admissible _ h := absurd h ClosureSet.not_mem_empty
  referenced _ h := absurd h SortedSet.not_mem_empty
  total := rfl
  told _ := ⟨[], (List.append_nil _).symm, .empty⟩

/-- **A move keeps the accounts right.** -/
theorem Accounts.move (h : Accounts logging before x.1 x.2) (hm : Move logging x y) :
    Accounts logging before y.1 y.2 := by
  cases hm with
  | @add d j phase n hn =>
    refine ⟨(d.closure.insert n).admissible, fun m hr => ?_, ?_, fun hl => ?_⟩
    · exact ClosureSet.mem_insert.mpr (Or.inl (h.referenced m hr))
    · rw [ClosureSet.size_insert hn, Tally.total_bump, h.total]
    · obtain ⟨sent, hj, ht⟩ := h.told hl
      refine ⟨_, ?_, ht.add phase hn⟩
      rw [messages_report_of_enables hl, hj, List.append_assoc]
  | @refer d j n hn =>
    refine ⟨h.admissible, fun m hr => ?_, h.total, h.told⟩
    rcases SortedSet.mem_insert.mp hr with rfl | hr
    · exact hn
    · exact h.referenced m hr
  | @skip d j n e =>
    refine ⟨h.admissible, h.referenced, h.total, fun hl => ?_⟩
    obtain ⟨sent, hj, ht⟩ := h.told hl
    refine ⟨_, ?_, ht.skip n e⟩
    rw [messages_report_of_enables hl, hj, List.append_assoc]
  | @source d j n =>
    unfold Draft.withSource
    split
    · exact h
    · exact ⟨h.admissible, h.referenced, h.total, h.told⟩
  | @ask d j j' hj => exact ⟨h.admissible, h.referenced, h.total, hj ▸ h.told⟩

theorem Accounts.moves (h : Accounts logging before x.1 x.2) (hm : Moves logging x y) :
    Accounts logging before y.1 y.2 := by
  induction hm with
  | refl => exact h
  | tail _ hm ih => exact ih.move hm

/-- **A move loses no name.** -/
theorem Move.grows (hm : Move logging x y) : Grows x.1 y.1 := by
  cases hm with
  | add phase hn => exact ⟨fun _ hm => ClosureSet.mem_insert.mpr (Or.inl hm), fun _ hm => hm⟩
  | refer hn => exact ⟨fun _ hm => hm, fun _ hm => SortedSet.mem_insert.mpr (Or.inr hm)⟩
  | skip n e => exact .of_eq rfl rfl
  | source n =>
    unfold Draft.withSource
    split
    · exact .of_eq rfl rfl
    · exact .of_eq rfl rfl
  | ask hj => exact .of_eq rfl rfl

theorem Moves.grows (hm : Moves logging x y) : Grows x.1 y.1 := by
  induction hm with
  | refl => exact .of_eq rfl rfl
  | tail _ hm ih => exact ih.trans hm.grows

end Moves

/-! ## Calls -/

/-- A call to a builder. -/
inductive PhaseCall
  | nestGroup (sources : List SourceUnit)
  | directReference
  | outerChain

namespace Draft

variable {s : Setting} {d : Draft} {j : Journal}

/-- The draft after a call. -/
def call (s : Setting) (d : Draft) : PhaseCall → Session Draft
  | .nestGroup sources => d.nestGroupPhase s sources
  | .directReference => d.directReferencePhase s
  | .outerChain => d.outerChainPhase s

/-- The draft of a new builder after calls, one after the other. -/
def afterCalls (s : Setting) (calls : List PhaseCall) : Session Draft := calls.foldlM (call s) {}

theorem moves_call (c : PhaseCall) : Moves s.logging (d, j) (call s d c j) := by
  cases c with
  | nestGroup sources => exact moves_nestGroupPhase sources
  | directReference => exact moves_directReferencePhase
  | outerChain => exact moves_outerChainPhase

theorem moves_calls (calls : List PhaseCall) :
    Moves s.logging (d, j) (calls.foldlM (call s) d j) :=
  moves_foldlM id (fun _ c _ => moves_call c) calls d j

/-- For the classes of a map, the first two phases come to the nested members and what they refer
to. -/
theorem mem_afterCalls_two {m : ClassMap} {logging : LogSettings} {always : SortedSet TypeName}
    {sources : List SourceUnit} {n : TypeName} :
    n ∈ (afterCalls ⟨.ofMap m, logging, always⟩ [.nestGroup sources, .directReference] j).1.closure ↔
      n ∈ Nested m (sourceNames sources) ∨ n ∈ Referenced m (sourceNames sources) := by
  rw [afterCalls, foldlM_cons_run, foldlM_cons_run]
  exact (mem_afterReferences rfl).1 n

/-- **The accounts of a closure are right** after any calls, in any order and repeated at will, and
further calls lose no name. -/
theorem accounts_afterCalls (s : Setting) (calls more : List PhaseCall) (j : Journal) :
    Accounts s.logging j (afterCalls s calls j).1 (afterCalls s calls j).2 ∧
      Grows (afterCalls s calls j).1 (afterCalls s (calls ++ more) j).1 := by
  refine ⟨(Accounts.new s.logging j).moves (x := ({}, j)) (moves_calls calls), ?_⟩
  have happend : afterCalls s (calls ++ more) j =
      more.foldlM (call s) (afterCalls s calls j).1 (afterCalls s calls j).2 := by
    rw [afterCalls, List.foldlM_append, bind_run]
    rfl
  rw [happend]
  exact (moves_calls (d := (afterCalls s calls j).1) (j := (afterCalls s calls j).2) more).grows

/-- A builder that asks for the classes of a source with a nested member, every message wanted. -/
def inHousehold : Setting := ⟨.ofMap household, .verbose, defaultAvailable⟩

/-- The calls that bring in the member and its super class. -/
def bringingIn : List PhaseCall := [.nestGroup threeSources, .directReference]

/-- Further calls, for fewer sources. -/
def fewerSources : List PhaseCall := [.outerChain, .nestGroup twoSources, .directReference]

/-- The accounts are those of a closure with both names, and the further calls lose neither. -/
theorem accounts_afterCalls_household :
    ⟨"N$I"⟩ ∈ (afterCalls inHousehold bringingIn {}).1.closure ∧
      ⟨"S"⟩ ∈ (afterCalls inHousehold bringingIn {}).1.closure ∧
      Accounts .verbose {} (afterCalls inHousehold bringingIn {}).1
        (afterCalls inHousehold bringingIn {}).2 ∧
      Grows (afterCalls inHousehold bringingIn {}).1
        (afterCalls inHousehold (bringingIn ++ fewerSources) {}).1 := by
  have hn : ⟨"N"⟩ ∈ sourceNames threeSources := ⟨_, List.mem_cons_self, rfl⟩
  have hsuper : ⟨"S"⟩ ∈ Nested household (sourceNames threeSources) ∨
      ⟨"S"⟩ ∈ Referenced household (sourceNames threeSources) := by
    by_cases hs : ⟨"S"⟩ ∈ Nested household (sourceNames threeSources)
    · exact Or.inl hs
    · exact Or.inr ⟨hs, mem_mentioned_household hn⟩
  have hclosure (n : TypeName) : n ∈ (afterCalls inHousehold bringingIn {}).1.closure ↔
      n ∈ Nested household (sourceNames threeSources) ∨
        n ∈ Referenced household (sourceNames threeSources) := by
    rw [inHousehold, bringingIn, mem_afterCalls_two]
  exact ⟨(hclosure _).mpr (Or.inl (mem_nested_household hn)), (hclosure _).mpr hsuper,
    accounts_afterCalls inHousehold bringingIn fewerSources {}⟩

end Draft

end Closure

end VirtualClasspath
