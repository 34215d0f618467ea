import Mathlib.Logic.Relation
import VirtualClasspath.Proofs.Closure.Phases

/-!
# The moves of a closure under construction

The phases of a closure are loops within loops, each with a way out for classes that cannot be read.
All that they do to the draft and to the messages is made of five kinds of `Move`: a new name is
added and said to be, a member is noted as a reference, a class is skipped and said to be, a source
is noted, or classes are asked for. `moves_nestGroupPhase`, `moves_directReferencePhase` and
`moves_outerChainPhase` say so, from one lemma for each function on the way. What is to hold of a
draft at all times is then to be shown of the moves only.
-/

namespace VirtualClasspath

/-! ## Requests send no messages -/

namespace Nest

variable {p : Provider}

theorem messages_findClass (n : TypeName) (j : Journal) :
    (findClass p n j).2.messages = j.messages := by
  have hfetch : (p.fetch n j).2.messages = j.messages := rfl
  unfold findClass
  split
  · rename_i hf
    rwa [hf] at hfetch
  · rename_i hf
    rwa [hf] at hfetch

theorem messages_classFor (known : SortedMap TypeName ClassFile) (n : TypeName) (j : Journal) :
    (classFor p known n j).2.messages = j.messages := by
  unfold classFor
  split
  · rfl
  · exact messages_findClass n j

theorem messages_climb (a : Ascent) (outer : Option TypeName) (j : Journal) :
    (climb p a outer j).2.messages = j.messages := by
  fun_induction climb p a outer j with
  | case1 => rfl
  | case2 => rfl
  | case3 a j n hs e j₁ hf => exact (congrArg (·.2.messages) hf).symm.trans (messages_findClass n j)
  | case4 a j n hs j₁ hf => exact (congrArg (·.2.messages) hf).symm.trans (messages_findClass n j)
  | case5 a j n hs c j₁ hf ih =>
    exact ih.trans ((congrArg (·.2.messages) hf).symm.trans (messages_findClass n j))

theorem messages_descend (known : SortedMap TypeName ClassFile) (group : SortedSet TypeName)
    (queue : List TypeName) (j : Journal) :
    (descend p known group queue j).2.messages = j.messages := by
  fun_induction descend p known group queue j with
  | case1 => rfl
  | case2 group j n rest e j₁ hf =>
    exact (congrArg (·.2.messages) hf).symm.trans (messages_classFor known n j)
  | case3 group j n rest j₁ hf ih =>
    exact ih.trans ((congrArg (·.2.messages) hf).symm.trans (messages_classFor known n j))
  | case4 group j n rest c j₁ hf fresh ih =>
    exact ih.trans ((congrArg (·.2.messages) hf).symm.trans (messages_classFor known n j))

theorem messages_groupOf (start : Blob) (j : Journal) :
    (groupOf p start j).2.messages = j.messages := by
  unfold groupOf
  cases parseBlob start with
  | error e => rfl
  | ok c =>
    have hclimb := messages_climb (p := p)
      ⟨start.name, (∅ : SortedMap TypeName ClassFile).insert start.name c⟩ c.outerOf j
    dsimp only
    split
    · rename_i hf
      rwa [hf] at hclimb
    · rename_i hf
      rw [hf] at hclimb
      exact (messages_descend _ _ _ _).trans hclimb

end Nest

namespace Closure

/-- One change that a phase makes to the draft and to what was exchanged. -/
inductive Move (logging : LogSettings) : Draft × Journal → Draft × Journal → Prop
  /-- A new name is added, and said to be. -/
  | add {d : Draft} {j : Journal} (phase : Phase) {n : TypeName} (h : d.closure.admits n = true) :
    Move logging (d, j)
      ({ d with closure := d.closure.insert n, added := d.added.bump phase },
        (report logging (addedMessage phase n) j).2)
  /-- A member is noted as a reference. -/
  | refer {d : Draft} {j : Journal} {n : TypeName} (h : n ∈ d.closure) :
    Move logging (d, j) ({ d with referenced := d.referenced.insert n }, j)
  /-- A class is skipped, and said to be. -/
  | skip {d : Draft} {j : Journal} (n : TypeName) (e : CompileError) :
    Move logging (d, j)
      ({ d with skipped := d.skipped + 1 }, (report logging (skippedMessage n e) j).2)
  /-- A source is noted. -/
  | source {d : Draft} {j : Journal} (n : TypeName) : Move logging (d, j) (d.withSource n, j)
  /-- Classes are asked for. -/
  | ask {d : Draft} {j j' : Journal} (h : j'.messages = j.messages) : Move logging (d, j) (d, j')

/-- Any number of moves. -/
abbrev Moves (logging : LogSettings) : Draft × Journal → Draft × Journal → Prop :=
  Relation.ReflTransGen (Move logging)

namespace Draft

variable {logging : LogSettings} {phase : Phase} {d : Draft} {n : TypeName} {j : Journal}

/-- A loop makes the moves of its rounds. `draft` is what a round makes moves with: all that it goes
on with, or a part of it. -/
theorem moves_foldlM {α β : Type} (draft : β → Draft) {f : β → α → Session β}
    (step : ∀ b a j, Moves logging (draft b, j) (draft (f b a j).1, (f b a j).2)) (l : List α)
    (b : β) (j : Journal) :
    Moves logging (draft b, j) (draft (l.foldlM f b j).1, (l.foldlM f b j).2) := by
  induction l generalizing b j with
  | nil => exact .refl
  | cons a l ih =>
    rw [foldlM_cons_run]
    exact (step b a j).trans (ih _ _)

/-! ## Steps -/

theorem moves_add : Moves logging (d, j) (d.add logging phase n j) := by
  unfold add
  split
  · rename_i h
    exact .single (.add phase h)
  · exact .refl

theorem moves_skip {e : CompileError} : Moves logging (d, j) (d.skip logging n e j) :=
  .single (.skip n e)

theorem moves_fetch (p : Provider) : Moves logging (d, j) (d, (p.fetch n j).2) :=
  .single (.ask rfl)

theorem moves_addReference : Moves logging (d, j) (d.addReference logging n j) := by
  have hadd : Moves logging (d, j) (d.add logging .directReference n j) := moves_add
  unfold addReference
  rw [bind_run]
  split
  · rename_i h
    exact hadd.trans (.single (.refer (mem_add.mpr (Or.inr ⟨rfl, (ClosureSet.admits_iff.mp h).1⟩))))
  · exact hadd

/-! ## Phases -/

variable {s : Setting}

theorem moves_addNestGroup (source : TypeName) (b : Blob) :
    Moves s.logging (d, j) (addNestGroup s source d b j) := by
  have hask : Moves s.logging (d, j) (d, (Nest.groupOf s.provider b j).2) :=
    .single (.ask (Nest.messages_groupOf b j))
  unfold addNestGroup
  rw [bind_run]
  cases (Nest.groupOf s.provider b j).1 with
  | ok group => exact hask.trans (moves_foldlM id (fun _ _ _ => moves_add) _ _ _)
  | error e => exact hask.trans moves_skip

theorem moves_addSource (u : SourceUnit) : Moves s.logging (d, j) (addSource s d u j) := by
  have hfetch : Moves s.logging (d, j) (d, (s.provider.fetch u.name j).2) := moves_fetch _
  unfold addSource
  rw [bind_run]
  refine hfetch.trans (.trans (.single (.source u.name)) ?_)
  exact moves_foldlM id (fun _ b _ => moves_addNestGroup u.name b) _ _ _

theorem moves_nestGroupPhase (sources : List SourceUnit) :
    Moves s.logging (d, j) (nestGroupPhase s sources d j) :=
  moves_foldlM id (fun _ u _ => moves_addSource u) sources d j

theorem moves_addReferences (b : Blob) : Moves s.logging (d, j) (addReferences s d b j) := by
  unfold addReferences
  cases ClassFile.referencesOf b.bytes with
  | ok names => exact moves_foldlM id (fun _ _ _ => moves_addReference) _ _ _
  | error fault => exact moves_skip

theorem moves_directReferencePhase : Moves s.logging (d, j) (directReferencePhase s d j) := by
  unfold directReferencePhase
  split
  · exact .refl
  · have hask : Moves s.logging (d, j) (d, (s.provider.ask d.closure.toList j).2) :=
      .single (.ask rfl)
    rw [bind_run]
    exact hask.trans (moves_foldlM id (fun _ b _ => moves_addReferences b) _ _ _)

theorem moves_addOuter (t : Draft × SortedSet TypeName) (b : Blob) :
    Moves s.logging (t.1, j) ((addOuter s n t b j).1.1, (addOuter s n t b j).2) := by
  cases hb : ClassFile.parse b.bytes with
  | error fault =>
    simp only [addOuter, hb]
    exact moves_skip
  | ok c =>
    cases hc : c.outerOf with
    | none =>
      simp only [addOuter, hb, hc]
      exact .refl
    | some outer =>
      simp only [addOuter, hb, hc]
      exact moves_add

theorem moves_walk (pending walked : SortedSet TypeName) :
    Moves s.logging (d, j) (walk s d pending walked j) := by
  fun_induction walk s d pending walked j with
  | case1 => exact .refl
  | case2 d pending walked j n hp hw ih => exact ih
  | case3 d pending walked j n hp hw ha ih => exact ih
  | case4 d pending walked j n hp hw ha j₁ hf ih =>
    have hfetch : Moves s.logging (d, j) (d, (s.provider.fetch n j).2) := moves_fetch _
    rw [hf] at hfetch
    exact hfetch.trans ih
  | case5 d pending walked j n hp hw ha b bs j₁ hf e next j₂ hfold ih =>
    have hfetch : Moves s.logging (d, j) (d, (s.provider.fetch n j).2) := moves_fetch _
    rw [hf] at hfetch
    have hloop := moves_foldlM Prod.fst (fun t b _ => moves_addOuter (s := s) (n := n) t b)
      (b :: bs) (d, pending.erase n) j₁
    rw [hfold] at hloop
    exact hfetch.trans (hloop.trans ih)

theorem moves_outerChainPhase : Moves s.logging (d, j) (outerChainPhase s d j) :=
  moves_walk d.referenced ∅

end Draft

end Closure

end VirtualClasspath
