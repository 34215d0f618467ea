import VirtualClasspath.Proofs.Closure.Phases
import VirtualClasspath.Proofs.Logging.Discreet

/-!
# A closure does not depend on the log settings

Each step of a closure and each of its phases is discreet: which names are added and which classes
are asked for has nothing to do with the messages that are wanted.
-/

namespace VirtualClasspath.Closure

/-- The setting with other log settings. -/
def Setting.withLogging (s : Setting) (logging : LogSettings) : Setting := { s with logging }

namespace Draft

variable {s : Setting}

/-! ## Steps -/

theorem discreet_add (phase : Phase) (d : Draft) (n : TypeName) :
    Discreet fun t => d.add t phase n := by
  unfold add
  cases d.closure.admits n with
  | true => exact (discreet_report _).bind fun _ => discreet_pure _
  | false => exact discreet_pure d

theorem discreet_skip (d : Draft) (n : TypeName) (e : CompileError) :
    Discreet fun t => d.skip t n e :=
  (discreet_report _).bind fun _ => discreet_pure _

theorem discreet_addReference (d : Draft) (n : TypeName) :
    Discreet fun t => d.addReference t n := by
  refine (discreet_add .directReference d n).bind fun e => ?_
  exact discreet_pure _

/-! ## Nest groups and references -/

theorem discreet_addNestGroup (source : TypeName) (d : Draft) (b : Blob) :
    Discreet fun t => addNestGroup (s.withLogging t) source d b := by
  refine (Nest.discreet_groupOf b).bind fun r => ?_
  cases r with
  | ok group => exact DiscreetTo.foldlM (discreet_add .nestGroup) group.toList d
  | error e => exact discreet_skip d source _

theorem discreet_addSource (d : Draft) (u : SourceUnit) :
    Discreet fun t => addSource (s.withLogging t) d u :=
  (discreet_fetch s.provider u.name).bind fun bs =>
    DiscreetTo.foldlM (discreet_addNestGroup u.name) bs (d.withSource u.name)

theorem discreet_nestGroupPhase (sources : List SourceUnit) (d : Draft) :
    Discreet fun t => nestGroupPhase (s.withLogging t) sources d :=
  DiscreetTo.foldlM discreet_addSource sources d

theorem discreet_addReferences (d : Draft) (b : Blob) :
    Discreet fun t => addReferences (s.withLogging t) d b := by
  unfold addReferences
  cases ClassFile.referencesOf b.bytes with
  | ok names => exact DiscreetTo.foldlM discreet_addReference names.toList d
  | error fault => exact discreet_skip d b.name _

theorem discreet_directReferencePhase (d : Draft) :
    Discreet fun t => directReferencePhase (s.withLogging t) d := by
  unfold directReferencePhase
  cases d.closure.isEmpty with
  | true => exact discreet_pure d
  | false =>
    refine (discreet_ask s.provider d.closure.toList).bind fun bs => ?_
    exact DiscreetTo.foldlM discreet_addReferences bs d

/-! ## The walk outward -/

theorem discreet_addOuter (n : TypeName) (state : Draft × SortedSet TypeName) (b : Blob) :
    Discreet fun t => addOuter (s.withLogging t) n state b := by
  cases hb : ClassFile.parse b.bytes with
  | error fault =>
    simp only [addOuter, hb]
    exact (discreet_skip state.1 n _).bind fun _ => discreet_pure _
  | ok c =>
    cases hc : c.outerOf with
    | none =>
      simp only [addOuter, hb, hc]
      exact discreet_pure state
    | some outer =>
      simp only [addOuter, hb, hc]
      exact (discreet_add .outerChain state.1 outer).bind fun _ => discreet_pure _

theorem discreet_walk (d : Draft) (pending walked : SortedSet TypeName) :
    Discreet fun t => walk (s.withLogging t) d pending walked := by
  refine discreet_of fun t start quiet loud h => ?_
  generalize hs : s.withLogging t = s'
  fun_induction walk s' d pending walked quiet generalizing loud with
  | case1 d pending walked quiet hp =>
    rw [walk_of_none hp]
    exact ⟨rfl, h⟩
  | case2 d pending walked quiet n hp hw ih =>
    rw [walk_of_walked hp hw]
    exact ih loud h
  | case3 d pending walked quiet n hp hw ha ih =>
    subst hs
    rw [walk_of_available (s := s.withLogging .verbose) hp hw ha]
    exact ih loud h
  | case4 d pending walked quiet n hp hw ha quiet₁ hf ih =>
    subst hs
    obtain ⟨loud₁, hf', h₁⟩ := (discreet_fetch s.provider n).step h hf
    rw [walk_of_found (s := s.withLogging .verbose) hp hw ha hf']
    exact ih loud₁ h₁
  | case5 d pending walked quiet n hp hw ha b bs quiet₁ hf e next quiet₂ hfold ih =>
    subst hs
    obtain ⟨loud₁, hf', h₁⟩ := (discreet_fetch s.provider n).step h hf
    obtain ⟨loud₂, hfold', h₂⟩ := Discreet.step
      (DiscreetTo.foldlM (discreet_addOuter (s := s) n) (b :: bs) (d, pending.erase n)) h₁ hfold
    rw [walk_of_found (s := s.withLogging .verbose) hp hw ha hf', hfold']
    exact ih loud₂ h₂

theorem discreet_outerChainPhase (d : Draft) :
    Discreet fun t => outerChainPhase (s.withLogging t) d :=
  discreet_walk d d.referenced ∅

theorem discreet_finish (d : Draft) : Discreet fun t => d.finish t :=
  (discreet_report _).bind fun _ => (discreet_report _).bind fun _ => discreet_pure d.result

end Draft

/-- **The closure of sources** has the same names under all settings. -/
theorem discreet_compute (s : Setting) (sources : List SourceUnit) :
    Discreet fun t => compute (s.withLogging t) sources :=
  (Draft.discreet_nestGroupPhase sources {}).bind fun d =>
    (Draft.discreet_directReferencePhase d).bind fun d =>
      (Draft.discreet_outerChainPhase d).bind Draft.discreet_finish

end VirtualClasspath.Closure
