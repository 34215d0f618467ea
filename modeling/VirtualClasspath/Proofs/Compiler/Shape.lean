import VirtualClasspath.Compiler
import VirtualClasspath.Proofs.Compiler.Outputs

/-!
# The shape of a compilation

A compilation is a row of visits to the backend. A `Visit` is what the backend starts from: sources,
its own state, the view, the journal; `Visit.next` is what the next one starts from, when the sources
were repaired. **`compile_eq_some_iff`** says that a compilation returns exactly when there is a visit
that concludes it, all visits before having failed with some source changed; what it returns is
decided by that visit alone (`Visit.Concludes`).

* `Issue.find?_groupByUnit`: what a repairer is offered is what was reported on the unit, in order.
* `visit_recorded`: a backend that keeps the sources of its visits has those of the row.
-/

namespace VirtualClasspath

/-- **Grouping by unit** neither loses, doubles nor reorders the issues of a unit. -/
theorem Issue.find?_groupByUnit (issues : List Issue) (u : TypeName) :
    (groupByUnit issues).find? u =
      if issues.filter (fun i => i.unit = u) = [] then none
      else some (issues.filter fun i => i.unit = u) := by
  suffices ∀ m : SortedMap TypeName (List Issue),
      (issues.foldl (fun m i => m.upsert i.unit fun l => l.getD [] ++ [i]) m).find? u =
        if issues.filter (fun i => i.unit = u) = [] then m.find? u
        else some ((m.find? u).getD [] ++ issues.filter fun i => i.unit = u) by
    unfold groupByUnit
    rw [this, SortedMap.find?_empty, Option.getD_none, List.nil_append]
  induction issues with
  | nil => exact fun m => rfl
  | cons i issues ih =>
    intro m
    rw [List.foldl_cons, ih, SortedMap.find?_upsert, List.filter_cons]
    by_cases hu : i.unit = u
    · subst hu
      rw [if_pos rfl, if_pos (decide_eq_true rfl), if_neg (List.cons_ne_nil _ _)]
      by_cases hrest : issues.filter (fun k => k.unit = i.unit) = []
      · rw [if_pos hrest, hrest]
      · rw [if_neg hrest, Option.getD_some, List.append_assoc, List.singleton_append]
    · have hkeep : ¬ decide (i.unit = u) = true := by simpa using hu
      rw [if_neg (Ne.symm hu), if_neg hkeep]

/-! ## Visits -/

/-- What a compilation works with, from its first visit to its last. -/
structure Workbench (σ : Type) where
  options : Options
  repairer : Repairer
  provider : Provider
  backend : Backend σ

/-- What the services of a visit are. -/
def Workbench.services {σ : Type} (w : Workbench σ) : Services := ⟨w.provider, w.options.logging⟩

/-- What a visit to the backend starts from. -/
structure Visit (σ : Type) where
  sources : List SourceUnit
  state : σ
  view : View
  journal : Journal

namespace Visit

variable {σ : Type} (w : Workbench σ) (v : Visit σ)

/-- What the backend does when it is visited. -/
def exchange : Exchange (Except CompileError Outcome × σ) :=
  w.backend.compile v.state v.sources w.options.backendFlags

/-- What comes of it. No class has been written when the backend is visited. -/
def run : ((Except CompileError Outcome × σ) × Attempt) × Journal :=
  (v.exchange w).run w.services ⟨v.view, []⟩ v.journal

/-- What the backend says in the end. -/
def answer : Except CompileError Outcome := (v.run w).1.1.1

/-- What the backend remembers. -/
def stateAfter : σ := (v.run w).1.1.2

/-- The operations that the backend performs. -/
def operations : List Operation := (v.exchange w).operations w.services ⟨v.view, []⟩ v.journal

/-- What the backend has reported. -/
def diagnostics : List Diagnostic :=
  match v.answer w with
  | .ok outcome => outcome.diagnostics
  | .error _ => []

/-- The diagnostics that carry a unit. -/
def issues : List Issue := (v.diagnostics w).filterMap Diagnostic.toIssue?

/-- The journal with the messages about the diagnostics. -/
def reported : Journal :=
  (reportAll w.options.logging ((v.diagnostics w).map Compiler.diagnosticMessage) (v.run w).2).2

/-- The round of repairs after the visit: whether a source was changed, and the sources. -/
def repair : (Bool × List SourceUnit) × Journal :=
  repairSources w.options.logging w.repairer (Issue.groupByUnit (v.issues w)).toList v.sources
    (v.reported w)

/-- What a visit after the repairs starts from. -/
def next : Visit σ :=
  ⟨(v.repair w).1.2, v.stateAfter w, (v.run w).1.2.view, (v.repair w).2⟩

/-- The backend fails, and a source is changed. -/
def Retried : Prop :=
  (∃ outcome, v.answer w = .ok outcome ∧ outcome.success = false) ∧ (v.repair w).1.1 = true

/-- The visit is the last one, and decides the result: the classes that it has written, the issues
that it has reported when no source is changed, or an error of the backend as it is. -/
inductive Concludes : Except CompileError (List Blob) → Journal → Prop
  | succeeded {outcome : Outcome} (h : v.answer w = .ok outcome) (hs : outcome.success = true) :
    Concludes (.ok (written (v.operations w) 0))
      (reportAll w.options.logging ((written (v.operations w) 0).map Compiler.resultMessage)
        (v.reported w)).2
  | failed {outcome : Outcome} (h : v.answer w = .ok outcome) (hs : outcome.success = false)
    (hc : (v.repair w).1.1 = false) :
    Concludes (.error (.failed (v.issues w))) (v.repair w).2
  | broken {e : CompileError} (h : v.answer w = .error e) : Concludes (.error e) (v.run w).2

/-- The result that the visit decides and the journal at its end, if there is no visit after it. -/
def conclusion : Option (Except CompileError (List Blob) × Journal) :=
  match v.answer w with
  | .error e => some (.error e, (v.run w).2)
  | .ok outcome =>
    if outcome.success = true then
      some (.ok (written (v.operations w) 0),
        (reportAll w.options.logging ((written (v.operations w) 0).map Compiler.resultMessage)
          (v.reported w)).2)
    else if (v.repair w).1.1 = true then none
    else some (.error (.failed (v.issues w)), (v.repair w).2)

/-- The visits of a row that starts with `v`. -/
def nth : Nat → Visit σ
  | 0 => v
  | k + 1 => (nth k).next w

variable {w v}

theorem conclusion_eq_none_iff : v.conclusion w = none ↔ v.Retried w := by
  unfold conclusion Retried
  cases v.answer w with
  | error e => simp
  | ok outcome =>
    cases hs : outcome.success with
    | true => simp [hs]
    | false => simp [hs]

theorem conclusion_eq_some_iff {result : Except CompileError (List Blob)} {j : Journal} :
    v.conclusion w = some (result, j) ↔ v.Concludes w result j := by
  unfold conclusion
  constructor
  · intro h
    cases ha : v.answer w with
    | error e =>
      rw [ha] at h
      cases h
      exact .broken ha
    | ok outcome =>
      rw [ha] at h
      dsimp only at h
      split at h
      · rename_i hs
        cases h
        exact .succeeded ha hs
      · rename_i hs
        split at h
        · cases h
        · rename_i hc
          cases h
          exact .failed ha (Bool.not_eq_true _ ▸ hs) (Bool.not_eq_true _ ▸ hc)
  · intro h
    cases h with
    | succeeded ha hs => simp only [ha, hs, if_true]
    | failed ha hs hc => simp only [ha, hs, hc, Bool.false_eq_true, if_false]
    | broken ha => simp only [ha]

/-- The cells of a visit become the classes that its operations write. -/
theorem toBlobs_outputs (p : Provider) (logging : LogSettings) (j : Journal) :
    Cell.toBlobs p logging (v.run w).1.2.outputs j = (.ok (written (v.operations w) 0), j) := by
  have hnone : (⟨v.view, []⟩ : Attempt).outputs = ([] : List Blob).map Cell.holding := rfl
  have houtputs : (v.run w).1.2.outputs = (written (v.operations w) 0).map Cell.holding :=
    outputs_run w.services (v.exchange w) _ v.journal hnone
  rw [houtputs, Cell.toBlobs_holding]

theorem diagnostics_of_answer {outcome : Outcome} (ha : v.answer w = .ok outcome) :
    v.diagnostics w = outcome.diagnostics := by
  unfold diagnostics
  rw [ha]

theorem nth_succ' (v : Visit σ) (k : Nat) : v.nth w (k + 1) = (v.next w).nth w k := by
  induction k with
  | zero => rfl
  | succ k ih => rw [nth, ih, nth]

/-- A row comes to a visit of some kind: it is the first one, or the first one leads to a row that
comes to such a visit. -/
theorem exists_nth_succ_iff {limit : Nat} {q : Nat → Visit σ → Prop} :
    (∃ m < limit + 1, (∀ k < m, (v.nth w k).Retried w) ∧ q m (v.nth w m)) ↔
      q 0 v ∨ v.Retried w ∧ ∃ m < limit,
        (∀ k < m, ((v.next w).nth w k).Retried w) ∧ q (m + 1) ((v.next w).nth w m) := by
  rw [Nat.exists_lt_succ_left]
  simp only [Nat.forall_lt_succ_left, nth_succ', Nat.not_lt_zero, false_implies, implies_true,
    true_and]
  refine or_congr Iff.rfl ⟨?_, ?_⟩
  · rintro ⟨m, hm, ⟨hfirst, hretried⟩, hq⟩
    exact ⟨hfirst, m, hm, hretried, hq⟩
  · rintro ⟨hfirst, m, hm, hretried, hq⟩
    exact ⟨m, hm, ⟨hfirst, hretried⟩, hq⟩

end Visit

/-! ## Attempts -/

namespace Compiler

variable {σ : Type}

/-- The workbench of a compiler's compilation. -/
def workbench (c : Compiler) (p : Provider) (b : Backend σ) : Workbench σ :=
  ⟨c.options, c.repairer, p, b⟩

/-- A compilation that has ended, with what it leaves in the compiler. -/
def settled (e : Option (Ending σ) × Journal) : Option (Ending σ) × Journal :=
  (e.1.map fun (result, state, c) => (result, state, c.reset), e.2)

section Step

variable {c : Compiler} {p : Provider} {b : Backend σ} {v : Visit σ}

/-- One more attempt concludes the compilation or leads to the next visit. -/
theorem attempt_succ (limit : Nat) (hc : c.sources = v.sources) :
    settled (attempt p b (limit + 1) c v.state v.view v.journal) =
      match v.conclusion (c.workbench p b) with
      | some (result, j) => (some (result, v.stateAfter (c.workbench p b),
          { c.reset with lastAttempts := c.lastAttempts + 1 }), j)
      | none => settled (attempt p b limit { c with
            lastAttempts := c.lastAttempts + 1, sources := (v.next (c.workbench p b)).sources }
          (v.next (c.workbench p b)).state (v.next (c.workbench p b)).view
          (v.next (c.workbench p b)).journal) := by
  have hrun : (b.compile v.state v.sources c.options.backendFlags).run ⟨p, c.options.logging⟩
      ⟨v.view, []⟩ v.journal = v.run (c.workbench p b) := rfl
  unfold Visit.conclusion
  rw [attempt]
  simp only [bind_run, hc, hrun]
  cases ha : v.answer (c.workbench p b) with
  | error e =>
    have ha' : (v.run (c.workbench p b)).1.1.1 = .error e := ha
    rw [ha']
    rfl
  | ok outcome =>
    have ha' : (v.run (c.workbench p b)).1.1.1 = .ok outcome := ha
    have hd := Visit.diagnostics_of_answer ha
    rw [ha']
    unfold Visit.reported
    rw [hd]
    cases hs : outcome.success with
    | true =>
      simp only [bind_run, hs, if_true, Visit.toBlobs_outputs]
      rfl
    | false =>
      have hr : repairSources c.options.logging c.repairer
          (Issue.groupByUnit (outcome.diagnostics.filterMap Diagnostic.toIssue?)).toList v.sources
          (reportAll c.options.logging (outcome.diagnostics.map diagnosticMessage)
            (v.run (c.workbench p b)).2).2 = v.repair (c.workbench p b) := by
        unfold Visit.repair Visit.reported Visit.issues
        rw [hd]
        rfl
      have hi : outcome.diagnostics.filterMap Diagnostic.toIssue? =
          v.issues (c.workbench p b) := by
        unfold Visit.issues
        rw [hd]
      simp only [bind_run, hs, Bool.false_eq_true, if_false]
      rw [hr, hi]
      cases hch : (v.repair (c.workbench p b)).1.1
      · rfl
      · rfl

/-- **The attempts** go through a row of visits, up to the first one that concludes. -/
theorem settled_attempt_eq_some_iff (limit : Nat) (hc : c.sources = v.sources)
    (ending : Ending σ) (j : Journal) :
    settled (attempt p b limit c v.state v.view v.journal) = (some ending, j) ↔
      ∃ m < limit, (∀ k < m, (v.nth (c.workbench p b) k).Retried (c.workbench p b)) ∧
        ∃ result, (v.nth (c.workbench p b) m).Concludes (c.workbench p b) result j ∧
          ending = (result, (v.nth (c.workbench p b) m).stateAfter (c.workbench p b),
            { c.reset with lastAttempts := c.lastAttempts + (m + 1) }) := by
  induction limit generalizing c v with
  | zero =>
    constructor
    · intro h
      cases (Prod.mk.inj h).1
    · rintro ⟨m, hm, -⟩
      exact absurd hm (Nat.not_lt_zero m)
  | succ limit ih =>
    rw [attempt_succ limit hc]
    refine Iff.trans ?_ (Visit.exists_nth_succ_iff (q := fun m u =>
      ∃ result, u.Concludes (c.workbench p b) result j ∧
        ending = (result, u.stateAfter (c.workbench p b),
          { c.reset with lastAttempts := c.lastAttempts + (m + 1) }))).symm
    cases hcon : v.conclusion (c.workbench p b) with
    | some concluded =>
      obtain ⟨result, j'⟩ := concluded
      have hlast : ¬ v.Retried (c.workbench p b) := by
        rw [← Visit.conclusion_eq_none_iff, hcon]
        exact nofun
      rw [or_iff_left fun h => hlast h.1]
      constructor
      · intro h
        cases h
        exact ⟨result, Visit.conclusion_eq_some_iff.mp hcon, rfl⟩
      · rintro ⟨result', h, rfl⟩
        rw [← Visit.conclusion_eq_some_iff, hcon] at h
        cases h
        rfl
    | none =>
      have hretried := Visit.conclusion_eq_none_iff.mp hcon
      have hgoes : ∀ result, ¬ v.Concludes (c.workbench p b) result j := by
        intro result h
        rw [← Visit.conclusion_eq_some_iff, hcon] at h
        cases h
      rw [or_iff_right fun ⟨result, h, _⟩ => hgoes result h, and_iff_right hretried]
      refine (ih (c := { c with lastAttempts := c.lastAttempts + 1, sources := _ }) rfl).trans ?_
      simp only [Nat.add_assoc, Nat.add_comm 1]
      rfl

end Step

/-! ## A backend that keeps what it is given -/

/-- The backend, with the sources of its visits kept in its state. -/
def recording (b : Backend σ) : Backend (σ × List (List SourceUnit)) where
  compile state sources flags := do
    let (answer, after) ← b.compile state.1 sources flags
    return (answer, after, state.2 ++ [sources])

end Compiler

theorem Exchange.run_bind {α β : Type} (s : Services) (x : Exchange α) (f : α → Exchange β)
    (a : Attempt) (j : Journal) :
    (x.bind f).run s a j = (f (x.run s a j).1.1).run s (x.run s a j).1.2 (x.run s a j).2 := by
  induction x generalizing a j with
  | done result => rfl
  | ask op next ih =>
    rw [Exchange.bind, run_ask, run_ask, ih]

theorem Exchange.operations_bind_done {α β : Type} (s : Services) (x : Exchange α) (f : α → β)
    (a : Attempt) (j : Journal) :
    (x.bind fun r => .done (f r)).operations s a j = x.operations s a j := by
  induction x generalizing a j with
  | done result => rfl
  | ask op next ih =>
    rw [Exchange.bind, operations_ask, operations_ask, ih]

namespace Visit

variable {σ : Type} {w : Workbench σ}

/-- The visit to a backend that has kept `log` so far. -/
def recorded (v : Visit σ) (log : List (List SourceUnit)) : Visit (σ × List (List SourceUnit)) :=
  ⟨v.sources, (v.state, log), v.view, v.journal⟩

end Visit

/-- The workbench with the recording backend. -/
def Workbench.recording {σ : Type} (w : Workbench σ) : Workbench (σ × List (List SourceUnit)) :=
  ⟨w.options, w.repairer, w.provider, Compiler.recording w.backend⟩

namespace Visit

variable {σ : Type} {w : Workbench σ} {v : Visit σ} {log : List (List SourceUnit)}

theorem run_recorded :
    (v.recorded log).run w.recording =
      ((((v.answer w, v.stateAfter w, log ++ [v.sources])), (v.run w).1.2), (v.run w).2) :=
  Exchange.run_bind _ _ _ _ _

theorem answer_recorded : (v.recorded log).answer w.recording = v.answer w := by
  unfold answer
  rw [run_recorded]
  rfl

theorem repair_recorded : (v.recorded log).repair w.recording = v.repair w := by
  unfold repair reported issues diagnostics
  rw [answer_recorded, run_recorded]
  rfl

theorem next_recorded :
    (v.recorded log).next w.recording = (v.next w).recorded (log ++ [v.sources]) := by
  unfold next stateAfter
  rw [repair_recorded, run_recorded]
  rfl

theorem operations_recorded : (v.recorded log).operations w.recording = v.operations w :=
  Exchange.operations_bind_done _ _ _ _ _

theorem conclusion_recorded : (v.recorded log).conclusion w.recording = v.conclusion w := by
  unfold conclusion
  rw [answer_recorded, repair_recorded, operations_recorded, run_recorded]
  unfold reported issues diagnostics
  rw [answer_recorded, run_recorded]
  rfl

theorem retried_recorded : (v.recorded log).Retried w.recording ↔ v.Retried w := by
  rw [← conclusion_eq_none_iff, conclusion_recorded, conclusion_eq_none_iff]

theorem concludes_recorded {result : Except CompileError (List Blob)} {j : Journal} :
    (v.recorded log).Concludes w.recording result j ↔ v.Concludes w result j := by
  rw [← conclusion_eq_some_iff, conclusion_recorded, conclusion_eq_some_iff]

theorem stateAfter_recorded :
    (v.recorded log).stateAfter w.recording = (v.stateAfter w, log ++ [v.sources]) := by
  unfold stateAfter
  rw [run_recorded]
  rfl

theorem nth_recorded (v : Visit σ) (k : Nat) :
    (v.recorded log).nth w.recording k =
      (v.nth w k).recorded (log ++ (List.range k).map fun i => (v.nth w i).sources) := by
  induction k with
  | zero => simp [nth]
  | succ k ih =>
    rw [nth, ih, next_recorded, nth, List.range_succ, List.map_append, List.append_assoc]
    rfl

end Visit

/-! ## Compilations -/

namespace Compiler

variable {σ : Type}

/-- The first visit of a compilation: all sources, and the view of their closure. -/
def opening (c : Compiler) (sources : List SourceUnit) (p : Provider) (state : σ) (j : Journal) :
    Visit σ :=
  let (closure, j) := Closure.compute (c.setting p) sources
    (report c.options.logging (startMessage sources) j).2
  let (view, j) := View.make closure p.listing c.host c.options j
  ⟨sources, state, view, j⟩

/-- A compilation returns exactly when its row of visits comes to one that concludes. -/
theorem returns_iff (c : Compiler) (limit : Nat) (sources : List SourceUnit) (p : Provider)
    (b : Backend σ) (state : σ) (j j' : Journal) (ending : Ending σ) :
    c.compile limit sources p b state j = (some ending, j') ↔
      ∃ m < limit,
        (∀ k < m, ((c.opening sources p state j).nth (c.workbench p b) k).Retried
          (c.workbench p b)) ∧
        ∃ result, ((c.opening sources p state j).nth (c.workbench p b) m).Concludes
            (c.workbench p b) result j' ∧
          ending = (result,
            ((c.opening sources p state j).nth (c.workbench p b) m).stateAfter (c.workbench p b),
            { c.reset with lastAttempts := m + 1 }) := by
  have h := settled_attempt_eq_some_iff (p := p) (b := b) (v := c.opening sources p state j)
    (c := { c with
      sources
      closure := (Closure.compute (c.setting p) sources
        (report c.options.logging (startMessage sources) j).2).1
      lastAttempts := 0 }) limit rfl ending j'
  simp only [Nat.zero_add] at h
  exact h

/-- **What a compilation returns.** It returns exactly when the backend, visited again as long as it
fails and a source is changed, comes to a visit that concludes; the attempts are the visits up to
this one, which alone decides the result. A backend that keeps the sources of its visits ends in the
same way, and has kept those of the row. The issues of a visit are those of its diagnostics that
carry a unit, in the order in which they were reported, each with the unit, the line, the column, the
code and the message of its diagnostic; and the repairs after the visit are offered them unit by
unit, in this order. -/
theorem compile_eq_some_iff (c : Compiler) (limit : Nat) (sources : List SourceUnit) (p : Provider)
    (b : Backend σ) (state : σ) (j : Journal) :
    let w := c.workbench p b
    let visit := (c.opening sources p state j).nth w
    (∀ (ending : Ending σ) (j' : Journal), c.compile limit sources p b state j = (some ending, j') ↔
      ∃ m < limit, (∀ k < m, (visit k).Retried w) ∧
        ∃ result, (visit m).Concludes w result j' ∧
          ending = (result, (visit m).stateAfter w, { c.reset with lastAttempts := m + 1 })) ∧
    (∀ (result : Except CompileError (List Blob)) (after : σ) (log : List (List SourceUnit))
      (c' : Compiler) (j' : Journal),
      c.compile limit sources p (recording b) (state, []) j =
          (some (result, (after, log), c'), j') ↔
        c.compile limit sources p b state j = (some (result, after, c'), j') ∧
          log = (List.range c'.lastAttempts).map fun k => (visit k).sources) ∧
    (∀ k, ((visit k).issues w).map (fun i =>
      { unit := some i.unit, line := i.line, column := i.column, code := i.code,
        message := i.message : Diagnostic }) =
      ((visit k).diagnostics w).filter fun d => d.unit.isSome) ∧
    ∀ k u, (Issue.groupByUnit ((visit k).issues w)).find? u =
      if ((visit k).issues w).filter (fun i => i.unit = u) = [] then none
      else some (((visit k).issues w).filter fun i => i.unit = u) := by
  intro w visit
  refine ⟨fun ending j' => returns_iff c limit sources p b state j j' ending,
    fun result after log c' j' => ?_, fun k => Diagnostic.map_filterMap_toIssue? _,
    fun k u => Issue.find?_groupByUnit _ u⟩
  have hopen : c.opening sources p (state, []) j = (c.opening sources p state j).recorded [] := rfl
  have hwork : c.workbench p (recording b) = w.recording := rfl
  rw [returns_iff, returns_iff, hopen, hwork]
  simp only [Visit.nth_recorded, Visit.retried_recorded, Visit.concludes_recorded,
    Visit.stateAfter_recorded, Prod.mk.injEq, List.nil_append]
  constructor
  · rintro ⟨m, hm, hretried, _, hcon, rfl, ⟨rfl, rfl⟩, rfl⟩
    refine ⟨⟨m, hm, hretried, result, hcon, rfl, rfl, rfl⟩, ?_⟩
    rw [List.range_succ, List.map_append]
    rfl
  · rintro ⟨⟨m, hm, hretried, _, hcon, rfl, rfl, rfl⟩, rfl⟩
    refine ⟨m, hm, hretried, result, hcon, rfl, ⟨rfl, ?_⟩, rfl⟩
    rw [List.range_succ, List.map_append]
    rfl

/-- A backend that writes a class `A` unless the text of a source is `wrong`. Then it reports what is
wrong with `A`, next to something that is wrong with no unit in particular. -/
def choosy : Backend Unit where
  compile _ sources _ :=
    if sources.any fun s => s.text = "wrong" then
      .done (.ok ⟨false, [⟨none, 0, 0, none, "odd"⟩, ⟨some ⟨"A"⟩, 3, 1, none, "bad"⟩]⟩, ())
    else do
      let i ← Exchange.perform (.createOutput ⟨"A"⟩)
      let _ ← Exchange.perform (.write i [0xCA])
      let _ ← Exchange.perform (.write i [0xFE])
      return (.ok ⟨true, []⟩, ())

/-- A rule corrects the text of the source, so a second visit concludes the compilation. -/
example :
    let c : Compiler := { repairer := .ofRules ⟨"A"⟩ [⟨none, "wrong", "right"⟩] }
    let w := c.workbench (.ofMap {}) choosy
    let visit := (c.opening [⟨⟨"A"⟩, "wrong"⟩] (.ofMap {}) () {}).nth w
    (visit 0).issues w = [⟨⟨"A"⟩, 3, 1, none, "bad"⟩] ∧ (visit 0).Retried w ∧
      (visit 1).sources = [⟨⟨"A"⟩, "right"⟩] ∧
      ∃ j, (visit 1).Concludes w (.ok [⟨⟨"A"⟩, [0xCA, 0xFE]⟩]) j :=
  ⟨rfl, ⟨⟨_, rfl, rfl⟩, rfl⟩, rfl, _, .succeeded rfl rfl⟩

/-- Without a rule the first visit concludes it, with the issue that has a unit. -/
example :
    let c : Compiler := {}
    let w := c.workbench (.ofMap {}) choosy
    let visit := (c.opening [⟨⟨"A"⟩, "wrong"⟩] (.ofMap {}) () {}).nth w
    ∃ j, (visit 0).Concludes w (.error (.failed [⟨⟨"A"⟩, 3, 1, none, "bad"⟩])) j :=
  ⟨_, .failed rfl rfl rfl⟩

end Compiler

end VirtualClasspath
