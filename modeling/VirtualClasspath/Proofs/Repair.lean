import VirtualClasspath.Proofs.Provider
import VirtualClasspath.Repair

/-!
# A round of repairs

A round goes through the units that have issues and offers a source for each. `offersFor` says which
offers these are, read off the sources as they were before the round, and `Repairer.revisions` what a
repairer says to offers in a row. `repairSources_run`: the round makes these offers and no others, and
what becomes of the sources and of the journal is decided by the offers and the revisions
(`revised`, `Journal.noting`).

That the sources from before the round decide is because no two units have one name: a text that was
replaced belongs to a name that is not offered again (`offersFor_retext`). `repairSources_exact` puts
it together position by position.
-/

namespace VirtualClasspath

/-! ## Offers and revisions in a row -/

/-- The offer for a unit with issues: the first source with its name, if there is one. -/
def offerFor? (sources : List SourceUnit) (e : TypeName × List Issue) : Option Offer :=
  (sources.find? fun s => s.name = e.1).map fun s => ⟨s, e.2⟩

/-- The offers for units with issues, in the order of the units. -/
def offersFor (issues : List (TypeName × List Issue)) (sources : List SourceUnit) : List Offer :=
  issues.filterMap (offerFor? sources)

/-- What a repairer says to offers in a row. -/
def Repairer.revisions (r : Repairer) : (past : Array Offer) → List Offer → List Revision
  | _, [] => []
  | past, o :: rest => r.revise past o :: r.revisions (past.push o) rest

/-- Offers in a row, each with what is said to it. -/
def Repairer.answered (r : Repairer) (past : Array Offer) (offers : List Offer) :
    List (Offer × Revision) :=
  offers.zip (r.revisions past offers)

/-- The sources with a new text for the first one that is named `unit`. -/
def retext (unit : TypeName) (text : String) : List SourceUnit → List SourceUnit
  | [] => []
  | s :: rest => if s.name = unit then { s with text } :: rest else s :: retext unit text rest

/-- What becomes of the sources: a revision that is a change gives its text to the first source with
the name of the source that was offered. -/
def revised (sources : List SourceUnit) (answered : List (Offer × Revision)) : List SourceUnit :=
  answered.foldl (fun l p =>
    if p.2.changed then retext p.1.source.name p.2.source.text l else l) sources

/-- What becomes of the journal: the offer is noted, and a change is reported. -/
def Journal.noting (logging : LogSettings) (j : Journal) (p : Offer × Revision) : Journal :=
  let j := { j with offers := j.offers.push p.1 }
  if p.2.changed then (report logging (changedMessage p.1.source.name) j).2 else j

/-- The wanted messages about changes. -/
def changeMessages (logging : LogSettings) (answered : List (Offer × Revision)) : List Message :=
  ((answered.filter (·.2.changed)).map fun p => changedMessage p.1.source.name).filter fun m =>
    logging.enables m.category

theorem name_of_offerFor? {sources : List SourceUnit} {e : TypeName × List Issue} {o : Offer}
    (h : offerFor? sources e = some o) : o.source.name = e.1 := by
  obtain ⟨s, hs, rfl⟩ := Option.map_eq_some_iff.mp h
  simpa using List.find?_some hs

theorem offersFor_cons (e : TypeName × List Issue) (issues : List (TypeName × List Issue))
    (sources : List SourceUnit) :
    offersFor (e :: issues) sources = (offerFor? sources e).toList ++ offersFor issues sources := by
  unfold offersFor
  rw [List.filterMap_cons]
  cases offerFor? sources e with
  | none => rfl
  | some o => rfl

/-- Units with different names are offered sources with different names. -/
theorem pairwise_offersFor {issues : List (TypeName × List Issue)}
    (h : issues.Pairwise fun e e' => e.1 ≠ e'.1) (sources : List SourceUnit) :
    (offersFor issues sources).Pairwise fun o o' => o.source.name ≠ o'.source.name := by
  refine List.pairwise_filterMap.mpr (h.imp fun hne o ho o' ho' => ?_)
  rw [name_of_offerFor? ho, name_of_offerFor? ho']
  exact hne

theorem length_revisions (r : Repairer) (past : Array Offer) (offers : List Offer) :
    (r.revisions past offers).length = offers.length := by
  induction offers generalizing past with
  | nil => rfl
  | cons o rest ih => rw [Repairer.revisions, List.length_cons, ih, List.length_cons]

theorem map_fst_answered (r : Repairer) (past : Array Offer) (offers : List Offer) :
    (r.answered past offers).map Prod.fst = offers :=
  List.map_fst_zip (Nat.le_of_eq (length_revisions r past offers).symm)

/-! ## One text -/

section Retext

variable (unit : TypeName) (text : String)

theorem map_name_retext (sources : List SourceUnit) :
    (retext unit text sources).map (·.name) = sources.map (·.name) := by
  induction sources with
  | nil => rfl
  | cons s rest ih =>
    unfold retext
    split
    · rfl
    · rw [List.map_cons, ih, List.map_cons]

/-- Where the first source with a name stands is decided by the names. -/
theorem findIdx?_name_congr {l l' : List SourceUnit} (h : l.map (·.name) = l'.map (·.name))
    (n : TypeName) : l.findIdx? (fun s => s.name = n) = l'.findIdx? fun s => s.name = n := by
  have key : ∀ l : List SourceUnit,
      (l.map (·.name)).findIdx? (fun m => m = n) = l.findIdx? fun s => s.name = n :=
    fun l => List.findIdx?_map
  rw [← key, ← key, h]

/-- The source at the first position of a name has the name. -/
theorem name_of_findIdx? {l : List SourceUnit} {n : TypeName} {i : Nat}
    (h : l.findIdx? (fun s => s.name = n) = some i) : l[i]?.map (·.name) = some n := by
  obtain ⟨hi, hn, -⟩ := List.findIdx?_eq_some_iff_getElem.mp h
  rw [List.getElem?_eq_getElem hi, Option.map_some, of_decide_eq_true hn]

/-- **Frame of one text**: only the first source with the name is another one. -/
theorem getElem?_retext (sources : List SourceUnit) (i : Nat) :
    (retext unit text sources)[i]? =
      if sources.findIdx? (fun s => s.name = unit) = some i then
        sources[i]?.map fun s => { s with text }
      else sources[i]? := by
  induction sources generalizing i with
  | nil => rfl
  | cons s rest ih =>
    rw [retext, List.findIdx?_cons]
    by_cases hs : s.name = unit
    · cases i <;> simp [hs]
    · cases i with
      | zero => simp [hs]
      | succ i => simp [hs, ih]

/-- A source with another name is found as before. -/
theorem find?_retext {n : TypeName} (h : unit ≠ n) (sources : List SourceUnit) :
    (retext unit text sources).find? (fun s => s.name = n) = sources.find? fun s => s.name = n := by
  induction sources with
  | nil => rfl
  | cons s rest ih =>
    unfold retext
    split
    · rename_i hs
      rw [List.find?_cons_of_neg (by simpa [hs] using h),
        List.find?_cons_of_neg (by simpa [hs] using h)]
    · rw [List.find?_cons, List.find?_cons, ih]

/-- Other units are offered what they would be offered without the new text. -/
theorem offersFor_retext {issues : List (TypeName × List Issue)} (h : ∀ e ∈ issues, unit ≠ e.1)
    (sources : List SourceUnit) :
    offersFor issues (retext unit text sources) = offersFor issues sources := by
  induction issues with
  | nil => rfl
  | cons e issues ih =>
    obtain ⟨he, hrest⟩ := List.forall_mem_cons.mp h
    have hoffer : offerFor? (retext unit text sources) e = offerFor? sources e :=
      congrArg (Option.map _) (find?_retext unit text he sources)
    rw [offersFor_cons, offersFor_cons, hoffer, ih hrest]

end Retext

/-! ## All texts -/

theorem revised_cons (sources : List SourceUnit) (p : Offer × Revision)
    (answered : List (Offer × Revision)) :
    revised sources (p :: answered) = revised
      (if p.2.changed then retext p.1.source.name p.2.source.text sources else sources) answered :=
  rfl

theorem map_name_revised (sources : List SourceUnit) (answered : List (Offer × Revision)) :
    (revised sources answered).map (·.name) = sources.map (·.name) := by
  induction answered generalizing sources with
  | nil => rfl
  | cons p answered ih =>
    rw [revised_cons, ih]
    split
    · exact map_name_retext _ _ _
    · rfl

/-- A source that is not the first one of a changed name stays as it was. -/
theorem getElem?_revised_of_kept {sources : List SourceUnit} {answered : List (Offer × Revision)}
    {i : Nat} (h : ∀ p ∈ answered, p.2.changed = true →
      sources.findIdx? (fun s => s.name = p.1.source.name) ≠ some i) :
    (revised sources answered)[i]? = sources[i]? := by
  induction answered generalizing sources with
  | nil => rfl
  | cons p answered ih =>
    rw [revised_cons]
    by_cases hp : p.2.changed = true
    · rw [if_pos hp, ih, getElem?_retext, if_neg (h p List.mem_cons_self hp)]
      intro q hq hchanged
      rw [findIdx?_name_congr (map_name_retext _ _ _)]
      exact h q (List.mem_cons_of_mem p hq) hchanged
    · rw [if_neg hp]
      exact ih fun q hq => h q (List.mem_cons_of_mem p hq)

/-- The first source of a changed name has the text of the revision. -/
theorem getElem?_revised_of_changed {sources : List SourceUnit}
    {answered : List (Offer × Revision)}
    (hnames : answered.Pairwise fun p q => p.1.source.name ≠ q.1.source.name)
    {p : Offer × Revision} (hp : p ∈ answered) (hchanged : p.2.changed = true) {i : Nat}
    (hi : sources.findIdx? (fun s => s.name = p.1.source.name) = some i) :
    (revised sources answered)[i]? = sources[i]?.map fun s => { s with text := p.2.source.text } := by
  -- no other name has its first source at this position
  have hother : ∀ q : Offer × Revision, q.1.source.name ≠ p.1.source.name →
      sources.findIdx? (fun s => s.name = q.1.source.name) ≠ some i := by
    intro q hne hq
    exact hne (Option.some.inj ((name_of_findIdx? hq).symm.trans (name_of_findIdx? hi)))
  induction answered generalizing sources with
  | nil => exact absurd hp List.not_mem_nil
  | cons q answered ih =>
    obtain ⟨hq, hrest⟩ := List.pairwise_cons.mp hnames
    rw [revised_cons]
    rcases List.mem_cons.mp hp with rfl | hp
    · rw [if_pos hchanged, getElem?_revised_of_kept, getElem?_retext, if_pos hi]
      intro q' hq' _
      rw [findIdx?_name_congr (map_name_retext _ _ _)]
      exact hother q' (hq q' hq').symm
    · split
      · have hsame := findIdx?_name_congr
          (map_name_retext q.1.source.name q.2.source.text sources)
        rw [ih hrest hp (by rwa [hsame]) (fun q' hne => by rw [hsame]; exact hother q' hne),
          getElem?_retext, if_neg (hother q (hq p hp))]
      · exact ih hrest hp hi hother

/-! ## A round -/

theorem noting_eq (logging : LogSettings) (j : Journal) (p : Offer × Revision) :
    j.noting logging p = { j with
      offers := j.offers.push p.1
      messages := j.messages ++ (changeMessages logging [p]).toArray } := by
  unfold Journal.noting changeMessages
  by_cases h : p.2.changed = true
  · simp [h, report_run]
  · simp [h]

theorem changeMessages_cons (logging : LogSettings) (p : Offer × Revision)
    (answered : List (Offer × Revision)) : changeMessages logging (p :: answered) =
      changeMessages logging [p] ++ changeMessages logging answered := by
  unfold changeMessages
  rw [← List.filter_append, ← List.map_append, ← List.filter_append, List.singleton_append]

theorem foldl_noting (logging : LogSettings) (answered : List (Offer × Revision)) (j : Journal) :
    answered.foldl (·.noting logging ·) j = { j with
      offers := j.offers ++ (answered.map Prod.fst).toArray
      messages := j.messages ++ (changeMessages logging answered).toArray } := by
  induction answered generalizing j with
  | nil => simp [changeMessages]
  | cons p answered ih =>
    rw [List.foldl_cons, ih, noting_eq, changeMessages_cons logging p answered]
    simp [Array.append_assoc]

/-- **One unit**: without a source of its name nothing happens; with one, the answer to the offer
decides what happens. -/
theorem repairUnit_run (logging : LogSettings) (r : Repairer) (unit : TypeName)
    (issues : List Issue) (sources : List SourceUnit) (j : Journal) :
    repairUnit logging r unit issues sources j =
      match offerFor? sources (unit, issues) with
      | none => ((false, sources), j)
      | some o =>
        let v := r.revise j.offers o
        ((v.changed, if v.changed then retext unit v.source.text sources else sources),
          j.noting logging (o, v)) := by
  induction sources with
  | nil => rfl
  | cons s rest ih =>
    unfold repairUnit
    by_cases hs : s.name = unit
    · have ho : offerFor? (s :: rest) (unit, issues) = some ⟨s, issues⟩ := by
        simp [offerFor?, hs]
      have hr : r.offer ⟨s, issues⟩ j = (r.revise j.offers ⟨s, issues⟩,
        { j with offers := j.offers.push ⟨s, issues⟩ }) := rfl
      rw [if_pos hs, ho, bind_run, hr]
      dsimp only
      unfold Journal.noting
      cases hv : (r.revise j.offers ⟨s, issues⟩).changed with
      | true =>
        rw [if_pos rfl, if_pos rfl, if_pos rfl, retext, if_pos hs, ← hs]
        rfl
      | false => rfl
    · have ho : offerFor? (s :: rest) (unit, issues) = offerFor? rest (unit, issues) := by
        simp [offerFor?, hs]
      rw [if_neg hs, ho, bind_run, ih]
      cases offerFor? rest (unit, issues) with
      | none => rfl
      | some o =>
        dsimp only
        cases (r.revise j.offers o).changed with
        | true =>
          rw [if_pos rfl, if_pos rfl, retext, if_neg hs]
          rfl
        | false => rfl

/-- **A round** makes the offers that the sources from before it give, and the answers decide what
becomes of the sources and of the journal. -/
theorem repairSources_run (logging : LogSettings) (r : Repairer)
    {issues : List (TypeName × List Issue)} (hunits : issues.Pairwise fun e e' => e.1 ≠ e'.1)
    (sources : List SourceUnit) (j : Journal) :
    repairSources logging r issues sources j =
      let answered := r.answered j.offers (offersFor issues sources)
      ((answered.any (·.2.changed), revised sources answered),
        answered.foldl (·.noting logging ·) j) := by
  induction issues generalizing sources j with
  | nil => rfl
  | cons e issues ih =>
    obtain ⟨he, hrest⟩ := List.pairwise_cons.mp hunits
    unfold repairSources
    rw [bind_run, repairUnit_run, offersFor_cons]
    cases ho : offerFor? sources (e.1, e.2) with
    | none =>
      dsimp only
      rw [bind_run, ih hrest]
      rfl
    | some o =>
      have hname := name_of_offerFor? ho
      have hoffers : offersFor issues (if (r.revise j.offers o).changed
          then retext e.1 (r.revise j.offers o).source.text sources else sources) =
          offersFor issues sources := by
        split
        · exact offersFor_retext _ _ he sources
        · rfl
      have hpast : (j.noting logging (o, r.revise j.offers o)).offers = j.offers.push o := by
        rw [noting_eq]
      dsimp only
      rw [bind_run, ih hrest, hoffers, hpast, ← hname]
      rfl

/-- **A round of repairs touches nothing else.** The number, the order and the names of the sources
stay. For each unit that is the name of a source, in the order of the units, the first such source is
offered with the issues of the unit, and nothing else is. A source gets the text of the revision if it
was offered and the revision is a change, whatever name the revision gives, and stays as it was
otherwise. The round says that a text was changed exactly if some revision is a change; if it says no,
all sources are as they were. In the journal are the offers and the messages about the changes. -/
theorem repairSources_exact (logging : LogSettings) (r : Repairer)
    (issues : SortedMap TypeName (List Issue)) (sources : List SourceUnit) (j : Journal) :
    let offers := offersFor issues.toList sources
    let answered := r.answered j.offers offers
    let ((changed, after), j') := repairSources logging r issues.toList sources j
    after.map (·.name) = sources.map (·.name) ∧
      (∀ i, (∀ p ∈ answered, p.2.changed = true →
          sources.findIdx? (fun s => s.name = p.1.source.name) = some i →
          after[i]? = some ⟨p.1.source.name, p.2.source.text⟩) ∧
        ((∀ p ∈ answered, p.2.changed = true →
          sources.findIdx? (fun s => s.name = p.1.source.name) ≠ some i) →
          after[i]? = sources[i]?)) ∧
      (changed = true ↔ ∃ p ∈ answered, p.2.changed = true) ∧
      (changed = false → after = sources) ∧
      j' = { j with
        offers := j.offers ++ offers.toArray
        messages := j.messages ++ (changeMessages logging answered).toArray } := by
  have hunits : issues.toList.Pairwise fun e e' => e.1 ≠ e'.1 :=
    issues.ascending.imp Std.ne_of_lt
  intro offers answered
  have hnames : answered.Pairwise fun p q => p.1.source.name ≠ q.1.source.name := by
    rw [← List.pairwise_map (f := Prod.fst) (R := fun o o' : Offer => o.source.name ≠ o'.source.name),
      map_fst_answered]
    exact pairwise_offersFor hunits sources
  rw [repairSources_run logging r hunits]
  refine ⟨map_name_revised _ _, fun i => ⟨fun p hp hchanged hi => ?_, fun hkept => ?_⟩, ?_, ?_, ?_⟩
  · obtain ⟨s, hs, hname⟩ := Option.map_eq_some_iff.mp (name_of_findIdx? hi)
    rw [getElem?_revised_of_changed hnames hp hchanged hi, hs, ← hname]
    rfl
  · exact getElem?_revised_of_kept hkept
  · exact List.any_eq_true
  · intro hnone
    refine List.ext_getElem? fun i => getElem?_revised_of_kept fun p hp hchanged => ?_
    exact absurd hchanged (List.any_eq_false.mp hnone p hp)
  · rw [foldl_noting, map_fst_answered]

/-- Two sources with one name, and issues of this name and of one that no source has. -/
example :
    let broken (n : String) : TypeName × List Issue := (⟨n⟩, [⟨⟨n⟩, 1, 1, none, "broken"⟩])
    (repairSources .silent ⟨fun _ _ => ⟨true, ⟨⟨"D"⟩, "new"⟩⟩⟩ [broken "A", broken "C"]
      [⟨⟨"B"⟩, "b"⟩, ⟨⟨"A"⟩, "a"⟩, ⟨⟨"A"⟩, "a"⟩] {}).1 =
      (true, [⟨⟨"B"⟩, "b"⟩, ⟨⟨"A"⟩, "new"⟩, ⟨⟨"A"⟩, "a"⟩]) := by
  decide

end VirtualClasspath
