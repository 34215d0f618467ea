import VirtualClasspath.Provider

/-!
# Providers that do not change their mind

A `Steady` provider gives the same answer to the same request, whatever was asked before. What it has
under a name is then a list of classes (`served`), and the journal that a session starts with does
not matter to what it finds. The classes of a map are steady (`steady_ofMap`), at most one to a name
(`mem_served_ofMap`).
-/

namespace VirtualClasspath

/-! ## Sessions -/

theorem bind_run {α β : Type} (x : Session α) (f : α → Session β) (j : Journal) :
    (x >>= f) j = f (x j).1 (x j).2 := rfl

theorem foldlM_cons_run {α β : Type} (f : β → α → Session β) (b : β) (a : α) (l : List α)
    (j : Journal) : (a :: l).foldlM f b j = l.foldlM f (f b a j).1 (f b a j).2 := by
  rw [List.foldlM_cons, bind_run]

/-- What holds before a loop and is kept by each round, for one more element done, holds after it. -/
theorem foldlM_invariant {α β : Type} {f : β → α → Session β} (I : List α → β → Prop)
    (step : ∀ done a b j, I done b → I (done ++ [a]) (f b a j).1) {l : List α} {b : β}
    (h : I [] b) (j : Journal) : I l (l.foldlM f b j).1 := by
  suffices ∀ (l done : List α) (b : β) (j : Journal), I done b →
      I (done ++ l) (l.foldlM f b j).1 from this l [] b j h
  intro l
  induction l with
  | nil =>
    intro done b _ h
    rwa [List.append_nil]
  | cons a l ih =>
    intro done b j h
    rw [foldlM_cons_run, List.append_cons]
    exact ih _ _ _ (step done a b j h)

/-- A message is sent if it is wanted, and nothing else happens. -/
theorem report_run (logging : LogSettings) (m : Message) (j : Journal) :
    (report logging m j).2 = { j with
      messages := j.messages ++ ([m].filter fun m => logging.enables m.category).toArray } := by
  unfold report
  by_cases h : logging.enables m.category = true
  · simp [h]
  · simp [h]

theorem messages_report (logging : LogSettings) (m : Message) (j : Journal) :
    (report logging m j).2.messages.toList =
      j.messages.toList ++ [m].filter fun m => logging.enables m.category := by
  rw [report_run, Array.toList_append]

theorem messages_report_of_enables {logging : LogSettings} {m : Message}
    (h : logging.enables m.category = true) (j : Journal) :
    (report logging m j).2.messages.toList = j.messages.toList ++ [m] := by
  rw [messages_report, List.filter_cons, if_pos h, List.filter_nil]

/-! What a report and a traced call leave as it was. -/

section Exchanged

variable (t : LogSettings) (m : Message) (c : Call) (j : Journal)

theorem requests_report : (report t m j).2.requests = j.requests := by
  rw [report_run]

theorem offers_report : (report t m j).2.offers = j.offers := by
  rw [report_run]

theorem trace_report : (report t m j).2.trace = j.trace := by
  rw [report_run]

theorem requests_traceCall : (traceCall t c j).2.requests = j.requests := by
  unfold traceCall
  split <;> rfl

theorem offers_traceCall : (traceCall t c j).2.offers = j.offers := by
  unfold traceCall
  split <;> rfl

theorem messages_traceCall : (traceCall t c j).2.messages = j.messages := by
  unfold traceCall
  split <;> rfl

end Exchanged

/-! ## Results -/

theorem toOption_eq_some_iff {ε α : Type} {x : Except ε α} {a : α} :
    x.toOption = some a ↔ x = .ok a := by
  cases x <;> simp [Except.toOption]

theorem exists_of_map_eq_ok {ε α β : Type} {f : α → β} {x : Except ε α} {b : β}
    (h : x.map f = .ok b) : ∃ a, x = .ok a ∧ f a = b := by
  cases x with
  | error e => cases h
  | ok a => exact ⟨a, rfl, Except.ok.inj h⟩

/-! ## Steady providers -/

namespace Provider

variable {p : Provider}

/-- The answers do not depend on the requests before. -/
def Steady (p : Provider) : Prop :=
  ∀ past past' names, p.answer past names = p.answer past' names

/-- The classes under a name, as the first request of a session finds them. -/
def served (p : Provider) (n : TypeName) : List Blob :=
  (p.answer #[] [n]).filter fun b => b.name = n

theorem Steady.fetch_fst (h : p.Steady) (n : TypeName) (j : Journal) :
    (p.fetch n j).1 = p.served n := by
  unfold fetch served
  rw [h j.requests #[]]

/-! ## Maps -/

theorem steady_ofMap (m : ClassMap) : (ofMap m).Steady := fun _ _ _ => rfl

theorem ask_ofMap_fst (m : ClassMap) (names : List TypeName) (j : Journal) :
    ((ofMap m).ask names j).1 = m.get names := rfl

end Provider

theorem ClassMap.mem_get {m : ClassMap} {names : List TypeName} {b : Blob} :
    b ∈ m.get names ↔ b.name ∈ names ∧ m.classes.find? b.name = some b.bytes := by
  unfold get
  rw [List.mem_filterMap]
  constructor
  · rintro ⟨n, hn, hb⟩
    obtain ⟨bytes, hf, rfl⟩ := Option.map_eq_some_iff.mp hb
    exact ⟨hn, hf⟩
  · rintro ⟨hn, hf⟩
    exact ⟨b.name, hn, by rw [hf]; rfl⟩

theorem ClassMap.find?_ofBlobs_two (a b : Blob) (n : TypeName) :
    (ofBlobs [a, b]).classes.find? n =
      if n = b.name then some b.bytes else if n = a.name then some a.bytes else none := by
  refine (SortedMap.find?_insert _ _ _ _).trans ?_
  rw [insert, SortedMap.find?_insert]
  rfl

theorem Provider.served_ofMap (m : ClassMap) (n : TypeName) :
    (ofMap m).served n = ((m.classes.find? n).map fun bytes => (⟨n, bytes⟩ : Blob)).toList := by
  change ([n].filterMap fun n => (m.classes.find? n).map fun bytes => (⟨n, bytes⟩ : Blob)).filter _ = _
  cases hb : m.classes.find? n <;> simp [hb]

theorem Provider.mem_served_ofMap {m : ClassMap} {n : TypeName} {b : Blob} :
    b ∈ (ofMap m).served n ↔ b.name = n ∧ m.classes.find? n = some b.bytes := by
  unfold served
  rw [List.mem_filter, decide_eq_true_iff]
  refine (and_congr_left fun hn => ?_).trans and_comm
  refine ClassMap.mem_get.trans ?_
  rw [hn]
  simp

end VirtualClasspath
