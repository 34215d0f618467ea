import VirtualClasspath.Proofs.Nest

/-!
# Computations that do not care who listens

Log settings say which messages are sent and whether calls are traced. A computation that is given
for all settings is `Discreet` if they decide nothing else: run under any settings next to the
verbose ones, it comes to the same result, makes the same requests and the same offers, and of what
is sent under the verbose settings exactly the wanted part is sent (`Muted`).

To report and to trace is discreet, to ask is, and discreet computations in a row are
(`DiscreetTo.bind`, `DiscreetTo.foldlM`). A search for a nest group sends nothing, so it is discreet
whatever the settings are.
-/

namespace VirtualClasspath

/-- Two journals that both began as `start`. What has been sent and traced in `loud` since then is
in `quiet` as far as it is wanted; all else is equal. -/
structure Muted (s : LogSettings) (start quiet loud : Journal) : Prop where
  requests : quiet.requests = loud.requests
  offers : quiet.offers = loud.offers
  messages : ∃ sent, loud.messages.toList = start.messages.toList ++ sent ∧
    quiet.messages.toList = start.messages.toList ++ sent.filter fun m => s.enables m.category
  trace : ∃ calls, loud.trace.toList = start.trace.toList ++ calls ∧
    quiet.trace.toList = start.trace.toList ++ if s.tracing then calls else []

theorem Muted.refl (s : LogSettings) (j : Journal) : Muted s j j j where
  requests := rfl
  offers := rfl
  messages := ⟨[], (List.append_nil _).symm, (List.append_nil _).symm⟩
  trace := ⟨[], (List.append_nil _).symm, by rw [ite_self, List.append_nil]⟩

section Rules

variable {α β γ δ : Type} {s : LogSettings} {start quiet loud : Journal}

/-- The settings decide only what is sent and traced. A result that has settings in it, such as a
view with its options, is `f c` for a `c` without them. -/
def DiscreetTo (f : γ → LogSettings → α) (x : LogSettings → Session α) : Prop :=
  ∀ ⦃s : LogSettings⦄ ⦃start quiet loud : Journal⦄, Muted s start quiet loud →
    ∃ c, (x s quiet).1 = f c s ∧ (x .verbose loud).1 = f c .verbose ∧
      Muted s start (x s quiet).2 (x .verbose loud).2

/-- The settings decide only what is sent and traced, and the result has no settings in it. -/
abbrev Discreet (x : LogSettings → Session α) : Prop := DiscreetTo (fun c _ => c) x

/-! ## Computations in a row -/

theorem discreetTo_pure (f : γ → LogSettings → α) (c : γ) :
    DiscreetTo f fun s => pure (f c s) :=
  fun _ _ _ _ h => ⟨c, rfl, rfl, h⟩

theorem discreet_pure (a : α) : Discreet fun _ => pure a := discreetTo_pure (fun c _ => c) a

theorem DiscreetTo.bind {f : γ → LogSettings → α} {g : δ → LogSettings → β}
    {x : LogSettings → Session α} {k : LogSettings → α → Session β} (hx : DiscreetTo f x)
    (hk : ∀ c, DiscreetTo g fun s => k s (f c s)) : DiscreetTo g fun s => x s >>= k s := by
  intro s start quiet loud h
  obtain ⟨c, hquiet, hloud, h⟩ := hx h
  simp only [bind_run, hquiet, hloud]
  exact hk c h

theorem DiscreetTo.ite {P : Prop} [Decidable P] {f : γ → LogSettings → α}
    {x y : LogSettings → Session α} (hx : DiscreetTo f x) (hy : DiscreetTo f y) :
    DiscreetTo f fun s => if P then x s else y s := by
  split
  · exact hx
  · exact hy

theorem DiscreetTo.foldlM {f : γ → LogSettings → β} {step : LogSettings → β → α → Session β}
    (h : ∀ c a, DiscreetTo f fun s => step s (f c s) a) (l : List α) (c : γ) :
    DiscreetTo f fun s => l.foldlM (step s) (f c s) := by
  induction l generalizing c with
  | nil => exact discreetTo_pure f c
  | cons a l ih =>
    simp only [List.foldlM_cons]
    exact (h c a).bind ih

theorem discreet_of {x : LogSettings → Session α}
    (h : ∀ s start quiet loud, Muted s start quiet loud →
      (x .verbose loud).1 = (x s quiet).1 ∧ Muted s start (x s quiet).2 (x .verbose loud).2) :
    Discreet x :=
  fun s start quiet loud hj =>
    ⟨(x s quiet).1, rfl, (h s start quiet loud hj).1, (h s start quiet loud hj).2⟩

/-- What a discreet computation does under the settings, it does under the verbose ones. -/
theorem Discreet.step {x : LogSettings → Session α} (hx : Discreet x) {a : α} {quiet' : Journal}
    (h : Muted s start quiet loud) (hrun : x s quiet = (a, quiet')) :
    ∃ loud', x .verbose loud = (a, loud') ∧ Muted s start quiet' loud' := by
  obtain ⟨c, hquiet, hloud, h⟩ := hx h
  rw [hrun] at hquiet h
  cases hquiet
  exact ⟨(x .verbose loud).2, Prod.ext hloud rfl, h⟩

/-! ## What is exchanged -/

theorem discreet_report (m : Message) : Discreet fun s => report s m := by
  intro s start quiet loud h
  obtain ⟨sent, hloud, hquiet⟩ := h.messages
  refine ⟨(), rfl, rfl, ?_, ?_, ⟨sent ++ [m], ?_, ?_⟩, ?_⟩
  · simp only [requests_report, h.requests]
  · simp only [offers_report, h.offers]
  · simp only [report, LogSettings.verbose_enables, if_true, Array.toList_push, hloud,
      List.append_assoc]
  · by_cases hm : s.enables m.category = true
    · simp only [report, hm, if_true, Array.toList_push, hquiet, List.filter_append,
        List.filter_cons, List.filter_nil, List.append_assoc]
    · simp only [report, hm, if_false, hquiet, List.filter_append, List.filter_cons,
        List.filter_nil, List.append_nil, Bool.false_eq_true]
  · simp only [trace_report, h.trace]

theorem discreet_traceCall (c : Call) : Discreet fun s => traceCall s c := by
  intro s start quiet loud h
  obtain ⟨calls, hloud, hquiet⟩ := h.trace
  refine ⟨(), rfl, rfl, ?_, ?_, ?_, ⟨calls ++ [c], ?_, ?_⟩⟩
  · simp only [requests_traceCall, h.requests]
  · simp only [offers_traceCall, h.offers]
  · simp only [messages_traceCall, h.messages]
  · simp only [traceCall, LogSettings.verbose, if_true, Array.toList_push, hloud,
      List.append_assoc]
  · by_cases ht : s.tracing = true
    · simp only [traceCall, ht, if_true, Array.toList_push, hquiet, List.append_assoc]
    · simp only [traceCall, ht, if_false, hquiet, Bool.false_eq_true]

theorem discreet_reportAll (ms : List Message) : Discreet fun s => reportAll s ms := by
  induction ms with
  | nil => exact discreet_pure ()
  | cons m ms ih => exact (discreet_report m).bind fun _ => ih

theorem discreet_ask (p : Provider) (names : List TypeName) : Discreet fun _ => p.ask names := by
  intro s start quiet loud h
  refine ⟨(p.ask names loud).1, ?_, rfl, ?_, h.offers, h.messages, h.trace⟩
  · exact congrArg (fun past => p.answer past names) h.requests
  · exact congrArg (fun past => past.push names) h.requests

theorem discreet_fetch (p : Provider) (n : TypeName) : Discreet fun _ => p.fetch n :=
  (discreet_ask p [n]).bind fun bs => discreet_pure (bs.filter fun b : Blob => b.name = n)

end Rules

/-! ## Nest groups -/

namespace Nest

variable {p : Provider}

theorem discreet_findClass (n : TypeName) : Discreet fun _ => findClass p n := by
  rw [findClass_run]
  exact (discreet_fetch p n).bind fun bs => discreet_pure (firstClass bs)

theorem discreet_classFor (known : SortedMap TypeName ClassFile) (n : TypeName) :
    Discreet fun _ => classFor p known n := by
  unfold classFor
  cases known.find? n with
  | none => exact discreet_findClass n
  | some c => exact discreet_pure (Except.ok (some c))

theorem discreet_climb (a : Ascent) (outer : Option TypeName) :
    Discreet fun _ => climb p a outer := by
  refine discreet_of fun s start quiet loud h => ?_
  fun_induction climb p a outer quiet generalizing loud with
  | case1 a quiet =>
    rw [climb]
    exact ⟨rfl, h⟩
  | case2 a quiet n hs =>
    rw [climb, dif_pos hs]
    exact ⟨rfl, h⟩
  | case3 a quiet n hs e quiet' hf =>
    obtain ⟨loud', hf', h'⟩ := (discreet_findClass n).step h hf
    rw [climb_next (by simpa using hs), hf']
    exact ⟨rfl, h'⟩
  | case4 a quiet n hs quiet' hf =>
    obtain ⟨loud', hf', h'⟩ := (discreet_findClass n).step h hf
    rw [climb_next (by simpa using hs), hf']
    exact ⟨rfl, h'⟩
  | case5 a quiet n hs c quiet' hf ih =>
    obtain ⟨loud', hf', h'⟩ := (discreet_findClass n).step h hf
    rw [climb_next (by simpa using hs), hf']
    exact ih _ h'

theorem discreet_descend (known : SortedMap TypeName ClassFile) (group : SortedSet TypeName)
    (queue : List TypeName) : Discreet fun _ => descend p known group queue := by
  refine discreet_of fun s start quiet loud h => ?_
  fun_induction descend p known group queue quiet generalizing loud with
  | case1 group quiet =>
    rw [descend]
    exact ⟨rfl, h⟩
  | case2 group quiet n rest e quiet' hf =>
    obtain ⟨loud', hf', h'⟩ := (discreet_classFor known n).step h hf
    rw [descend_cons, hf']
    exact ⟨rfl, h'⟩
  | case3 group quiet n rest quiet' hf ih =>
    obtain ⟨loud', hf', h'⟩ := (discreet_classFor known n).step h hf
    rw [descend_cons, hf']
    exact ih _ h'
  | case4 group quiet n rest c quiet' hf fresh ih =>
    obtain ⟨loud', hf', h'⟩ := (discreet_classFor known n).step h hf
    rw [descend_cons, hf']
    exact ih _ h'

theorem discreet_groupOf (start : Blob) : Discreet fun _ => groupOf p start := by
  cases hc : parseBlob start with
  | error e =>
    rw [groupOf_broken hc]
    exact discreet_pure (Except.error e)
  | ok c =>
    rw [groupOf_read hc]
    refine (discreet_climb _ _).bind fun r => ?_
    cases r with
    | error e => exact discreet_pure (Except.error e)
    | ok a => exact discreet_descend _ _ _

end Nest

end VirtualClasspath
