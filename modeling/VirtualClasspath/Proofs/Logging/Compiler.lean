import VirtualClasspath.Compiler
import VirtualClasspath.Proofs.Logging.Closure

/-!
# Logging never influences a compilation

**`compile_withLogging`** compares the same compilation under two log settings, any ones and the
verbose ones: it comes to the same result after the same attempts, asks the provider and offers to
the repairer the same, and sends exactly those messages of the verbose one that are wanted. It rests
on the closure being discreet, and the view, the cells, the services for a backend and the repairs
being so as well; a backend is an exchange of operations, whatever it makes of the answers.
-/

namespace VirtualClasspath

/-! ## Settings that are carried along -/

/-- The options with other log settings. -/
def Options.withLogging (o : Options) (logging : LogSettings) : Options := { o with logging }

/-- The view with other log settings. -/
def View.withLogging (v : View) (logging : LogSettings) : View :=
  { v with options := v.options.withLogging logging }

/-- The attempt with other log settings. -/
def Attempt.withLogging (a : Attempt) (logging : LogSettings) : Attempt :=
  { a with view := a.view.withLogging logging }

/-- The compiler with other log settings. -/
def Compiler.withLogging (c : Compiler) (logging : LogSettings) : Compiler :=
  { c with options := c.options.withLogging logging }

/-! ## The class path -/

namespace View

theorem discreet_make (closure : ClosureSet) (listing : List String) (host : Host) (o : Options) :
    DiscreetTo withLogging fun t => make closure listing host (o.withLogging t) :=
  (discreet_reportAll _).bind fun _ => (discreet_report _).bind fun _ =>
    discreetTo_pure withLogging ⟨initialEntries closure (listing.map TypeName.mk), host, o⟩

theorem discreet_scan (package pre : String) (recursive : Bool)
    (entries : List (TypeName × Origin)) :
    Discreet fun t => scan t package pre recursive entries := by
  induction entries with
  | nil => exact discreet_pure []
  | cons e rest ih =>
    obtain ⟨n, origin⟩ := e
    cases hp : Text.stripBeginning? pre n.text with
    | none =>
      simp only [scan, hp]
      exact discreet_pure []
    | some tail =>
      simp only [scan, hp]
      refine DiscreetTo.ite ((discreet_report _).bind fun _ => ih) ?_
      exact (discreet_report _).bind fun _ => ih.bind fun found =>
        discreet_pure (Entry.mk n origin :: found)

variable (v : View) (package : String) (recursive : Bool)

theorem discreet_select : Discreet fun t => (v.withLogging t).select package recursive :=
  discreet_scan package (packageBeginning package) recursive
    (v.entries.listFrom ⟨packageBeginning package⟩)

theorem discreet_list : Discreet fun t => (v.withLogging t).list package recursive :=
  (discreet_traceCall _).bind fun _ => (discreet_select v package recursive).bind fun entries =>
    discreet_pure (entries.map (·.name))

theorem discreet_hostTypes : Discreet fun t => (v.withLogging t).hostTypes package recursive :=
  (discreet_reportAll _).bind fun _ => discreet_pure (v.host.types package recursive)

/-- A view with other settings, next to what was listed. -/
def answerWithLogging (answer : List Entry × View) (logging : LogSettings) : List Entry × View :=
  (answer.1, answer.2.withLogging logging)

theorem discreet_listLocation (location : Location) :
    DiscreetTo answerWithLogging fun t =>
      (v.withLogging t).listLocation location package recursive := by
  refine (discreet_traceCall _).bind fun _ => ?_
  cases location with
  | classPath =>
    exact (discreet_select v package recursive).bind fun entries =>
      discreetTo_pure answerWithLogging (entries, v)
  | hostPlatformClassPath =>
    exact (discreet_hostTypes v package recursive).bind fun names =>
      DiscreetTo.ite (P := v.options.useHostSystemTypes = true)
        (discreetTo_pure answerWithLogging (names.map (⟨·, .host⟩), v))
        (discreetTo_pure answerWithLogging ([], v.absorb names))
  | hostSystemModules =>
    refine DiscreetTo.ite (P := v.options.useHostSystemTypes = true) ?_ ?_
    · exact (discreet_hostTypes v package recursive).bind fun names =>
        discreetTo_pure answerWithLogging (names.map (⟨·, .host⟩), v)
    · exact (discreet_select v package recursive).bind fun selected =>
        (discreet_hostTypes v package recursive).bind fun names =>
          discreetTo_pure answerWithLogging (merge v.options selected names, v)

theorem discreet_inferName (n : TypeName) : Discreet fun t => (v.withLogging t).inferName n :=
  (discreet_traceCall _).bind fun _ => discreet_pure n

end View

/-! ## Cells and operations -/

theorem Cell.discreet_read (p : Provider) (c : Cell) : Discreet fun t => c.read p t := by
  obtain ⟨n, content⟩ := c
  cases content with
  | resolved bytes => exact discreet_pure _
  | output bytes => exact discreet_pure _
  | unresolved =>
    refine (discreet_traceCall _).bind fun _ => (discreet_ask p [n]).bind fun bs => ?_
    cases only n bs with
    | error e => exact discreet_pure _
    | ok bytes => exact (discreet_report _).bind fun _ => discreet_pure _

theorem Cell.discreet_toBlobs (p : Provider) (cells : List Cell) :
    Discreet fun t => toBlobs p t cells := by
  induction cells with
  | nil => exact discreet_pure _
  | cons c cells ih =>
    have hblob : Discreet fun t => c.toBlob p t :=
      (Cell.discreet_read p c).bind fun answer => discreet_pure _
    refine hblob.bind fun blob => ?_
    cases blob with
    | error e => exact discreet_pure _
    | ok b => exact ih.bind fun rest => discreet_pure _

theorem discreet_reportCritical (text : String) : Discreet fun t => reportCritical t text := by
  -- the text that is left must stay closed: opening it never ends
  unfold reportCritical
  generalize Text.trimEnd _ text = left
  exact DiscreetTo.ite (discreet_pure ()) (discreet_report (criticalMessage left))

namespace Attempt

variable {α : Type}

/-- An attempt with other settings, next to the answer to an operation. -/
def answerWithLogging (answer : α × Attempt) (logging : LogSettings) : α × Attempt :=
  (answer.1, answer.2.withLogging logging)

/-- **Operations** are answered the same under all settings. -/
theorem discreet_perform (p : Provider) (a : Attempt) (op : Operation) :
    DiscreetTo answerWithLogging fun t => (a.withLogging t).perform ⟨p, t⟩ op := by
  cases op with
  | list package recursive =>
    exact (View.discreet_list a.view package recursive).bind fun names =>
      discreetTo_pure answerWithLogging (names, a)
  | listLocation location package recursive =>
    exact (View.discreet_listLocation a.view package recursive location).bind fun answer =>
      discreetTo_pure answerWithLogging (answer.1, { a with view := answer.2 })
  | contains n => exact discreetTo_pure answerWithLogging (a.view.contains n, a)
  | originOf n => exact discreetTo_pure answerWithLogging (a.view.originOf n, a)
  | viewSize => exact discreetTo_pure answerWithLogging (a.view.size, a)
  | systemModules => exact discreetTo_pure answerWithLogging (a.view.systemModules, a)
  | moduleFor package =>
    exact discreetTo_pure answerWithLogging (a.view.options.moduleFor package, a)
  | patchLocations => exact discreetTo_pure answerWithLogging (a.view.options.patchLocations, a)
  | inferName cell =>
    exact (View.discreet_inferName a.view cell.name).bind fun n =>
      discreetTo_pure answerWithLogging (n, a)
  | describeView => exact discreetTo_pure answerWithLogging (a.view.description, a)
  | openInput n =>
    exact (discreet_traceCall _).bind fun _ => discreetTo_pure answerWithLogging (Cell.lazy n, a)
  | read cell =>
    exact (Cell.discreet_read p cell).bind fun answer =>
      discreetTo_pure answerWithLogging (answer, a)
  | createOutput n =>
    exact (discreet_traceCall _).bind fun _ => discreetTo_pure answerWithLogging
      (a.outputs.length, { a with outputs := a.outputs ++ [Cell.output n] })
  | write i bytes => exact discreetTo_pure answerWithLogging ((), a.write i bytes)
  | outputCount => exact discreetTo_pure answerWithLogging (a.outputs.length, a)
  | reportCritical text =>
    exact (discreet_reportCritical text).bind fun _ => discreetTo_pure answerWithLogging ((), a)
  | describeOutputs => exact discreetTo_pure answerWithLogging (a.description, a)

end Attempt

/-- **What a backend does** in an attempt is the same under all settings. -/
theorem Exchange.discreet_run {α : Type} (p : Provider) (x : Exchange α) (a : Attempt) :
    DiscreetTo Attempt.answerWithLogging fun t => x.run ⟨p, t⟩ (a.withLogging t) := by
  induction x generalizing a with
  | done result => exact discreetTo_pure Attempt.answerWithLogging (result, a)
  | ask op next ih =>
    exact (Attempt.discreet_perform p a op).bind fun answer => ih answer.1 answer.2

/-! ## Repairs -/

theorem discreet_offer (r : Repairer) (o : Offer) : Discreet fun _ => r.offer o := by
  intro s start quiet loud h
  refine ⟨(r.offer o loud).1, ?_, rfl, h.requests, ?_, h.messages, h.trace⟩
  · exact congrArg (fun past => r.revise past o) h.offers
  · exact congrArg (fun past => past.push o) h.offers

theorem discreet_repairUnit (r : Repairer) (unit : TypeName) (issues : List Issue)
    (sources : List SourceUnit) : Discreet fun t => repairUnit t r unit issues sources := by
  induction sources with
  | nil => exact discreet_pure _
  | cons u rest ih =>
    by_cases hu : u.name = unit
    · simp only [repairUnit, hu, if_true]
      refine (discreet_offer r _).bind fun revision => ?_
      cases revision.changed with
      | true => exact (discreet_report _).bind fun _ => discreet_pure _
      | false => exact discreet_pure _
    · simp only [repairUnit, hu, if_false]
      exact ih.bind fun _ => discreet_pure _

theorem discreet_repairSources (r : Repairer) (issues : List (TypeName × List Issue))
    (sources : List SourceUnit) : Discreet fun t => repairSources t r issues sources := by
  induction issues generalizing sources with
  | nil => exact discreet_pure _
  | cons e rest ih =>
    exact (discreet_repairUnit r e.1 e.2 sources).bind fun repaired =>
      (ih repaired.2).bind fun _ => discreet_pure _

/-! ## Compilations -/

namespace Compiler

variable {σ : Type}

/-- The end of a compilation with other settings left in the compiler. -/
def endingWithLogging (ending : Option (Ending σ)) (logging : LogSettings) : Option (Ending σ) :=
  ending.map fun (result, state, c) => (result, state, c.withLogging logging)

theorem discreet_attempt (p : Provider) (b : Backend σ) (limit : Nat) (c : Compiler) (state : σ)
    (v : View) :
    DiscreetTo endingWithLogging fun t =>
      attempt p b limit (c.withLogging t) state (v.withLogging t) := by
  induction limit generalizing c state v with
  | zero => exact discreetTo_pure endingWithLogging none
  | succ limit ih =>
    refine (Exchange.discreet_run p (b.compile state c.sources c.options.backendFlags)
      ⟨v, []⟩).bind fun ended => ?_
    obtain ⟨⟨answer, state⟩, a⟩ := ended
    cases answer with
    | error e =>
      exact discreetTo_pure endingWithLogging
        (some (.error e, state, { c with lastAttempts := c.lastAttempts + 1 }))
    | ok outcome =>
      refine (discreet_reportAll _).bind fun _ => ?_
      cases outcome.success with
      | true =>
        refine (Cell.discreet_toBlobs p a.outputs).bind fun collected => ?_
        cases collected with
        | error e =>
          exact discreetTo_pure endingWithLogging
            (some (.error e, state, { c with lastAttempts := c.lastAttempts + 1 }))
        | ok blobs =>
          refine (discreet_reportAll (blobs.map resultMessage)).bind fun _ => ?_
          exact discreetTo_pure endingWithLogging
            (some (.ok blobs, state, { c with lastAttempts := c.lastAttempts + 1 }))
      | false =>
        refine (discreet_repairSources c.repairer _ c.sources).bind fun (changed, sources) => ?_
        cases changed with
        | true =>
          exact ih { c with lastAttempts := c.lastAttempts + 1, sources } state a.view
        | false =>
          exact discreetTo_pure endingWithLogging
            (some (.error (.failed _), state,
              { c with lastAttempts := c.lastAttempts + 1, sources }))

theorem discreet_run (c : Compiler) (limit : Nat) (sources : List SourceUnit) (p : Provider)
    (b : Backend σ) (state : σ) :
    DiscreetTo endingWithLogging fun t => (c.withLogging t).run limit sources p b state :=
  (discreet_report _).bind fun _ =>
    (Closure.discreet_compute (c.setting p) sources).bind fun closure =>
      (View.discreet_make closure p.listing c.host c.options).bind fun v =>
        discreet_attempt p b limit { c with sources, closure, lastAttempts := 0 } state v

theorem discreet_compile (c : Compiler) (limit : Nat) (sources : List SourceUnit) (p : Provider)
    (b : Backend σ) (state : σ) :
    DiscreetTo endingWithLogging fun t => (c.withLogging t).compile limit sources p b state := by
  refine (discreet_run c limit sources p b state).bind fun ending => ?_
  cases ending with
  | none => exact discreetTo_pure endingWithLogging none
  | some ending =>
    exact discreetTo_pure endingWithLogging (some (ending.1, ending.2.1, ending.2.2.reset))

/-- **Logging never influences a compilation.** Under any settings `s`, it ends as under the verbose
ones: with the same result, the same state of the backend, and a compiler that differs in its
settings only. The provider is asked the same and the repairer is offered the same. Of what the
verbose compilation sends, exactly the messages of the categories that `s` enables are sent, in
their order; calls are traced as in the verbose one, or not at all. -/
theorem compile_withLogging (c : Compiler) (s : LogSettings) (limit : Nat)
    (sources : List SourceUnit) (p : Provider) (b : Backend σ) (state : σ) (j : Journal) :
    let quiet := (c.withLogging s).compile limit sources p b state j
    let loud := (c.withLogging .verbose).compile limit sources p b state j
    quiet.1 = loud.1.map (fun (result, after, c') => (result, after, c'.withLogging s)) ∧
    quiet.2.requests = loud.2.requests ∧
    quiet.2.offers = loud.2.offers ∧
    (∃ sent, loud.2.messages.toList = j.messages.toList ++ sent ∧
      quiet.2.messages.toList =
        j.messages.toList ++ sent.filter fun m => s.enables m.category) ∧
    ∃ calls, loud.2.trace.toList = j.trace.toList ++ calls ∧
      quiet.2.trace.toList = j.trace.toList ++ if s.tracing then calls else [] := by
  intro quiet loud
  obtain ⟨ending, hquiet, hloud, h⟩ :=
    discreet_compile c limit sources p b state (Muted.refl s j)
  refine ⟨?_, h.requests, h.offers, h.messages, h.trace⟩
  change quiet.1 = endingWithLogging ending s at hquiet
  change loud.1 = endingWithLogging ending .verbose at hloud
  rw [hquiet, hloud]
  cases ending with
  | none => rfl
  | some ending => rfl

end Compiler

end VirtualClasspath
