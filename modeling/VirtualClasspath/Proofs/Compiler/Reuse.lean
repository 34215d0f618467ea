import VirtualClasspath.Proofs.Compiler.Shape

/-!
# Using a compiler again

A compiler may be called any number of times, for any sources, providers and backends. However a
call ends, it leaves the compiler without anything of the compilation: `left_of_returns` says so of
one call, `Serves.remnant` of a sequence of calls. All that remains is the number of attempts of the
last call, and no call looks at it, so **`reset_between_calls`**: a call on a compiler that was used
before comes to exactly what it comes to on a new one.
-/

namespace VirtualClasspath.Compiler

/-- A new compiler. -/
def make (options : Options) (alwaysAvailable : SortedSet TypeName) (host : Host)
    (repairer : Repairer) : Compiler := { options, alwaysAvailable, host, repairer }

/-- A call of a compiler: what it is given, and what was exchanged with its surroundings before, in
calls of this compiler or elsewhere. Providers and repairers may remember all of that. -/
structure Call where
  /-- What its backend remembers. -/
  State : Type
  limit : Nat
  sources : List SourceUnit
  provider : Provider
  backend : Backend State
  state : State
  past : Journal

/-- What a call comes to: its ending, if it returns, and what has been exchanged by then. -/
def Call.run (call : Call) (c : Compiler) : Option (Ending call.State) × Journal :=
  c.compile call.limit call.sources call.provider call.backend call.state call.past

/-- The compiler `c` has served the calls in this order, each of which has returned, and is `c'`
now. -/
inductive Serves (c : Compiler) : List Call → Compiler → Prop
  | none : Serves c [] c
  | more {calls : List Call} {c' c'' : Compiler} (h : Serves c calls c') (call : Call)
    {result : Except CompileError (List Blob)} {state : call.State} {j : Journal}
    (hr : call.run c' = (some (result, state, c''), j)) : Serves c (calls ++ [call]) c''

/-- What a call leaves of a compilation that returns. -/
theorem left_of_returns {c c' : Compiler} {call : Call} {result : Except CompileError (List Blob)}
    {state : call.State} {j : Journal} (hr : call.run c = (some (result, state, c'), j)) :
    ∃ attempts, c' = { c.reset with lastAttempts := attempts } := by
  obtain ⟨m, -, -, _, -, hending⟩ := (returns_iff _ _ _ _ _ _ _ _ _).mp hr
  cases hending
  exact ⟨m + 1, rfl⟩

/-- No call looks at the number of attempts of the call before it. -/
theorem run_lastAttempts (c : Compiler) (call : Call) (attempts : Nat) :
    call.run { c with lastAttempts := attempts } = call.run c := rfl

variable {options : Options} {alwaysAvailable : SortedSet TypeName} {host : Host}
  {repairer : Repairer}

/-- After any calls, a compiler is as it was made, but for the number of attempts. -/
theorem Serves.remnant {calls : List Call} {c : Compiler}
    (h : (make options alwaysAvailable host repairer).Serves calls c) :
    ∃ attempts,
      c = { make options alwaysAvailable host repairer with lastAttempts := attempts } := by
  induction h with
  | none => exact ⟨0, rfl⟩
  | more _ call hr ih =>
    obtain ⟨_, rfl⟩ := ih
    obtain ⟨attempts, rfl⟩ := left_of_returns hr
    exact ⟨attempts, rfl⟩

/-- **A compiler is reset between calls.** After any sequence of calls, whether they gave classes,
failed for errors of the sources or broke down with the backend, the compiler holds no closure and
no sources, and the next call comes to what it comes to on a new compiler of the same parts: the
same result, the same state of the backend, the same number of attempts in the compiler, the same
requests, offers and messages. -/
theorem reset_between_calls {calls : List Call} {c : Compiler}
    (h : (make options alwaysAvailable host repairer).Serves calls c) :
    c.closure = ∅ ∧ c.sources = [] ∧
      ∀ call : Call, call.run c = call.run (make options alwaysAvailable host repairer) := by
  obtain ⟨attempts, rfl⟩ := h.remnant
  exact ⟨rfl, rfl, fun call => run_lastAttempts _ call attempts⟩

/-- A call whose backend says `answer` at once. There is no class, and one attempt is waited for. -/
def answering (answer : Except CompileError Outcome) : Call where
  State := Unit
  limit := 1
  sources := [⟨⟨"A"⟩, ""⟩]
  provider := .ofMap {}
  backend := ⟨fun _ _ _ => .done (answer, ())⟩
  state := ()
  past := {}

/-- A call that breaks down, one that fails without a diagnostic, and one that succeeds. -/
theorem reset_between_three_calls :
    let c := make {} Closure.defaultAvailable Host.none Repairer.idle
    let calls := [answering (.error (.backend "broken")), answering (.ok ⟨false, []⟩),
      answering (.ok ⟨true, []⟩)]
    let used := { c with lastAttempts := 1 }
    c.Serves calls used ∧ used.closure = ∅ ∧ used.sources = [] ∧
      ∀ call : Call, call.run used = call.run c := by
  intro c calls used
  have hreturns : ∀ (d : Compiler) (answer : Except CompileError Outcome)
      (result : Except CompileError (List Blob)) (j : Journal),
      (d.opening (answering answer).sources (answering answer).provider () {}).Concludes
        (d.workbench (answering answer).provider (answering answer).backend) result j →
      (answering answer).run d = (some (result, (), { d.reset with lastAttempts := 1 }), j) :=
    fun d answer result j hcon => (returns_iff _ _ _ _ _ _ _ _ _).mpr
      ⟨0, Nat.one_pos, fun k hk => absurd hk (Nat.not_lt_zero k), result, hcon, rfl⟩
  have hserves : c.Serves calls used :=
    .more (.more (.more .none _ (hreturns _ _ _ _ (.broken rfl)))
      _ (hreturns _ _ _ _ (.failed rfl rfl rfl))) _ (hreturns _ _ _ _ (.succeeded rfl rfl))
  exact ⟨hserves, reset_between_calls hserves⟩

end VirtualClasspath.Compiler
