import Mathlib.Data.List.Induction
import VirtualClasspath.Cell
import VirtualClasspath.Proofs.Provider

/-!
# The life of a content cell

A cell is read and written any number of times, and in the end it may be turned into a class.
`Cell.after` is the cell after such a history. An input class waits for the first answer that has
exactly one class: until then each read asks once more (`after_lazy_of_unserved`), and from then on
the bytes of this class stay, whatever a provider would answer now (`after_lazy_of_served`). An output
class never asks (`after_output`). `contents_after` says what the next operation comes to after every
history of either kind of cell.
-/

namespace VirtualClasspath

/-- The answer to a request for `n` that follows `k` requests for it. -/
def Provider.answerAfter (p : Provider) (past : Array (List TypeName)) (n : TypeName) (k : Nat) :
    List Blob :=
  p.answer (past ++ Array.replicate k [n]) [n]

namespace Cell

/-! ## Histories -/

/-- What is done to a cell before it is turned into a class. -/
inductive Use
  | read
  | write (bytes : Bytes)
  deriving DecidableEq

/-- The bytes that a use is to write. -/
def Use.bytes : Use → Bytes
  | read => []
  | write bytes => bytes

variable (p : Provider) (logging : LogSettings)

/-- The cell after one use; a write that is refused leaves the cell as it was. -/
def use (c : Cell) : Use → Session Cell
  | .read => do return (← c.read p logging).2
  | .write bytes => return (c.write bytes).toOption.getD c

/-- The cell after a history. -/
def after (c : Cell) (history : List Use) : Session Cell := history.foldlM (use p logging) c

/-- The journal after `k` reads that have asked for `n`. -/
def asked (n : TypeName) (k : Nat) (j : Journal) : Journal :=
  { j with
    requests := j.requests ++ Array.replicate k [n]
    trace := if logging.tracing then j.trace ++ Array.replicate k (.read n) else j.trace }

/-- The journal after a read that was served with `bytes`, as the `k`-th that has asked. -/
def loaded (n : TypeName) (k : Nat) (bytes : Bytes) (j : Journal) : Journal :=
  (report logging (loadedMessage n bytes.length) (asked logging n k j)).2

variable {p : Provider} {logging : LogSettings} {n : TypeName} {c : Cell} {j : Journal}

theorem after_append (history : List Use) (u : Use) : after p logging c (history ++ [u]) j =
    use p logging (after p logging c history j).1 u (after p logging c history j).2 := by
  unfold after
  rw [List.foldlM_append]
  rfl

/-! ## One operation -/

theorem asked_zero (logging : LogSettings) (n : TypeName) (j : Journal) :
    asked logging n 0 j = j := by
  unfold asked
  split <;> simp

/-- Asking once more, after the call was traced. -/
theorem ask_asked (k : Nat) : p.ask [n] (traceCall logging (.read n) (asked logging n k j)).2 =
    (p.answerAfter j.requests n k, asked logging n (k + 1) j) := by
  unfold Provider.ask traceCall asked
  by_cases ht : logging.tracing = true
  · simp [ht, Provider.answerAfter, Array.replicate_succ]
  · simp [ht, Provider.answerAfter, Array.replicate_succ]

/-- A read of an input class whose bytes are not known asks once. -/
theorem read_lazy (k : Nat) : (lazy n).read p logging (asked logging n k j) =
    match only n (p.answerAfter j.requests n k) with
    | .error e => ((.error e, lazy n), asked logging n (k + 1) j)
    | .ok bytes => ((.ok bytes, ⟨n, .resolved bytes⟩), loaded logging n (k + 1) bytes j) := by
  unfold read
  simp only [lazy, bind_run, ask_asked]
  cases only n (p.answerAfter j.requests n k) with
  | error e => rfl
  | ok bytes => rfl

/-- A read that was served sends one message, about the loading of bytecode. -/
theorem messages_loaded (k : Nat) (bytes : Bytes) :
    (loaded logging n k bytes j).messages.toList = j.messages.toList ++
      if logging.enables .loadingBytecode then
        [⟨.loadingBytecode, (loadedMessage n bytes.length).text⟩] else [] := by
  unfold loaded
  rw [messages_report, List.filter_cons, List.filter_nil]
  rfl

theorem only_of_length_ne_one {bs : List Blob} (h : bs.length ≠ 1) : ∃ e, only n bs = .error e := by
  match bs with
  | [] => exact ⟨_, rfl⟩
  | [b] => exact absurd rfl h
  | _ :: _ :: _ => exact ⟨_, rfl⟩

theorem only_of_two_le {bs : List Blob} (h : 2 ≤ bs.length) :
    only n bs = .error (.ambiguous n bs.length) := by
  match bs with
  | [] => exact absurd h (by decide)
  | [b] => exact absurd h (Nat.not_succ_le_self 1)
  | _ :: _ :: _ => rfl

theorem use_read :
    use p logging c .read j = ((c.read p logging j).1.2, (c.read p logging j).2) := rfl

theorem use_write (bytes : Bytes) :
    use p logging c (.write bytes) j = ((c.write bytes).toOption.getD c, j) := rfl

/-! ## Input classes -/

variable (history : List Use)

/-- As long as no answer had exactly one class, each read has asked once and nothing is known. -/
theorem after_lazy_of_unserved
    (h : ∀ k < history.count .read, (p.answerAfter j.requests n k).length ≠ 1) :
    after p logging (lazy n) history j = (lazy n, asked logging n (history.count .read) j) := by
  induction history using List.reverseRecOn with
  | nil => exact congrArg (Prod.mk (lazy n)) (asked_zero logging n j).symm
  | append_singleton history u ih =>
    rw [List.count_append] at h ⊢
    rw [after_append, ih fun k hk => h k (by omega)]
    cases u with
    | read =>
      obtain ⟨e, he⟩ := only_of_length_ne_one (n := n) (h (history.count .read) (by simp))
      rw [use_read, read_lazy, he]
      rfl
    | write bytes => rfl

/-- Once an answer has exactly one class, its bytes stay and no read asks any more. -/
theorem after_lazy_of_served {k : Nat} {b : Blob} (hk : k < history.count .read)
    (hb : p.answerAfter j.requests n k = [b])
    (h : ∀ i < k, (p.answerAfter j.requests n i).length ≠ 1) :
    after p logging (lazy n) history j =
      (⟨n, .resolved b.bytes⟩, loaded logging n (k + 1) b.bytes j) := by
  induction history using List.reverseRecOn with
  | nil => exact absurd hk (Nat.not_lt_zero k)
  | append_singleton history u ih =>
    rw [List.count_append] at hk
    rw [after_append]
    by_cases hlast : k < history.count .read
    · rw [ih hlast]
      cases u with
      | read => rfl
      | write bytes => rfl
    · -- the last use is the read that is served
      cases u with
      | write bytes => exact absurd hk hlast
      | read =>
        have hcount : history.count .read = k := by
          rw [List.count_singleton_self] at hk
          omega
        rw [after_lazy_of_unserved history (hcount ▸ h), hcount, use_read, read_lazy, hb]
        rfl

/-! ## Output classes -/

/-- An output class is what was written to it, and never asks. -/
theorem after_output : after p logging (output n) history j =
    (⟨n, .output (history.flatMap Use.bytes)⟩, j) := by
  induction history using List.reverseRecOn with
  | nil => rfl
  | append_singleton history u ih =>
    rw [after_append, ih, List.flatMap_append]
    cases u with
    | read => rw [List.flatMap_singleton, Use.bytes, List.append_nil]; rfl
    | write bytes => rw [List.flatMap_singleton]; rfl

/-! ## What comes next -/

theorem write_of_input (h : c.isOutput = false) (bytes : Bytes) :
    c.write bytes = .error (refusal c.name) := by
  obtain ⟨name, content⟩ := c
  cases content with
  | output written => cases h
  | _ => rfl

/-- A read makes no output class of an input class. -/
theorem read_keeps (p : Provider) (logging : LogSettings) (c : Cell) (j : Journal) :
    (c.read p logging j).1.2.name = c.name ∧
      (c.read p logging j).1.2.isOutput = c.isOutput := by
  obtain ⟨name, content⟩ := c
  cases content with
  | unresolved =>
    change ((lazy name).read p logging j).1.2.name = name ∧
      ((lazy name).read p logging j).1.2.isOutput = false
    rw [← asked_zero logging name j, read_lazy]
    cases only name (p.answerAfter j.requests name 0) with
    | error e => exact ⟨rfl, rfl⟩
    | ok bytes => exact ⟨rfl, rfl⟩
  | _ => exact ⟨rfl, rfl⟩

/-- An input class stays one under its name. -/
theorem after_lazy_keeps : (after p logging (lazy n) history j).1.name = n ∧
    (after p logging (lazy n) history j).1.isOutput = false := by
  induction history using List.reverseRecOn with
  | nil => exact ⟨rfl, rfl⟩
  | append_singleton history u ih =>
    rw [after_append]
    cases u with
    | read =>
      obtain ⟨hname, hinput⟩ := read_keeps p logging
        (after p logging (lazy n) history j).1 (after p logging (lazy n) history j).2
      exact ⟨hname.trans ih.1, hinput.trans ih.2⟩
    | write bytes =>
      rw [use_write, write_of_input ih.2]
      exact ih

theorem toBlob_eq : c.toBlob p logging j =
    ((c.read p logging j).1.1.map (⟨c.name, ·⟩), (c.read p logging j).2) := rfl

/-- **Content cells over any history.** While no answer had exactly one class, an input class is not
known, and each read asks once, for the name of the cell: it fails if there is no class or if there
are several, with their number, and otherwise it gives the bytes, keeps them and reports so. From
this read on no read asks or reports any more, and all give these bytes. To turn the cell into a
class is to read it a last time, and every write is refused. An output class is everything that was
written to it, in order, and asks for nothing. The only message is that of the read that was served:
it is one about the loading of bytecode, and is sent if those are wanted. -/
theorem contents_after (p : Provider) (logging : LogSettings) (n : TypeName) (history : List Use)
    (j : Journal) :
    (let answer := p.answerAfter j.requests n
      let reads := history.count .read
      let c := (after p logging (lazy n) history j).1
      let j' := (after p logging (lazy n) history j).2
      ((∀ k < reads, (answer k).length ≠ 1) →
        c = lazy n ∧ j' = asked logging n reads j ∧
        (answer reads = [] → c.read p logging j' =
          ((.error (.unresolvable n), c), asked logging n (reads + 1) j)) ∧
        (2 ≤ (answer reads).length → c.read p logging j' =
          ((.error (.ambiguous n (answer reads).length), c), asked logging n (reads + 1) j)) ∧
        ∀ b, answer reads = [b] → c.read p logging j' =
          ((.ok b.bytes, ⟨n, .resolved b.bytes⟩), loaded logging n (reads + 1) b.bytes j)) ∧
      (∀ k < reads, ∀ b, answer k = [b] → (∀ i < k, (answer i).length ≠ 1) →
        j' = loaded logging n (k + 1) b.bytes j ∧
        c.read p logging j' = ((.ok b.bytes, c), j')) ∧
      c.toBlob p logging j' =
        ((c.read p logging j').1.1.map (⟨n, ·⟩), (c.read p logging j').2) ∧
      ∀ bytes, c.write bytes = .error (refusal n)) ∧
    (let written := history.flatMap Use.bytes
      let c := (after p logging (output n) history j).1
      (after p logging (output n) history j).2 = j ∧ c.read p logging j = ((.ok written, c), j) ∧
      c.toBlob p logging j = (.ok ⟨n, written⟩, j) ∧
      ∀ bytes, c.write bytes = .ok ⟨n, .output (written ++ bytes)⟩) ∧
    (∀ k, (asked logging n k j).messages = j.messages) ∧
    ∀ k bytes, (loaded logging n k bytes j).messages.toList = j.messages.toList ++
      if logging.enables .loadingBytecode then
        [⟨.loadingBytecode, (loadedMessage n bytes.length).text⟩] else [] := by
  refine ⟨?_, ?_, fun k => rfl, fun k bytes => messages_loaded k bytes⟩
  · intro answer reads c j'
    obtain ⟨hname, hinput⟩ : c.name = n ∧ c.isOutput = false := after_lazy_keeps history
    refine ⟨fun h => ?_, fun k hk b hb h => ?_, ?_, fun bytes => hname ▸ write_of_input hinput bytes⟩
    · have hlast : after p logging (lazy n) history j = (lazy n, asked logging n reads j) :=
        after_lazy_of_unserved history h
      have hc : c = lazy n := congrArg Prod.fst hlast
      have hj : j' = asked logging n reads j := congrArg Prod.snd hlast
      rw [hc, hj, read_lazy]
      refine ⟨rfl, rfl, fun hnone => ?_, fun hmany => ?_, fun b hb => ?_⟩
      · rw [show p.answerAfter j.requests n reads = [] from hnone]
        rfl
      · rw [only_of_two_le hmany]
      · rw [show p.answerAfter j.requests n reads = [b] from hb]
        rfl
    · have hlast : after p logging (lazy n) history j =
          (⟨n, .resolved b.bytes⟩, loaded logging n (k + 1) b.bytes j) :=
        after_lazy_of_served history hk hb h
      have hc : c = ⟨n, .resolved b.bytes⟩ := congrArg Prod.fst hlast
      have hj : j' = loaded logging n (k + 1) b.bytes j := congrArg Prod.snd hlast
      rw [hc, hj]
      exact ⟨rfl, rfl⟩
    · rw [toBlob_eq, hname]
  · intro written c
    have hlast : after p logging (output n) history j = (⟨n, .output written⟩, j) :=
      after_output history
    have hc : c = ⟨n, .output written⟩ := congrArg Prod.fst hlast
    rw [hc, hlast]
    exact ⟨rfl, rfl, rfl, fun bytes => rfl⟩

end Cell

end VirtualClasspath
