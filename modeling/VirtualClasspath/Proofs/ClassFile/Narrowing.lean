import Mathlib.Logic.Basic
import VirtualClasspath.ClassFile.Reader

/-!
# Readers with limits

`Reader.Narrows` compares two readers of which the second has limits of its own: what the first one
reads, the second one reads too if it stays within these limits, and otherwise it says that something
nests too deep. Such pairs are put together like readers are: one after another (`Narrows.bind`), in
tables (`narrows_table`), and up to the last byte (`Narrows.entire_of_fits`,
`Narrows.entire_of_not_fits`).
-/

namespace VirtualClasspath.ClassFile

/-- Something nests too deep: attributes in attributes, or values in values. -/
inductive Fault.TooDeep : Fault → Prop
  | attribute {name : String} : TooDeep (.malformedAttribute name .nestedTooDeep)
  | value : TooDeep (.malformedAttribute "annotation" .valuesTooDeep)

namespace Reader

variable {α β : Type} {P : α → Prop} {Q : β → Prop} {r r' : Reader α} {f f' : α → Reader β}

/-- Of what `r` reads, `r'` reads the values that `P` allows, and says of the others that something
nests too deep. -/
structure Narrows (P : α → Prop) (r r' : Reader α) : Prop where
  keeps : ∀ {s t : Bytes} {a : α}, r s = .ok (a, t) → P a → r' s = .ok (a, t)
  refuses : ∀ {s t : Bytes} {a : α}, r s = .ok (a, t) → ¬ P a →
    ∃ fault, r' s = .error fault ∧ fault.TooDeep

theorem narrows_of_true (h : ∀ a, P a) (r : Reader α) : Narrows P r r where
  keeps hr _ := hr
  refuses _ hn := absurd (h _) hn

/-- A reader that never has a value is narrowed by every reader. -/
theorem narrows_of_error (h : ∀ s, ∃ fault, r s = .error fault) (r' : Reader α) :
    Narrows P r r' where
  keeps {s} _ _ hr := by
    obtain ⟨fault, he⟩ := h s
    rw [he] at hr
    cases hr
  refuses {s} _ _ hr := by
    obtain ⟨fault, he⟩ := h s
    rw [he] at hr
    cases hr

theorem narrows_pure {a : α} (h : P a) : Narrows P (pure a) (pure a) where
  keeps hr _ := hr
  refuses hr hn := by
    cases hr
    exact absurd h hn

/-! ## Steps -/

/-- **One reader after another.** What the whole allows of a value, the first reader allows of the
part that it reads. -/
theorem Narrows.bind (hr : Narrows P r r') (hf : ∀ a, P a → Narrows Q (f a) (f' a))
    (hfirst : ∀ {a : α} {s t : Bytes} {b : β}, f a s = .ok (b, t) → Q b → P a) :
    Narrows Q (r >>= f) (r' >>= f') where
  keeps h hb := by
    obtain ⟨a, u, hra, hfa⟩ := bind_eq_ok h
    have ha := hfirst hfa hb
    rw [bind_of_ok (hr.keeps hra ha)]
    exact (hf a ha).keeps hfa hb
  refuses h hb := by
    obtain ⟨a, u, hra, hfa⟩ := bind_eq_ok h
    by_cases ha : P a
    · rw [bind_of_ok (hr.keeps hra ha)]
      exact (hf a ha).refuses hfa hb
    · obtain ⟨fault, he, hdeep⟩ := hr.refuses hra ha
      exact ⟨fault, bind_of_error he, hdeep⟩

/-- What is read first has no limits. -/
theorem Narrows.after (r : Reader α) (hf : ∀ a, Narrows Q (f a) (f' a)) :
    Narrows Q (r >>= f) (r >>= f') :=
  (narrows_of_true (fun _ => trivial) r).bind (fun a _ => hf a) fun _ _ => trivial

theorem Narrows.map (hr : Narrows P r r') (g : α → β) (h : ∀ a, Q (g a) ↔ P a) :
    Narrows Q (do return g (← r)) (do return g (← r')) :=
  hr.bind (fun a ha => narrows_pure ((h a).mpr ha)) fun {a} _ _ _ he hb => by
    cases he
    exact (h a).mp hb

theorem narrows_ite {c : Prop} [Decidable c] {q q' : Reader α} (h : c → Narrows P r r')
    (h' : ¬ c → Narrows P q q') : Narrows P (if c then r else q) (if c then r' else q') := by
  by_cases hc : c
  · rw [if_pos hc, if_pos hc]
    exact h hc
  · rw [if_neg hc, if_neg hc]
    exact h' hc

theorem narrows_repeated (h : Narrows P r r') (n : Nat) :
    Narrows (fun l => ∀ a ∈ l, P a) (repeated r n) (repeated r' n) := by
  induction n with
  | zero => exact narrows_pure fun a ha => absurd ha List.not_mem_nil
  | succ n ih =>
    refine h.bind (fun a ha => ih.map (a :: ·) fun l => ?_) fun {a} _ _ _ he hl => ?_
    · rw [List.forall_mem_cons]
      exact and_iff_right ha
    · obtain ⟨_, _, _, hpure⟩ := bind_eq_ok he
      cases hpure
      exact hl a List.mem_cons_self

theorem narrows_table (h : Narrows P r r') :
    Narrows (fun l => ∀ a ∈ l, P a) (table r) (table r') :=
  .after u2 fun n => narrows_repeated h n.toNat

/-! ## Whole byte strings -/

/-- What `r` reads if it uses up the bytes; `unread` is the fault if it leaves that many. -/
def entire (unread : Nat → Fault) (r : Reader α) (bytes : Bytes) : Except Fault α :=
  match r bytes with
  | .error fault => .error fault
  | .ok (a, []) => .ok a
  | .ok (_, rest) => .error (unread rest.length)

theorem entire_eq_ok_iff {unread : Nat → Fault} {bytes : Bytes} {a : α} :
    entire unread r bytes = .ok a ↔ r bytes = .ok (a, []) := by
  unfold entire
  split <;> simp_all

theorem liftResult_eq_ok_iff {v : Except Fault α} {s t : Bytes} {a : α} :
    liftResult v s = .ok (a, t) ↔ v = .ok a ∧ s = t := by
  cases v with
  | error fault => simp [liftResult, Except.map]
  | ok b => simp [liftResult, Except.map]

/-- The same for results instead of readers. -/
theorem narrows_liftResult {v v' : Except Fault α} (hkeeps : ∀ {a}, v = .ok a → P a → v' = .ok a)
    (hrefuses : ∀ {a}, v = .ok a → ¬ P a → ∃ fault, v' = .error fault ∧ fault.TooDeep) :
    Narrows P (liftResult v) (liftResult v') where
  keeps h ha := by
    obtain ⟨hv, hs⟩ := liftResult_eq_ok_iff.mp h
    exact liftResult_eq_ok_iff.mpr ⟨hkeeps hv ha, hs⟩
  refuses h ha := by
    obtain ⟨fault, he, hdeep⟩ := hrefuses (liftResult_eq_ok_iff.mp h).1 ha
    exact ⟨fault, by rw [he]; rfl, hdeep⟩

theorem Narrows.entire_of_fits (h : Narrows P r r') {unread : Nat → Fault} {bytes : Bytes} {a : α}
    (ha : entire unread r bytes = .ok a) (hp : P a) : entire unread r' bytes = .ok a :=
  entire_eq_ok_iff.mpr (h.keeps (entire_eq_ok_iff.mp ha) hp)

theorem Narrows.entire_of_not_fits (h : Narrows P r r') {unread : Nat → Fault} {bytes : Bytes}
    {a : α} (ha : entire unread r bytes = .ok a) (hp : ¬ P a) :
    ∃ fault, entire unread r' bytes = .error fault ∧ fault.TooDeep := by
  obtain ⟨fault, he, hdeep⟩ := h.refuses (entire_eq_ok_iff.mp ha) hp
  refine ⟨fault, ?_, hdeep⟩
  unfold entire
  rw [he]

end Reader

end VirtualClasspath.ClassFile
