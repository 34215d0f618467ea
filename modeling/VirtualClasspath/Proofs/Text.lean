import Mathlib.Data.List.TakeWhile
import VirtualClasspath.Text.Cut
import VirtualClasspath.TypeName

/-!
# Beginnings, ends and pieces of texts

`Text.after?` decides whether one list of characters begins with another, `Text.cutFirst` and
`Text.cutLast` look for an occurrence of a character, `Text.pieces` cuts at all of them, and
`Text.trimChars` takes the blanks off both ends. The lemmas state this, and what follows from it for
texts and names, by concatenation: `TypeName.isOutputOf_iff` says which classes the source of a class
is compiled to.
-/

namespace VirtualClasspath

namespace Text

theorem after?_append (pre rest : List Char) : after? pre (pre ++ rest) = some rest := by
  induction pre with
  | nil => rfl
  | cons c pre ih => rw [List.cons_append, after?, if_pos rfl, ih]

theorem after?_eq_some_iff {pre l rest : List Char} :
    after? pre l = some rest ↔ l = pre ++ rest := by
  refine ⟨fun h => ?_, fun h => h ▸ after?_append pre rest⟩
  induction pre generalizing l with
  | nil => exact Option.some.inj h
  | cons c pre ih =>
    cases l with
    | nil => simp [after?] at h
    | cons d l =>
      rw [after?] at h
      split at h
      · rename_i hc
        rw [ih h, hc, List.cons_append]
      · cases h

theorem after?_eq_none_iff {pre l : List Char} : after? pre l = none ↔ ∀ rest, l ≠ pre ++ rest := by
  constructor
  · intro h rest he
    rw [he, after?_append] at h
    cases h
  · intro h
    cases hl : after? pre l with
    | none => rfl
    | some rest => exact absurd (after?_eq_some_iff.mp hl) (h rest)

theorem toList_eq_append_iff {s t : String} {l : List Char} :
    s.toList = t.toList ++ l ↔ s = t ++ String.ofList l := by
  rw [← String.toList_inj, String.toList_append, String.toList_ofList]

theorem stripBeginning?_eq_some_iff {pre s tail : String} :
    stripBeginning? pre s = some tail ↔ s.toList = pre.toList ++ tail.toList := by
  unfold stripBeginning?
  rw [Option.map_eq_some_iff]
  constructor
  · rintro ⟨l, hl, rfl⟩
    rw [String.toList_ofList]
    exact after?_eq_some_iff.mp hl
  · intro h
    exact ⟨tail.toList, after?_eq_some_iff.mpr h, String.ofList_toList⟩

theorem stripBeginning?_eq_none_iff {pre s : String} :
    stripBeginning? pre s = none ↔ ∀ tail, s.toList ≠ pre.toList ++ tail := by
  unfold stripBeginning?
  rw [Option.map_eq_none_iff, after?_eq_none_iff]

/-- A text does not begin in two ways of which neither is the beginning of the other. -/
theorem stripBeginning?_eq_none_of_apart {pre pre' s : String} {tail : List Char}
    (hs : s.toList = pre'.toList ++ tail) (h : ¬ pre.toList <+: pre'.toList)
    (h' : ¬ pre'.toList <+: pre.toList) : stripBeginning? pre s = none := by
  rw [stripBeginning?_eq_none_iff]
  intro rest hr
  exact (List.prefix_or_prefix_of_prefix ⟨rest, hr.symm⟩ ⟨tail, hs.symm⟩).elim h h'

theorem beginsWith_iff {pre s : String} :
    beginsWith pre s = true ↔ ∃ tail, s.toList = pre.toList ++ tail := by
  unfold beginsWith
  rw [Option.isSome_iff_exists]
  simp only [after?_eq_some_iff]

theorem hasChar_eq_false_iff {c : Char} {s : String} : hasChar c s = false ↔ c ∉ s.toList := by
  unfold hasChar
  rw [List.contains_eq_mem, decide_eq_false_iff_not]

/-! ## The last occurrence of a character -/

theorem cutLast_eq_none_iff {c : Char} {l : List Char} : cutLast c l = none ↔ c ∉ l := by
  induction l with
  | nil => exact iff_of_true rfl List.not_mem_nil
  | cons x l ih =>
    rw [cutLast, List.mem_cons, not_or, ← ih]
    cases cutLast c l with
    | some p => simp
    | none => simp [eq_comm]

theorem cutLast_append {c : Char} {pre post : List Char} (h : c ∉ post) :
    cutLast c (pre ++ c :: post) = some (pre, post) := by
  induction pre with
  | nil => rw [List.nil_append, cutLast, cutLast_eq_none_iff.mpr h]; exact if_pos rfl
  | cons x pre ih => rw [List.cons_append, cutLast, ih]

theorem cutLast_eq_some_iff {c : Char} {l pre post : List Char} :
    cutLast c l = some (pre, post) ↔ l = pre ++ c :: post ∧ c ∉ post := by
  refine ⟨fun h => ?_, fun ⟨hl, hpost⟩ => hl ▸ cutLast_append hpost⟩
  induction l generalizing pre with
  | nil => cases h
  | cons x l ih =>
    rw [cutLast] at h
    split at h
    · rename_i hcut
      cases h
      obtain ⟨rfl, hpost⟩ := ih hcut
      exact ⟨rfl, hpost⟩
    · rename_i hcut
      split at h
      · rename_i hx
        cases h
        exact ⟨by rw [hx, List.nil_append], cutLast_eq_none_iff.mp hcut⟩
      · cases h

/-! ## The first occurrence of a character -/

theorem cutFirst_eq_none_iff {c : Char} {l : List Char} : cutFirst c l = none ↔ c ∉ l := by
  induction l with
  | nil => exact iff_of_true rfl List.not_mem_nil
  | cons x l ih =>
    rw [cutFirst, List.mem_cons, not_or, ← ih]
    by_cases hx : x = c
    · simp [hx]
    · simp [hx, Ne.symm hx]

theorem cutFirst_append {c : Char} {pre post : List Char} (h : c ∉ pre) :
    cutFirst c (pre ++ c :: post) = some (pre, post) := by
  induction pre with
  | nil => exact if_pos rfl
  | cons x pre ih =>
    obtain ⟨hx, hpre⟩ := not_or.mp (mt List.mem_cons.mpr h)
    rw [List.cons_append, cutFirst, if_neg (Ne.symm hx), ih hpre]
    rfl

/-! ## Pieces -/

theorem pieces_eq_splitOn (c : Char) (l : List Char) : pieces c l = l.splitOn c := by
  induction l with
  | nil => rfl
  | cons x l ih =>
    have hne : pieces c l ≠ [] := ih ▸ List.splitOnP_ne_nil _ l
    rw [List.splitOn, List.splitOnP_cons_eq_if_modifyHead, pieces]
    change _ = if (x == c) = true then [] :: l.splitOn c else (l.splitOn c).modifyHead (List.cons x)
    rw [← ih]
    cases h : pieces c l with
    | nil => exact absurd h hne
    | cons p ps => simp

/-- Texts without `c`, joined by `c`, are the pieces of what they make. -/
theorem pieces_intercalate {c : Char} {ps : List (List Char)} (hne : ps ≠ [])
    (h : ∀ p ∈ ps, c ∉ p) : pieces c ([c].intercalate ps) = ps := by
  rw [pieces_eq_splitOn, List.splitOn_intercalate c h hne]

theorem intercalate_pieces (c : Char) (l : List Char) : [c].intercalate (pieces c l) = l := by
  rw [pieces_eq_splitOn, List.intercalate_splitOn]

theorem pieces_ne_nil (c : Char) (l : List Char) : pieces c l ≠ [] :=
  pieces_eq_splitOn c l ▸ List.splitOnP_ne_nil _ l

theorem not_mem_of_mem_pieces {c : Char} {l p : List Char} (h : p ∈ pieces c l) : c ∉ p := by
  induction l generalizing p with
  | nil => exact List.mem_singleton.mp h ▸ List.not_mem_nil
  | cons x l ih =>
    rw [pieces] at h
    cases hl : pieces c l with
    | nil => exact absurd hl (pieces_ne_nil c l)
    | cons q qs =>
      rw [hl] at h ih
      dsimp only at h
      split at h
      · rcases List.mem_cons.mp h with rfl | h
        · exact List.not_mem_nil
        · exact ih h
      · rename_i hx
        rcases List.mem_cons.mp h with rfl | h
        · exact fun hc => (List.mem_cons.mp hc).elim (fun he => hx he.symm) (ih List.mem_cons_self)
        · exact ih (List.mem_cons_of_mem q h)

/-! ## Blanks at the ends -/

/-- Only blank characters. -/
def Blank (l : List Char) : Prop := ∀ c ∈ l, isBlank c = true

/-- `t` is `l` without the blank characters at both ends. -/
structure Trims (l t : List Char) : Prop where
  around : ∃ a b, l = a ++ t ++ b ∧ Blank a ∧ Blank b
  first : ∀ c ∈ t.head?, isBlank c = false
  last : ∀ c ∈ t.getLast?, isBlank c = false

theorem dropWhile_of_head? {p : Char → Bool} {l : List Char} (h : ∀ c ∈ l.head?, p c = false) :
    l.dropWhile p = l := by
  cases l with
  | nil => rfl
  | cons c l => exact List.dropWhile_cons_of_neg (by simp [h c rfl])

theorem head?_dropWhile (p : Char → Bool) (l : List Char) :
    ∀ c ∈ (l.dropWhile p).head?, p c = false := by
  intro c hc
  have := List.head?_dropWhile_not p l
  rwa [Option.mem_def.mp hc] at this

theorem trims_trimChars (l : List Char) : Trims l (trimChars l) where
  around := by
    refine ⟨l.takeWhile isBlank, ((l.dropWhile isBlank).reverse.takeWhile isBlank).reverse, ?_,
      fun c hc => ?_, fun c hc => ?_⟩
    · unfold trimChars dropEndWhile
      rw [List.append_assoc, ← List.reverse_append, List.takeWhile_append_dropWhile,
        List.reverse_reverse, List.takeWhile_append_dropWhile]
    · exact List.mem_takeWhile_imp hc
    · exact List.mem_takeWhile_imp (List.mem_reverse.mp hc)
  first := by
    intro c hc
    -- what is left is a beginning of what is left without the blanks in front
    have hd : trimChars l ++ ((l.dropWhile isBlank).reverse.takeWhile isBlank).reverse =
        l.dropWhile isBlank := by
      unfold trimChars dropEndWhile
      rw [← List.reverse_append, List.takeWhile_append_dropWhile, List.reverse_reverse]
    refine head?_dropWhile isBlank l c ?_
    rw [← hd, List.head?_append, Option.mem_def.mp hc]
    rfl
  last := by
    intro c hc
    unfold trimChars dropEndWhile at hc
    rw [List.getLast?_reverse] at hc
    exact head?_dropWhile isBlank _ c hc

/-- There is one way to trim. -/
theorem Trims.eq_trimChars {l t : List Char} (h : Trims l t) : trimChars l = t := by
  obtain ⟨a, b, rfl, ha, hb⟩ := h.around
  unfold trimChars dropEndWhile
  rw [List.append_assoc, List.dropWhile_append_of_pos ha]
  cases ht : t with
  | nil => rw [List.nil_append, List.dropWhile_eq_nil_iff.mpr hb]; rfl
  | cons c t' =>
    rw [← ht]
    have hfirst : ∀ x ∈ (t ++ b).head?, isBlank x = false := by
      intro x hx
      exact h.first x (by rw [ht] at hx ⊢; exact hx)
    have hlast : ∀ x ∈ t.reverse.head?, isBlank x = false := by
      rw [List.head?_reverse]
      exact h.last
    rw [dropWhile_of_head? hfirst, List.reverse_append,
      List.dropWhile_append_of_pos fun x hx => hb x (List.mem_reverse.mp hx),
      dropWhile_of_head? hlast, List.reverse_reverse]

theorem trimChars_eq_nil_iff {l : List Char} : trimChars l = [] ↔ Blank l := by
  constructor
  · intro h
    obtain ⟨a, b, hl, ha, hb⟩ := (trims_trimChars l).around
    rw [h, List.append_nil] at hl
    rw [hl]
    exact fun c hc => (List.mem_append.mp hc).elim (ha c) (hb c)
  · intro h
    refine Trims.eq_trimChars ⟨⟨l, [], ?_, h, fun c hc => absurd hc List.not_mem_nil⟩, ?_, ?_⟩
    · rw [List.append_nil, List.append_nil]
    · exact fun c hc => absurd hc (Option.not_mem_none c)
    · exact fun c hc => absurd hc (Option.not_mem_none c)

end Text

namespace TypeName

/-- What compiling the source of `s` may write: the class itself, and every class whose name goes on
with `$`. -/
def Writes (s n : TypeName) : Prop := n = s ∨ ∃ rest, n.text = s.text ++ "$" ++ rest

/-- **`isOutputOf` decides `Writes`.** -/
theorem isOutputOf_iff {n s : TypeName} : n.isOutputOf s = true ↔ s.Writes n := by
  unfold isOutputOf Writes
  split
  · rename_i h
    have he := Text.after?_eq_some_iff.mp h
    rw [List.append_nil, String.toList_inj, text_inj] at he
    simp [he]
  · rename_i c rest h
    have he := Text.toList_eq_append_iff.mp (Text.after?_eq_some_iff.mp h)
    rw [decide_eq_true_iff]
    constructor
    · rintro rfl
      refine Or.inr ⟨String.ofList rest, ?_⟩
      rw [he, String.append_assoc, ← String.toList_inj]
      simp
    · rintro (rfl | ⟨tail, ht⟩)
      · have := congrArg String.length he
        simp at this
      · rw [he, String.append_assoc, ← String.toList_inj] at ht
        simp only [String.toList_append, String.toList_ofList, List.append_cancel_left_eq] at ht
        exact (List.cons.inj ht).1
  · rename_i h
    refine ⟨fun hf => absurd hf Bool.false_ne_true, ?_⟩
    have hn := Text.after?_eq_none_iff.mp h
    rintro (rfl | ⟨rest, ht⟩)
    · exact absurd (List.append_nil _).symm (hn [])
    · refine absurd ?_ (hn ("$" ++ rest).toList)
      rw [ht, String.append_assoc, String.toList_append]

end TypeName

end VirtualClasspath
