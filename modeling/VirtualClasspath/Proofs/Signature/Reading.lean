import VirtualClasspath.Proofs.Signature.Plain
import VirtualClasspath.Proofs.Signature.Tree

/-!
# What each step of the scanner finds

A scanner returns a rest together with a proof that it is shorter; `found` leaves the proof out.
There is one equation for each function of the scanner and each way in which a text can begin: what
is found there, in terms of what is found in the rest of the text.
-/

namespace VirtualClasspath.Signature

/-- The names that were read and the characters that are left. -/
abbrev Found := Option (List TypeName × List Char)

/-- What was found, the proof that the rest is shorter left out. -/
def found {P : List Char → Prop} (r : Option (List TypeName × { t : List Char // P t })) : Found :=
  r.map fun p => (p.1, p.2.1)

/-- More names in front. -/
def Found.after (names : List TypeName) (r : Found) : Found := r.map fun p => (names ++ p.1, p.2)

theorem Found.after_nil (F : Found) : F.after [] = F := by
  cases F <;> rfl

/-- What `next` finds in what `r` has left, after what `r` has found. -/
def Found.andThen (r : Found) (next : List Char → Found) : Found :=
  r.bind fun p => (next p.2).after p.1

/-- What was found before a character that is still to be passed. -/
def Found.before (d : Char) (F : Found) : Found := F.map fun p => (p.1, d :: p.2)

theorem Found.andThen_before {d : Char} {F : Found} {next : List Char → Found} :
    (F.andThen next).before d = F.andThen fun t => (next t).before d := by
  cases F with
  | none => rfl
  | some p =>
    obtain ⟨names, t⟩ := p
    change ((next t).after names).before d = ((next t).before d).after names
    cases next t <;> rfl

variable {scan : Scanner} {c : Char} {cs r s : List Char} {n : TypeName}

/-- Nothing is left of an empty text. -/
theorem found_nil {F : Option (List TypeName × Rest [])} : found F = none := by
  cases F with
  | none => rfl
  | some p => exact absurd p.2.2 (Nat.not_lt_zero _)

/-! ## Types -/

theorem found_classSuffix_arguments :
    found (classSuffix scan n ('<' :: r)) =
      (found (scan r)).andThen fun t => found (classSuffix scan n t) := by
  rw [classSuffix]
  cases scan r with
  | none => rfl
  | some p =>
    obtain ⟨names, t, ht⟩ := p
    simp only [found, Option.map_some, Found.andThen, Option.bind_some]
    cases classSuffix scan n t <;> rfl

/-- A name is read up to the character that ends it. -/
theorem nameAndRest?_append (hcs : cs ≠ []) (hname : ∀ c ∈ cs, endsName c = false)
    (hs : s.head?.any endsName = true) : ∃ h, nameAndRest? (cs ++ s) = some (cs, ⟨s, h⟩) := by
  cases s with
  | nil => cases hs
  | cons c r =>
    have hend : endsName c = true := hs
    have htake : (cs ++ c :: r).takeWhile (!endsName ·) = cs := by
      rw [List.takeWhile_append_of_pos fun a ha => by simp [hname a ha]]
      simp [hend]
    have hdrop : (cs ++ c :: r).dropWhile (!endsName ·) = c :: r := by
      rw [List.dropWhile_append_of_pos fun a ha => by simp [hname a ha]]
      simp [hend]
    have hlength : (c :: r).length < (cs ++ c :: r).length := by
      rw [List.length_append]
      exact Nat.lt_add_of_pos_left (List.length_pos_iff.mpr hcs)
    refine ⟨hlength, ?_⟩
    unfold nameAndRest?
    simp [htake, hdrop, hcs]

/-- No name is read from a text that begins with a character that ends one. -/
theorem nameAndRest?_of_ended (hs : s.head?.any endsName = true) : nameAndRest? s = none := by
  cases s with
  | nil => cases hs
  | cons c r =>
    have hend : endsName c = true := hs
    unfold nameAndRest?
    simp [hend]

/-- No name is read from a text in which no character ends one. -/
theorem nameAndRest?_of_unended (hs : ∀ c ∈ s, endsName c = false) : nameAndRest? s = none := by
  have hdrop : s.dropWhile (!endsName ·) = [] :=
    List.dropWhile_eq_nil_iff.mpr fun c hc => by rw [hs c hc]; rfl
  unfold nameAndRest?
  simp only [hdrop, or_true, dif_pos]

theorem found_classSuffix_dot :
    found (classSuffix scan n ('.' :: r)) = (nameAndRest? r).bind fun p =>
      if p.1.contains '/' || !isInternalName p.1 then none
      else
        (found (classSuffix scan ⟨n.text ++ "$" ++ String.ofList p.1⟩ p.2.1)).after
          [⟨n.text ++ "$" ++ String.ofList p.1⟩] := by
  rw [classSuffix]
  cases nameAndRest? r with
  | none => rfl
  | some p =>
    obtain ⟨cs, t, ht⟩ := p
    simp only [Option.bind_some]
    split
    · rfl
    · cases classSuffix scan ⟨n.text ++ "$" ++ String.ofList cs⟩ t <;> rfl

theorem found_classSuffix_nested (hcs : cs ≠ []) (hname : ∀ c ∈ cs, endsName c = false)
    (hs : s.head?.any endsName = true) (hvalid : isInternalName cs = true) (hslash : '/' ∉ cs) :
    found (classSuffix scan n ('.' :: (cs ++ s))) =
      (found (classSuffix scan ⟨n.text ++ "$" ++ String.ofList cs⟩ s)).after
        [⟨n.text ++ "$" ++ String.ofList cs⟩] := by
  obtain ⟨ht, h⟩ := nameAndRest?_append hcs hname hs
  rw [found_classSuffix_dot, h]
  simp only [Option.bind_some, hvalid, List.contains_eq_mem, hslash, decide_false, Bool.not_true,
    Bool.or_self, Bool.false_eq_true, if_false]

theorem found_classSuffix_end : found (classSuffix scan n (';' :: r)) = some ([], r) := by
  rw [classSuffix]
  rfl

theorem found_classSuffix_other (hc : endsName c = false) :
    found (classSuffix scan n (c :: r)) = none := by
  simp only [endsName, Bool.or_eq_false_iff, decide_eq_false_iff_not] at hc
  rw [classSuffix]
  · rfl
  all_goals
    rintro _ he
    cases he
    simp at hc

theorem found_classType_eq :
    found (classType scan s) = (nameAndRest? s).bind fun p =>
      if isInternalName p.1 then
        (found (classSuffix scan (.ofInternal (String.ofList p.1)) p.2.1)).after
          [.ofInternal (String.ofList p.1)]
      else none := by
  unfold classType
  cases nameAndRest? s with
  | none => rfl
  | some p =>
    obtain ⟨cs, t, ht⟩ := p
    simp only [Option.bind_some]
    cases isInternalName cs with
    | false => rfl
    | true => cases classSuffix scan (.ofInternal (String.ofList cs)) t <;> rfl

theorem found_classType (hcs : cs ≠ []) (hname : ∀ c ∈ cs, endsName c = false)
    (hs : s.head?.any endsName = true) (hvalid : isInternalName cs = true) :
    found (classType scan (cs ++ s)) =
      (found (classSuffix scan (.ofInternal (String.ofList cs)) s)).after
        [.ofInternal (String.ofList cs)] := by
  obtain ⟨ht, h⟩ := nameAndRest?_append hcs hname hs
  rw [found_classType_eq, h]
  simp only [Option.bind_some, hvalid, if_true]

/-- What is found at the first character that is no bracket. -/
def elementFound (scan : Scanner) : List Char → Found
  | [] => none
  | c :: r =>
    if isPrimitive c then some ([], r)
    else if c = 'T' then found (typeVariable r)
    else if c = 'L' then found (classType scan r)
    else none

theorem found_typeWith :
    found (typeWith scan s) =
      if maxDimensions < (s.takeWhile (· = '[')).length then none
      else elementFound scan (s.dropWhile (· = '[')) := by
  unfold typeWith
  split
  · rfl
  · split
    · rename_i h
      rw [h]
      rfl
    · rename_i c r h
      refine Eq.trans ?_ (congrArg (elementFound scan) h).symm
      simp only [elementFound]
      by_cases hprimitive : isPrimitive c = true
      · simp only [hprimitive, if_true]
        rfl
      · by_cases hvariable : c = 'T'
        · simp only [hvariable, if_true]
          cases typeVariable r <;> rfl
        · by_cases hclass : c = 'L'
          · simp only [hclass, if_true]
            cases classType scan r <;> rfl
          · simp only [hprimitive, hvariable, hclass, if_false]
            rfl

/-- What is found when the opening brackets are passed, of which there have been `k` already. -/
def bracketsFound (k : Nat) (s : List Char) : Found :=
  if maxDimensions < k + (s.takeWhile (· = '[')).length ∨ s.dropWhile (· = '[') = [] then none
  else some ([], s.dropWhile (· = '['))

theorem found_typeWith_brackets :
    found (typeWith scan s) = (bracketsFound 0 s).andThen (elementFound scan) := by
  rw [found_typeWith, bracketsFound, Nat.zero_add]
  by_cases hmany : maxDimensions < (s.takeWhile (· = '[')).length
  · rw [if_pos hmany, if_pos (Or.inl hmany)]
    rfl
  · by_cases hend : s.dropWhile (· = '[') = []
    · rw [if_neg hmany, if_pos (Or.inr hend), hend]
      rfl
    · rw [if_neg hmany, if_neg (not_or.mpr ⟨hmany, hend⟩)]
      exact (Found.after_nil _).symm

theorem found_typeWith_bracket :
    found (typeWith scan ('[' :: s)) =
      if (s.takeWhile (· = '[')).length + 1 ≤ maxDimensions then found (typeWith scan s) else none := by
  rw [found_typeWith, found_typeWith, List.takeWhile_cons_of_pos (by decide),
    List.dropWhile_cons_of_pos (by decide), List.length_cons]
  split
  · rw [if_neg (by omega)]
  · rw [if_pos (by omega), if_neg (by omega)]

theorem found_typeWith_element (hc : c ≠ '[') :
    found (typeWith scan (c :: r)) = elementFound scan (c :: r) := by
  rw [found_typeWith, List.takeWhile_cons_of_neg (by simpa using hc),
    List.dropWhile_cons_of_neg (by simpa using hc)]
  rfl

theorem dropWhile_ne_append (h : c ∉ cs) : (cs ++ c :: r).dropWhile (· ≠ c) = c :: r := by
  rw [List.dropWhile_append_of_pos fun a ha => by simpa using fun e : a = c => h (e ▸ ha)]
  simp

theorem dropWhile_ne_of_not_mem (h : c ∉ s) : s.dropWhile (· ≠ c) = [] :=
  List.dropWhile_eq_nil_iff.mpr fun a ha => by simpa using fun e : a = c => h (e ▸ ha)

theorem found_typeVariable (hcs : cs ≠ []) (hname : ';' ∉ cs) :
    found (typeVariable (cs ++ ';' :: r)) = some ([], r) := by
  cases cs with
  | nil => exact absurd rfl hcs
  | cons c cs =>
    have hc : c ≠ ';' := fun h => hname (h ▸ List.mem_cons_self)
    have hdrop : (cs ++ ';' :: r).dropWhile (· ≠ ';') = ';' :: r :=
      dropWhile_ne_append fun h => hname (List.mem_cons_of_mem c h)
    simp only [List.cons_append, typeVariable, hc, if_false]
    split
    · rename_i h
      rw [hdrop] at h
      cases h
    · rename_i h
      rw [hdrop] at h
      cases h
      rfl

theorem found_typeVariable_unended (hs : ';' ∉ s) : found (typeVariable s) = none := by
  cases s with
  | nil => rfl
  | cons c r =>
    rw [List.mem_cons, not_or] at hs
    have hdrop : r.dropWhile (· ≠ ';') = [] := dropWhile_ne_of_not_mem hs.2
    simp only [typeVariable, Ne.symm hs.1, if_false]
    split
    · rfl
    · rename_i h
      rw [hdrop] at h
      cases h

theorem found_typeVariable_empty : found (typeVariable (';' :: r)) = none := rfl

/-! ## Type arguments -/

theorem found_argumentList_end : found (argumentList scan ('>' :: r)) = some ([], r) := by
  rw [argumentList]
  rfl

theorem found_argumentList_any :
    found (argumentList scan ('*' :: r)) = found (argumentList scan r) := by
  rw [argumentList]
  simp only [Char.reduceEq, if_false, if_true]
  cases argumentList scan r <;> rfl

theorem found_argumentList_bounded (hc : c = '+' ∨ c = '-') :
    found (argumentList scan (c :: r)) =
      (found (scan r)).andThen fun t => found (argumentList scan t) := by
  rw [argumentList]
  have h₁ : c ≠ '>' := by rintro rfl; simp at hc
  have h₂ : c ≠ '*' := by rintro rfl; simp at hc
  simp only [h₁, h₂, hc, if_false, if_true]
  cases scan r with
  | none => rfl
  | some p =>
    obtain ⟨names, t, ht⟩ := p
    simp only [found, Option.map_some, Found.andThen, Option.bind_some]
    cases argumentList scan t <;> rfl

theorem found_argumentList_exact (hc : c ∉ ['>', '*', '+', '-']) :
    found (argumentList scan (c :: r)) =
      (found (scan (c :: r))).andThen fun t => found (argumentList scan t) := by
  rw [argumentList]
  simp only [List.mem_cons, List.not_mem_nil, or_false, not_or] at hc
  simp only [hc, or_self, if_false]
  cases scan (c :: r) with
  | none => rfl
  | some p =>
    obtain ⟨names, t, ht⟩ := p
    simp only [found, Option.map_some, Found.andThen, Option.bind_some]
    cases argumentList scan t <;> rfl

theorem found_typeArguments_empty : found (typeArguments scan ('>' :: r)) = none := rfl

theorem found_typeArguments (hs : s.head? ≠ some '>') :
    found (typeArguments scan s) = found (argumentList scan s) := by
  unfold typeArguments
  rw [if_neg hs]

/-! ## Whole signatures -/

theorem found_bounds_nil : found (bounds scan []) = none := by
  rw [bounds]
  rfl

/-- No bound is read, and nothing is left out. -/
theorem found_bounds_other (hc : c ∉ ['L', 'T', '[', ':']) :
    found (bounds scan (c :: r)) = some ([], c :: r) := by
  rw [bounds]
  simp only [List.mem_cons, List.not_mem_nil, or_false, not_or] at hc
  simp only [hc, or_self, if_false]
  rfl

theorem found_bounds_colon : found (bounds scan (':' :: r)) = found (bounds scan r) := by
  rw [bounds]
  simp only [Char.reduceEq, or_self, if_false, if_true]
  cases bounds scan r <;> rfl

/-- The bounds that follow a bound, if any. -/
def furtherBounds (scan : Scanner) (s : List Char) : Found :=
  if s.head? = some ':' then found (bounds scan s.tail) else some ([], s)

theorem found_bounds_type (hc : c = 'L' ∨ c = 'T' ∨ c = '[') :
    found (bounds scan (c :: r)) = (found (scan (c :: r))).andThen (furtherBounds scan) := by
  rw [bounds]
  simp only [hc, if_true]
  cases scan (c :: r) with
  | none => rfl
  | some p =>
    obtain ⟨names, t, ht⟩ := p
    simp only [found, Option.map_some, Found.andThen, Option.bind_some, furtherBounds]
    by_cases hcolon : t.head? = some ':'
    · simp only [hcolon, if_true]
      cases bounds scan t.tail <;> rfl
    · simp only [hcolon, if_false]
      simp [Found.after]

theorem furtherBounds_colon : furtherBounds scan (':' :: r) = found (bounds scan r) := rfl

/-- Where no type follows a colon, another bound may. -/
theorem found_bounds_absent (hc : c ∉ ['L', 'T', '[']) :
    found (bounds scan (c :: r)) = furtherBounds scan (c :: r) := by
  by_cases hcolon : c = ':'
  · rw [hcolon, found_bounds_colon, furtherBounds_colon]
  · have hother : c ∉ ['L', 'T', '[', ':'] := by simpa [hcolon] using hc
    have hhead : (c :: r).head? ≠ some ':' := fun h => hcolon (Option.some.inj h)
    rw [found_bounds_other hother, furtherBounds, if_neg hhead]

theorem found_typeParameters_end : found (typeParameters scan ('>' :: r)) = some ([], r) := by
  rw [typeParameters]
  rfl

theorem found_typeParameters_unnamed : found (typeParameters scan (':' :: r)) = none := by
  rw [typeParameters]
  rfl

theorem found_typeParameters_unended (hc : c ≠ '>') (hs : ':' ∉ c :: r) :
    found (typeParameters scan (c :: r)) = none := by
  rw [List.mem_cons, not_or] at hs
  have hdrop : r.dropWhile (· ≠ ':') = [] := dropWhile_ne_of_not_mem hs.2
  rw [typeParameters]
  simp only [hc, Ne.symm hs.1, if_false]
  split
  · rfl
  · rename_i h
    rw [hdrop] at h
    cases h

theorem found_typeParameters_name (hcs : cs ≠ []) (hend : cs.head? ≠ some '>') (hname : ':' ∉ cs) :
    found (typeParameters scan (cs ++ ':' :: r)) =
      (found (bounds scan r)).andThen fun t => found (typeParameters scan t) := by
  cases cs with
  | nil => exact absurd rfl hcs
  | cons c cs =>
    have hc : c ≠ '>' := fun h => hend (congrArg some h)
    have hc' : c ≠ ':' := fun h => hname (h ▸ List.mem_cons_self)
    have hdrop : (cs ++ ':' :: r).dropWhile (· ≠ ':') = ':' :: r :=
      dropWhile_ne_append fun h => hname (List.mem_cons_of_mem c h)
    rw [List.cons_append, typeParameters]
    simp only [hc, hc', if_false]
    split
    · rename_i h
      rw [hdrop] at h
      cases h
    · rename_i h
      rw [hdrop] at h
      cases h
      cases bounds scan r with
      | none => rfl
      | some p =>
        obtain ⟨names, t, ht⟩ := p
        simp only [found, Option.map_some, Found.andThen, Option.bind_some]
        cases typeParameters scan t <;> rfl

theorem found_parameters_end : found (parameters scan (')' :: r)) = some ([], r) := by
  rw [parameters]
  rfl

theorem found_parameters_type (hc : c ≠ ')') :
    found (parameters scan (c :: r)) =
      (found (scan (c :: r))).andThen fun t => found (parameters scan t) := by
  rw [parameters]
  simp only [hc, if_false]
  cases scan (c :: r) with
  | none => rfl
  | some p =>
    obtain ⟨names, t, ht⟩ := p
    simp only [found, Option.map_some, Found.andThen, Option.bind_some]
    cases parameters scan t <;> rfl

theorem found_resultType_void : found (resultType scan ('V' :: r)) = some ([], r) := rfl

theorem found_resultType_type (hs : s.head? ≠ some 'V') :
    found (resultType scan s) = found (scan s) := by
  unfold resultType
  split
  · exact absurd rfl hs
  · rfl

/-- What is found when nothing is left afterwards. -/
def Found.complete (r : Found) (next : List Char → Option (List TypeName)) :
    Option (List TypeName) :=
  r.bind fun p => (next p.2).map (p.1 ++ ·)

/-- What was found, if all that is left was passed. -/
def ending (names : Option (List TypeName)) : Found := names.map fun names => (names, [])

theorem ending_complete {F : Found} {next : List Char → Option (List TypeName)} :
    ending (F.complete next) = F.andThen fun t => ending (next t) := by
  cases F with
  | none => rfl
  | some p =>
    obtain ⟨names, t⟩ := p
    change ending ((next t).map (names ++ ·)) = (ending (next t)).after names
    cases next t <;> rfl

theorem thrownTypes_other (hc : c ≠ '^') : thrownTypes scan (c :: r) = none := by
  rw [thrownTypes]
  · intro h
    cases h
  · intro _ h
    exact hc (List.cons.inj h).1

theorem thrownTypes_cons :
    thrownTypes scan ('^' :: r) = (found (scan r)).complete (thrownTypes scan) := by
  rw [thrownTypes]
  cases scan r <;> rfl

theorem types_cons : types scan (c :: r) = (found (scan (c :: r))).complete (types scan) := by
  rw [types]
  cases scan (c :: r) <;> rfl

theorem body_method :
    body scan ('(' :: r) = (found (parameters scan r)).complete fun t =>
      (found (resultType scan t)).complete (thrownTypes scan) := by
  simp only [body]
  cases parameters scan r with
  | none => rfl
  | some p =>
    obtain ⟨names, t, ht⟩ := p
    cases hr : resultType scan t with
    | none => simp [found, Found.complete, hr]
    | some q =>
      obtain ⟨names', u, hu⟩ := q
      cases ht : thrownTypes scan u <;> simp [found, Found.complete, hr, ht]

theorem body_types (hc : c ≠ '(') : body scan (c :: r) = types scan (c :: r) := by
  unfold body
  split
  · rename_i h
    cases h
  · rename_i h
    cases h
    exact absurd rfl hc
  · rfl

theorem whole_parameters :
    whole scan ('<' :: r) = (found (typeParameters scan r)).complete (body scan) := by
  simp only [whole]
  cases typeParameters scan r with
  | none => rfl
  | some p =>
    obtain ⟨names, t, ht⟩ := p
    cases hb : body scan t <;> simp [found, Found.complete, hb]

theorem whole_body (hc : c ≠ '<') : whole scan (c :: r) = body scan (c :: r) := by
  unfold whole
  split
  · rename_i h
    cases h
    exact absurd rfl hc
  · rfl

end VirtualClasspath.Signature
