import VirtualClasspath.ClassFile.Mention
import VirtualClasspath.Proofs.Text

/-!
# Names that signatures report

Whatever text the scanner accepts, the names that it reports are `Plain`: segments that are not
empty, with a dot between any two, and without the characters that have a meaning in descriptors. So
of the conditions of `ClassFile.isTypeName` only the one on primitive types ever drops a name
(`isTypeName_iff`). There are two ways to make a name, and each of them has its lemma:
`plain_ofInternal` for an internal name, `plain_nested` for a nested class.
-/

namespace VirtualClasspath

namespace Signature

/-! ## Plain names -/

/-- A name made of segments that are not empty, without any of the characters of descriptors. -/
structure Plain (n : TypeName) : Prop where
  ne_empty : n.text ≠ ""
  chars : ∀ c ∈ [';', '<', '>', '/', '[', ':'], c ∉ n.text.toList
  head : n.text.toList.head? ≠ some '.'
  last : n.text.toList.getLast? ≠ some '.'
  noDoubleDot : ¬ ['.', '.'] <:+: n.text.toList

theorem isInternalName_iff {cs : List Char} :
    isInternalName cs = true ↔
      (cs ≠ [] ∧ cs.head? ≠ some '/' ∧ cs.getLast? ≠ some '/' ∧ noDoubleSlash cs = true) ∧
        ∀ c ∈ cs, c ∉ ['.', ';', '[', '<', '>', ':'] := by
  simp only [isInternalName, Bool.and_eq_true, Bool.not_eq_true', List.isEmpty_eq_false_iff,
    decide_eq_true_eq, List.any_eq_false, List.contains_iff_mem, and_assoc]

theorem not_infix_of_noDoubleSlash {cs : List Char} (h : noDoubleSlash cs = true) :
    ¬ ['/', '/'] <:+: cs := by
  fun_induction noDoubleSlash cs with
  | case1 => cases h
  | case2 c rest hno ih =>
    intro hin
    rcases List.infix_cons_iff.mp hin with ⟨t, ht⟩ | hin
    · rw [List.cons_append, List.singleton_append, List.cons.injEq] at ht
      exact hno t ht.1.symm ht.2.symm
    · exact ih h hin
  | case3 => simp

theorem plain_ofInternal {cs : List Char} (h : isInternalName cs = true) :
    Plain (.ofInternal (String.ofList cs)) := by
  obtain ⟨⟨hne, hhead, hlast, hslash⟩, hchars⟩ := isInternalName_iff.mp h
  have htext : (TypeName.ofInternal (String.ofList cs)).text.toList =
      cs.map fun c => if c = '/' then '.' else c := by
    simp [TypeName.ofInternal, Text.exchange, String.toList_map]
  -- A dot stands for a slash, as the internal name has no dots.
  have hdot : ∀ c ∈ cs, (if c = '/' then '.' else c) = '.' → c = '/' := by
    intro c hc he
    by_cases hslash : c = '/'
    · exact hslash
    · rw [if_neg hslash] at he
      exact absurd (by rw [he]; decide) (hchars c hc)
  refine ⟨fun he => ?_, fun c hc hmem => ?_, ?_, ?_, ?_⟩
  · rw [he] at htext
    exact hne (List.map_eq_nil_iff.mp htext.symm)
  · rw [htext] at hmem
    obtain ⟨d, hd, rfl⟩ := List.mem_map.mp hmem
    have := hchars d hd
    grind
  · rw [htext, List.head?_map]
    intro he
    obtain ⟨c, hc, hcdot⟩ := Option.map_eq_some_iff.mp he
    exact hhead (hdot c (List.mem_of_mem_head? hc) hcdot ▸ hc)
  · rw [htext, List.getLast?_map]
    intro he
    obtain ⟨c, hc, hcdot⟩ := Option.map_eq_some_iff.mp he
    exact hlast (hdot c (List.mem_of_getLast? hc) hcdot ▸ hc)
  · rw [htext, List.infix_map_iff]
    rintro ⟨l, hl, he⟩
    obtain ⟨x, l, rfl, hx, he⟩ := List.map_eq_cons_iff.mp he.symm
    obtain ⟨y, l, rfl, hy, he⟩ := List.map_eq_cons_iff.mp he
    cases List.map_eq_nil_iff.mp he
    rw [hdot x (hl.subset (by simp)) hx, hdot y (hl.subset (by simp)) hy] at hl
    exact not_infix_of_noDoubleSlash hslash hl

/-- A text without dots adds no two dots side by side. -/
theorem not_infix_append {l m : List Char} (h : ¬ ['.', '.'] <:+: l) (hm : '.' ∉ m) :
    ¬ ['.', '.'] <:+: l ++ m := by
  rintro ⟨s, t, he⟩
  rcases List.append_eq_append_iff.mp he with ⟨r, hl, -⟩ | ⟨r, hs, hr⟩
  · exact h ⟨s, r, hl.symm⟩
  · cases r with
    | nil => exact h ⟨s, [], by rw [hs]; simp⟩
    | cons c r =>
      -- What reaches into `m` ends with a dot.
      have hdot : '.' ∈ c :: r := by
        have hlast := congrArg List.getLast? hs
        rw [List.getLast?_append, List.getLast?_append,
          List.getLast?_eq_some_getLast (List.cons_ne_nil c r)] at hlast
        rw [show '.' = (c :: r).getLast _ from Option.some.inj hlast]
        exact List.getLast_mem _
      exact hm (hr ▸ List.mem_append_left t hdot)

/-- The name of a nested class, made of the outer one and what follows the dot. -/
theorem plain_nested {n : TypeName} {simple : List Char} (hn : Plain n)
    (hslash : '/' ∉ simple) (h : isInternalName simple = true) :
    Plain ⟨n.text ++ "$" ++ String.ofList simple⟩ := by
  obtain ⟨⟨hne, -⟩, hchars⟩ := isInternalName_iff.mp h
  have htext : (n.text ++ "$" ++ String.ofList simple).toList = n.text.toList ++ '$' :: simple := by
    simp
  have hdot : '.' ∉ '$' :: simple := by
    intro hmem
    rcases List.mem_cons.mp hmem with he | hmem
    · exact absurd he (by decide)
    · exact hchars '.' hmem (by decide)
  have hnonempty : n.text.toList ≠ [] := fun he => hn.ne_empty (String.toList_eq_nil_iff.mp he)
  refine ⟨fun he => ?_, fun c hc hmem => ?_, ?_, ?_, ?_⟩
  · have := congrArg String.toList he
    simp at this
  · rw [htext] at hmem
    rcases List.mem_append.mp hmem with hmem | hmem
    · exact hn.chars c hc hmem
    · rcases List.mem_cons.mp hmem with rfl | hmem
      · exact absurd hc (by decide)
      · have := hchars c hmem
        grind
  · rw [htext, List.head?_append, List.head?_eq_some_head hnonempty, Option.some_or,
      ← List.head?_eq_some_head hnonempty]
    exact hn.head
  · rw [htext, List.getLast?_append, List.getLast?_eq_some_getLast (List.cons_ne_nil _ _),
      Option.some_or]
    exact fun he => hdot (Option.some.inj he ▸ List.getLast_mem _)
  · rw [htext]
    exact not_infix_append hn.noDoubleDot hdot

/-- **Of plain names, the type names are those that are not primitive.** -/
theorem isTypeName_iff {n : TypeName} (h : Plain n) :
    ClassFile.isTypeName n = true ↔ n.text ∉ ClassFile.primitiveNames := by
  have harray : ClassFile.endsAsArray n.text.toList = false := by
    unfold ClassFile.endsAsArray
    rw [Option.isSome_eq_false_iff, Option.isNone_iff_eq_none, Text.after?_eq_none_iff]
    intro rest he
    exact h.chars '[' (by decide) (List.mem_reverse.mp (by simp [he]))
  have hchars : (n.text.toList.any fun c => [';', '<', '>', '/', '['].contains c) = false := by
    rw [List.any_eq_false]
    intro c hmem hc
    exact h.chars c (List.mem_append_left [':'] (List.contains_iff_mem.mp hc)) hmem
  unfold ClassFile.isTypeName
  rw [harray, hchars]
  simp [h.ne_empty]

/-! ## Steps of the scanner -/

/-- If there are names, all of them are plain. -/
def AllPlain (r : Option (List TypeName)) : Prop := ∀ names ∈ r, ∀ n ∈ names, Plain n

theorem allPlain_none : AllPlain none := fun _ h => nomatch h

theorem allPlain_nil : AllPlain (some []) := by
  rintro _ ⟨⟩ n hn
  exact absurd hn List.not_mem_nil

theorem AllPlain.append {l l' : List TypeName} (h : AllPlain (some l)) (h' : AllPlain (some l')) :
    AllPlain (some (l ++ l')) := by
  rintro _ ⟨⟩ n hn
  exact (List.mem_append.mp hn).elim (h l rfl n) (h' l' rfl n)

theorem AllPlain.cons {n : TypeName} {l : List TypeName} (hn : Plain n)
    (h : AllPlain (some l)) : AllPlain (some (n :: l)) := by
  rintro _ ⟨⟩ m hm
  rcases List.mem_cons.mp hm with rfl | hm
  · exact hn
  · exact h l rfl m hm

theorem AllPlain.map_append {l : List TypeName} {r : Option (List TypeName)}
    (h : AllPlain (some l)) (h' : AllPlain r) : AllPlain (r.map (l ++ ·)) := by
  cases r with
  | none => exact allPlain_none
  | some l' => exact h.append h'

/-- A scanner that reports plain names only. -/
def Scanner.Plain (scan : Scanner) : Prop := ∀ s, AllPlain ((scan s).map Prod.fst)

variable {scan : Scanner}

theorem Scanner.Plain.of_eq (h : scan.Plain) {s : List Char} {names : List TypeName} {rest : Rest s}
    (he : scan s = some (names, rest)) : AllPlain (some names) := by
  have := h s
  rwa [he] at this

theorem allPlain_classSuffix (h : scan.Plain) {n : TypeName} (hn : Plain n) (s : List Char) :
    AllPlain ((classSuffix scan n s).map Prod.fst) := by
  fun_induction classSuffix scan n s with
  | case3 n r inArguments t ht ha more rest hs ih =>
    have hmore := ih hn
    rw [hs] at hmore
    exact (h.of_eq ha).append hmore
  | case7 n r simple t ht hsimple hvalid nested more rest hs ih =>
    simp only [Bool.or_eq_true, List.contains_iff_mem, Bool.not_eq_true', not_or,
      Bool.not_eq_false] at hvalid
    have hnested := plain_nested hn hvalid.1 hvalid.2
    have hmore := ih hnested
    rw [hs] at hmore
    exact hmore.cons hnested
  | case8 => exact allPlain_nil
  | case1 | case2 | case4 | case5 | case6 | case9 => exact allPlain_none

theorem plain_classType (h : scan.Plain) : (classType scan).Plain := by
  intro s
  unfold classType
  split
  · exact allPlain_none
  · split
    · exact allPlain_none
    · rename_i internal rest _ hvalid
      have hname := plain_ofInternal (by simpa using hvalid)
      have hsuffix := allPlain_classSuffix h hname rest.1
      simp only
      split
      · exact allPlain_none
      · rename_i hs
        rw [hs] at hsuffix
        exact hsuffix.cons hname

theorem plain_typeVariable : typeVariable.Plain := by
  intro s
  unfold typeVariable
  split
  · exact allPlain_none
  · split
    · exact allPlain_none
    · split
      · exact allPlain_none
      · exact allPlain_nil

theorem plain_typeWith (h : scan.Plain) : (typeWith scan).Plain := by
  intro s
  unfold typeWith
  split
  · exact allPlain_none
  · split
    · exact allPlain_none
    · rename_i c r _
      split
      · exact allPlain_nil
      · split
        · rw [Option.map_map]
          exact plain_typeVariable r
        · split
          · rw [Option.map_map]
            exact plain_classType h r
          · exact allPlain_none

theorem allPlain_argumentList (h : scan.Plain) (s : List Char) :
    AllPlain ((argumentList scan s).map Prod.fst) := by
  fun_induction argumentList scan s with
  | case2 => exact allPlain_nil
  | case3 r hc ih =>
    rw [Option.map_map]
    exact ih
  | case6 c r _ _ _ names t ht hn more rest hs ih
  | case9 c r _ _ _ names t ht hn more rest hs ih =>
    rw [hs] at ih
    exact (h.of_eq hn).append ih
  | case1 | case4 | case5 | case7 | case8 => exact allPlain_none

theorem plain_typeArguments (h : scan.Plain) : (typeArguments scan).Plain := by
  intro s
  unfold typeArguments
  split
  · exact allPlain_none
  · exact allPlain_argumentList h s

theorem plain_typeSignature (room : Nat) : (typeSignature room).Plain := by
  induction room with
  | zero => exact plain_typeWith fun _ => allPlain_none
  | succ room ih => exact plain_typeWith (plain_typeArguments ih)

/-! ## Whole signatures -/

theorem allPlain_bounds (h : scan.Plain) (s : List Char) :
    AllPlain ((bounds scan s).map Prod.fst) := by
  fun_induction bounds scan s with
  | case4 c r _ names t ht hn _ more rest _ hs ih =>
    rw [hs] at ih
    exact (h.of_eq hn).append ih
  | case5 c r _ names t ht hn => exact h.of_eq hn
  | case7 r more rest _ hs _ ih =>
    rw [hs] at ih
    exact ih
  | case8 => exact allPlain_nil
  | case1 | case2 | case3 | case6 => exact allPlain_none

theorem allPlain_typeParameters (h : scan.Plain) (s : List Char) :
    AllPlain ((typeParameters scan s).map Prod.fst) := by
  fun_induction typeParameters scan s with
  | case2 => exact allPlain_nil
  | case7 c r _ _ _ t _ _ inBounds u _ hb more rest hs ih =>
    have hbounds := allPlain_bounds h t
    rw [hb] at hbounds
    rw [hs] at ih
    exact hbounds.append ih
  | case1 | case3 | case4 | case5 | case6 => exact allPlain_none

theorem allPlain_parameters (h : scan.Plain) (s : List Char) :
    AllPlain ((parameters scan s).map Prod.fst) := by
  fun_induction parameters scan s with
  | case2 => exact allPlain_nil
  | case5 c r _ names t ht hn more rest hs ih =>
    rw [hs] at ih
    exact (h.of_eq hn).append ih
  | case1 | case3 | case4 => exact allPlain_none

theorem plain_resultType (h : scan.Plain) : (resultType scan).Plain := by
  intro s
  unfold resultType
  split
  · exact allPlain_nil
  · exact h s

theorem allPlain_thrownTypes (h : scan.Plain) (s : List Char) :
    AllPlain (thrownTypes scan s) := by
  fun_induction thrownTypes scan s with
  | case1 => exact allPlain_nil
  | case3 r names t ht hn ih => exact (h.of_eq hn).map_append ih
  | case2 | case4 => exact allPlain_none

theorem allPlain_types (h : scan.Plain) (s : List Char) : AllPlain (types scan s) := by
  fun_induction types scan s with
  | case1 => exact allPlain_nil
  | case3 c r names t ht hn ih => exact (h.of_eq hn).map_append ih
  | case2 => exact allPlain_none

theorem allPlain_body (h : scan.Plain) (s : List Char) : AllPlain (body scan s) := by
  unfold body
  split
  · exact allPlain_none
  · rename_i r
    have hparameters := allPlain_parameters h r
    cases hp : parameters scan r with
    | none => exact allPlain_none
    | some p =>
      obtain ⟨inParameters, t, _⟩ := p
      rw [hp] at hparameters
      have hresult := plain_resultType h t
      cases hr : resultType scan t with
      | none =>
        simp only [Option.bind_eq_bind, Option.bind_some, hr]
        exact allPlain_none
      | some q =>
        obtain ⟨inResult, u, _⟩ := q
        rw [hr] at hresult
        have hboth := AllPlain.append hparameters hresult
        have hall := hboth.map_append (allPlain_thrownTypes h u)
        simp only [Option.bind_eq_bind, Option.bind_some, hr]
        rwa [Option.map_eq_bind] at hall
  · exact allPlain_types h _

theorem allPlain_whole (h : scan.Plain) (s : List Char) : AllPlain (whole scan s) := by
  unfold whole
  split
  · rename_i r
    have hparameters := allPlain_typeParameters h r
    cases hp : typeParameters scan r with
    | none => exact allPlain_none
    | some p =>
      obtain ⟨inParameters, t, _⟩ := p
      rw [hp] at hparameters
      have hall := AllPlain.map_append hparameters (allPlain_body h t)
      rwa [Option.map_eq_bind] at hall
  · exact allPlain_body h _

/-- **A descriptor or a signature names plain names only.** -/
theorem plain_of_mem_typeNames {text : String} {names : List TypeName}
    (h : typeNames text = .ok names) {n : TypeName} (hn : n ∈ names) : Plain n := by
  unfold typeNames at h
  split at h
  · rename_i hl
    cases h
    exact allPlain_whole (plain_typeSignature maxArgumentDepth) text.toList names hl n hn
  · cases h

end Signature

/-- **A mention names plain names only.** -/
theorem ClassFile.Mention.plain_of_mem_names {m : Mention} {names : List TypeName}
    (h : m.names = .ok names) {n : TypeName} (hn : n ∈ names) : Signature.Plain n := by
  cases m with
  | operand text =>
    simp only [Mention.names, Signature.operandNames] at h
    split at h
    · exact Signature.plain_of_mem_typeNames h hn
    · split at h
      · rename_i hvalid
        cases h
        rw [List.mem_singleton.mp hn, ← String.ofList_toList (s := text)]
        exact Signature.plain_ofInternal hvalid
      · cases h
  | signature text => exact Signature.plain_of_mem_typeNames h hn
  | returned text =>
    simp only [Mention.names, Signature.returnNames] at h
    split at h
    · cases h
      exact absurd hn List.not_mem_nil
    · exact Signature.plain_of_mem_typeNames h hn

end VirtualClasspath
