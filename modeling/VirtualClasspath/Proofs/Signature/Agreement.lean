import VirtualClasspath.Proofs.Signature.Lockstep
import VirtualClasspath.Proofs.Signature.Progress

/-!
# No text breaks the scanner

The scanner over bytes counts the type arguments that it is in, the one over characters is built
level by level. They read alike on every level (`readsTypes_typeSignature`): types are read alike if
the type arguments of the level are (`readsTypes_succ`), and these if the types of the next level
are (`readsArguments_typeArguments`). All loops are followed by induction on their rounds.

So `referencedTypes` and `operandTypes`, which cut a text apart at positions that are counted in
bytes, give what `typeNames` and `operandNames` give (`referencedTypes_eq`, `operandTypes_eq`).

**`scanner_never_breaks`** puts this together with `Progress`.
-/

namespace VirtualClasspath.Signature.Bytewise

open Text (Remains leadByte leadByte_eq_iff)

variable {text : String} {c : Cursor} {d : Char} {r s : List Char}

/-! ## Types -/

/-- On a level type arguments are read as `arguments` reads them, where types are read by `x`. -/
def ReadsArguments (text : String) (level : Nat) (x : Scan Unit) (arguments : Scanner) : Prop :=
  ∀ rounds c r, c.depth = level → Remains text c.pos ('<' :: r) →
    Finds text (typeArguments text x rounds) c (found (arguments r))

/-- On a level `x` reads types as `type` reads them. -/
def ReadsTypes (text : String) (level : Nat) (x : Scan Unit) (type : Scanner) : Prop :=
  ∀ c s, c.depth = level → Remains text c.pos s → Finds text x c (found (type s))

variable {n rounds : Nat} {x : Scan Unit} {arguments type : Scanner}

theorem finds_suffixes (harguments : ReadsArguments text n x arguments) (hc : c.depth = n)
    (h : Remains text c.pos s) (name : TypeName) :
    Finds text (suffixes text x rounds name) c (found (classSuffix arguments name s)) := by
  induction rounds generalizing c s name with
  | zero => exact finds_exhausted
  | succ rounds ih =>
    rw [suffixes]
    cases s with
    | nil =>
      rw [found_nil]
      exact finds_peek_nil h
    | cons d r =>
      refine finds_peek_cons h (finds_ite (by decide) ?arguments fun hless =>
        finds_ite (by decide) ?nested fun hdot =>
        finds_ite (by decide) ?last fun hsemicolon => ?other)
      case arguments =>
        rintro rfl
        rw [found_classSuffix_arguments]
        refine (harguments _ c r hc h).andThen fun c' t hrest hdepth => ?_
        exact ih (hdepth.trans hc) hrest name
      case nested =>
        rintro rfl
        rw [found_classSuffix_dot]
        refine finds_advance_bind (finds_identifier_bind (h.tail (by decide)) ?_)
        intro p c' hrest hdepth
        rw [String.toList_ofList]
        split
        · exact finds_refuse
        · exact finds_report_bind (ih (c := c'.named _) (hdepth.trans hc) hrest _)
      case last =>
        rintro rfl
        rw [found_classSuffix_end]
        exact finds_advance h (by decide)
      case other =>
        rw [found_classSuffix_other (endsName_eq_false (by simp [hless, hdot, hsemicolon]))]
        exact finds_refuse

theorem finds_classTypeSignature (harguments : ReadsArguments text n x arguments)
    (hc : c.depth = n) (h : Remains text c.pos ('L' :: r)) :
    Finds text (classTypeSignature text x rounds) c (found (classType arguments r)) := by
  unfold classTypeSignature
  rw [found_classType_eq]
  refine finds_expect_bind h (by decide) (finds_identifier_bind (h.tail (by decide)) ?_)
  intro p c' hrest hdepth
  rw [String.toList_ofList]
  split
  · exact finds_report_bind
      (finds_suffixes (c := c'.named _) harguments (hdepth.trans hc) hrest _)
  · exact finds_refuse

theorem finds_skipBrackets {k : Nat} (hk : k ≤ maxDimensions) (h : Remains text c.pos s) :
    Finds text (skipBrackets text rounds k) c (bracketsFound k s) := by
  unfold bracketsFound
  induction rounds generalizing c s k with
  | zero => exact finds_exhausted
  | succ rounds ih =>
    rw [skipBrackets]
    cases s with
    | nil =>
      rw [List.dropWhile_nil, if_pos (Or.inr rfl)]
      exact finds_peek_nil h
    | cons d r =>
      refine finds_peek_cons h (finds_ite (by decide) ?_ fun hd => ?_)
      · rintro rfl
        rw [List.takeWhile_cons_of_pos (by decide), List.dropWhile_cons_of_pos (by decide),
          List.length_cons]
        split
        · rw [if_pos (Or.inl (by omega))]
          exact finds_refuse
        · rw [← Nat.add_assoc, Nat.add_right_comm k _ 1]
          exact finds_advance_bind (ih (by omega) (h.tail (by decide)))
      · rw [List.takeWhile_cons_of_neg (by simpa using hd),
          List.dropWhile_cons_of_neg (by simpa using hd), if_neg (by simpa using hk)]
        exact finds_pure h

theorem isPrimitive_iff {e : Char} :
    isPrimitive e = true ↔ e ∈ ['B', 'C', 'D', 'F', 'I', 'J', 'S', 'Z'] :=
  List.contains_iff_mem

theorem readsTypes_succ (harguments : ReadsArguments text n (typeSignature text rounds) arguments) :
    ReadsTypes text n (typeSignature text (rounds + 1)) (typeWith arguments) := by
  intro c s hc h
  rw [typeSignature, found_typeWith_brackets]
  refine (finds_skipBrackets (Nat.zero_le _) h).andThen fun c' t hrest hdepth => ?_
  cases t with
  | nil => exact finds_peek_nil hrest
  | cons d r =>
    refine finds_peek_cons hrest (finds_ite_oneOf (by decide) ?base fun hletter =>
      finds_ite (by decide) ?named fun hnamed =>
      finds_ite (by decide) ?ofClass fun hclass => ?other)
    case base =>
      intro hletter
      have hascii : d.toNat < 128 := Text.toNat_lt_of_allAscii (by decide) hletter
      rw [elementFound, if_pos (isPrimitive_iff.mpr hletter)]
      exact finds_advance hrest hascii
    case named =>
      rintro rfl
      exact finds_advance_bind (finds_typeVariable (hrest.tail (by decide)))
    case ofClass =>
      rintro rfl
      exact finds_classTypeSignature harguments (hdepth.trans hc) hrest
    case other =>
      have hnone : elementFound arguments (d :: r) = none := by
        rw [elementFound, if_neg (mt isPrimitive_iff.mp hletter), if_neg hnamed, if_neg hclass]
      rw [hnone]
      exact finds_refuse

theorem finds_argumentList (htypes : ReadsTypes text n x type) (hc : c.depth = n)
    (h : Remains text c.pos s) :
    Finds text (argumentList text x rounds) c
      ((found (Signature.argumentList type s)).before '>') := by
  induction rounds generalizing c s with
  | zero => exact finds_exhausted
  | succ rounds ih =>
    rw [argumentList]
    -- A type is followed by the rest of the list.
    have htype : ∀ c₁ s₁, c₁.depth = n → Remains text c₁.pos s₁ →
        Finds text (do x; argumentList text x rounds) c₁ (Found.before '>'
          ((found (type s₁)).andThen fun t => found (Signature.argumentList type t))) := by
      intro c₁ s₁ hc₁ h₁
      rw [Found.andThen_before]
      refine (htypes c₁ s₁ hc₁ h₁).andThen fun c' t hrest hdepth => ?_
      exact ih (hdepth.trans hc₁) hrest
    cases s with
    | nil =>
      rw [found_nil]
      exact finds_peek_nil h
    | cons d r =>
      refine finds_peek_cons h (finds_ite (by decide) ?last fun hlast => finds_ite (by decide) ?any
        fun hany => finds_ite_oneOf (by decide) ?bounded fun hbounded => ?exact)
      case last =>
        rintro rfl
        rw [found_argumentList_end]
        exact finds_pure h
      case any =>
        rintro rfl
        rw [found_argumentList_any]
        exact finds_advance_bind (ih (c := c.passed 1) hc (h.tail (by decide)))
      case bounded =>
        intro hd
        have hsign : d = '+' ∨ d = '-' := by simpa using hd
        have hascii : d.toNat < 128 := Text.toNat_lt_of_allAscii (by decide) hd
        rw [found_argumentList_bounded hsign]
        exact finds_advance_bind (htype (c.passed 1) r hc (h.tail hascii))
      case exact =>
        have hd : d ∉ ['>', '*', '+', '-'] := by simpa [hlast, hany] using hbounded
        rw [found_argumentList_exact hd]
        exact htype c _ hc h

/-- What is read one level further in, with the character behind it. -/
theorem finds_inside {F : Found} (hd : d.toNat < 128)
    (h : Finds text x { c with depth := c.depth + 1 } (F.before d)) :
    Finds text (do enter; x; advance; leave) c F := by
  have hpast := finds_past hd h
  have henter : (do enter; x; advance; leave : Scan Unit) c =
      ((do x; advance) >>= fun _ => leave) { c with depth := c.depth + 1 } := by
    rw [bind_assoc]
    exact bind_of_ok rfl
  rcases hpast with hnone | hpast
  · exact Or.inl (henter.trans (bind_of_none hnone))
  · cases F with
    | none => exact Or.inr (henter.trans (bind_of_refused hpast))
    | some p =>
      obtain ⟨c', hx, hrest, hdepth, hnames⟩ := hpast
      have hlevel : level c' = some (.ok (c.depth + 1, c')) :=
        congrArg (fun k => some (Except.ok (k, c'))) hdepth
      have hleave : leave c' = some (.ok ((), { c' with depth := c.depth })) := bind_of_ok hlevel
      exact Or.inr ⟨_, henter.trans ((bind_of_ok hx).trans hleave), hrest, rfl, hnames⟩

theorem readsArguments_none : ReadsArguments text maxArgumentDepth x fun _ => none := by
  intro rounds c r hc h
  unfold typeArguments
  refine finds_expect_bind h (by decide) ?_
  have hr : Remains text (c.passed 1).pos r := h.tail (by decide)
  cases r with
  | nil => exact finds_peek_nil hr
  | cons d r =>
    refine finds_peek_cons hr (finds_level_bind ?_)
    have hfull : (c.passed 1).depth = maxArgumentDepth := hc
    rw [if_pos (Or.inr hfull)]
    exact finds_refuse

theorem readsArguments_typeArguments (hn : n < maxArgumentDepth)
    (htypes : ReadsTypes text (n + 1) x type) :
    ReadsArguments text n x (Signature.typeArguments type) := by
  intro rounds c r hc h
  unfold typeArguments
  refine finds_expect_bind h (by decide) ?_
  have hr : Remains text (c.passed 1).pos r := h.tail (by decide)
  cases r with
  | nil =>
    rw [found_nil]
    exact finds_peek_nil hr
  | cons d r =>
    refine finds_peek_cons hr (finds_level_bind ?_)
    by_cases hd : d = '>'
    · rw [if_pos (Or.inl ((leadByte_eq_iff (by decide)).mpr hd)), hd, found_typeArguments_empty]
      exact finds_refuse
    · have hroom : ¬(leadByte d = '>'.toUInt8 ∨ (c.passed 1).depth = maxArgumentDepth) := by
        rintro (hbyte | hfull)
        · exact hd ((leadByte_eq_iff (by decide)).mp hbyte)
        · exact Nat.ne_of_lt hn (hc.symm.trans hfull)
      have hhead : (d :: r).head? ≠ some '>' := fun h => hd (Option.some.inj h)
      rw [if_neg hroom, found_typeArguments hhead]
      exact finds_inside (by decide)
        (finds_argumentList htypes (c := { c.passed 1 with depth := _ }) (congrArg (· + 1) hc) hr)

/-- **A type is read alike, whatever type arguments it stands in.** -/
theorem readsTypes_typeSignature {room : Nat} (h : n + room = maxArgumentDepth) (rounds : Nat) :
    ReadsTypes text n (typeSignature text rounds) (Signature.typeSignature room) := by
  induction rounds generalizing n room with
  | zero => exact fun _ _ _ _ => finds_exhausted
  | succ rounds ih =>
    cases room with
    | zero =>
      obtain rfl : n = maxArgumentDepth := h
      exact readsTypes_succ readsArguments_none
    | succ room => exact readsTypes_succ (readsArguments_typeArguments (by omega) (ih (by omega)))

/-! ## Whole signatures -/

section Whole

variable (htypes : ReadsTypes text n x type) (hc : c.depth = n)
include htypes hc

theorem finds_boundList (h : Remains text c.pos s) :
    Finds text (boundList text x rounds) c (furtherBounds type s) := by
  induction rounds generalizing c s with
  | zero => exact finds_exhausted
  | succ rounds ih =>
    rw [boundList]
    cases s with
    | nil => exact finds_atEnd_nil h (finds_pure h)
    | cons d r =>
      refine finds_atEnd_cons h (finds_peek_cons h
        (finds_ite (by decide) ?colon fun hcolon => ?other))
      case colon =>
        rintro rfl
        have hr : Remains text (c.passed 1).pos r := h.tail (by decide)
        rw [furtherBounds_colon]
        refine finds_advance_bind ?_
        cases r with
        | nil =>
          rw [found_bounds_nil]
          exact finds_peek_nil hr
        | cons e r =>
          refine finds_peek_cons hr (finds_ite_oneOf (by decide) (fun he => ?_) fun he => ?_)
          · rw [found_bounds_type (by simpa using he)]
            refine (htypes (c.passed 1) _ hc hr).andThen fun c' t hrest hdepth => ?_
            exact ih (hdepth.trans hc) hrest
          -- Without a type behind the colon, the character there is looked at once more.
          · rw [found_bounds_absent he]
            exact ih (c := c.passed 1) hc hr
      case other =>
        have hhead : (d :: r).head? ≠ some ':' := fun h => hcolon (Option.some.inj h)
        rw [furtherBounds, if_neg hhead]
        exact finds_pure h

theorem finds_parameterList (h : Remains text c.pos s) :
    Finds text (parameterList text x rounds) c
      ((found (typeParameters type s)).before '>') := by
  induction rounds generalizing c s with
  | zero => exact finds_exhausted
  | succ rounds ih =>
    rw [parameterList]
    cases s with
    | nil =>
      rw [found_nil]
      exact finds_peek_nil h
    | cons d r =>
      refine finds_peek_cons h (finds_ite (by decide) ?last fun hlast =>
        finds_name (by decide) h (fun hno => ?none) fun a e u c₁ hs hne ha he hrest hdepth => ?some)
      case last =>
        rintro rfl
        rw [found_typeParameters_end]
        exact finds_pure h
      case none =>
        rcases hno with hno | ⟨e, r', hs, he⟩
        · have hcolon : ':' ∉ d :: r := fun hmem => hno ':' hmem (List.mem_singleton_self _)
          rw [found_typeParameters_unended hlast hcolon]
          rfl
        · obtain ⟨rfl, rfl⟩ := List.cons.inj hs
          obtain rfl := List.mem_singleton.mp he
          rw [found_typeParameters_unnamed]
          rfl
      case some =>
        obtain rfl := List.mem_singleton.mp he
        obtain ⟨b, a, rfl⟩ := List.exists_cons_of_ne_nil hne
        have hhead : (b :: a).head? ≠ some '>' :=
          fun h => hlast ((List.cons.inj hs).1.trans (Option.some.inj h))
        have hcolon : ':' ∉ b :: a := fun hmem => ha ':' hmem he
        rw [hs, found_typeParameters_name hne hhead hcolon, Found.andThen_before]
        have hbounds : Finds text (boundList text x (rounds + 1)) c₁ (found (bounds type u)) :=
          finds_boundList htypes (hdepth.trans hc) hrest
        refine hbounds.andThen fun c₂ t ht hdepth₂ => ?_
        exact ih (hdepth₂.trans (hdepth.trans hc)) ht

theorem finds_formalTypeParameters (h : Remains text c.pos ('<' :: r)) :
    Finds text (formalTypeParameters text x rounds) c (found (typeParameters type r)) := by
  have hr : Remains text (c.passed 1).pos r := h.tail (by decide)
  exact finds_expect_bind h (by decide)
    (finds_past (by decide) (finds_parameterList htypes (c := c.passed 1) hc hr))

theorem finds_methodParameters (h : Remains text c.pos s) :
    Finds text (methodParameters text x rounds) c ((found (parameters type s)).before ')') := by
  induction rounds generalizing c s with
  | zero => exact finds_exhausted
  | succ rounds ih =>
    rw [methodParameters]
    cases s with
    | nil =>
      rw [found_nil]
      exact finds_peek_nil h
    | cons d r =>
      refine finds_peek_cons h (finds_ite (by decide) ?last fun hlast => ?parameter)
      case last =>
        rintro rfl
        rw [found_parameters_end]
        exact finds_pure h
      case parameter =>
        rw [found_parameters_type hlast, Found.andThen_before]
        refine (htypes c _ hc h).andThen fun c' t hrest hdepth => ?_
        exact ih (hdepth.trans hc) hrest

theorem finds_thrownList (h : Remains text c.pos s) :
    Finds text (thrownList text x rounds) c (ending (thrownTypes type s)) := by
  induction rounds generalizing c s with
  | zero => exact finds_exhausted
  | succ rounds ih =>
    rw [thrownList]
    cases s with
    | nil =>
      rw [thrownTypes]
      exact finds_atEnd_nil h (finds_pure h)
    | cons d r =>
      refine finds_atEnd_cons h ?_
      by_cases hd : d = '^'
      · subst hd
        rw [thrownTypes_cons, ending_complete]
        refine finds_expect_bind h (by decide) ?_
        refine (htypes (c.passed 1) r hc (h.tail (by decide))).andThen fun c' t hrest hdepth => ?_
        exact ih (hdepth.trans hc) hrest
      · rw [thrownTypes_other hd]
        exact finds_expect_other h (by decide) hd

theorem finds_typeList (h : Remains text c.pos s) :
    Finds text (typeList text x rounds) c (ending (Signature.types type s)) := by
  induction rounds generalizing c s with
  | zero => exact finds_exhausted
  | succ rounds ih =>
    rw [typeList]
    cases s with
    | nil =>
      rw [Signature.types]
      exact finds_atEnd_nil h (finds_pure h)
    | cons d r =>
      rw [types_cons, ending_complete]
      refine finds_atEnd_cons h ((htypes c _ hc h).andThen fun c' t hrest hdepth => ?_)
      exact ih (hdepth.trans hc) hrest

theorem finds_methodTypes (h : Remains text c.pos r) :
    Finds text (methodTypes text x rounds) c (ending (body type ('(' :: r))) := by
  rw [body_method]
  simp only [ending_complete]
  unfold methodTypes
  -- The parameters are taken with the parenthesis behind them.
  rw [← bind_assoc]
  have hparameters : Finds text (do methodParameters text x rounds; advance) c
      (found (parameters type r)) :=
    finds_past (by decide) (finds_methodParameters htypes hc h)
  refine hparameters.andThen fun c₁ t ht hdepth₁ => ?_
  have hc₁ : c₁.depth = n := hdepth₁.trans hc
  cases t with
  | nil =>
    rw [found_nil]
    exact finds_peek_nil ht
  | cons d r =>
    refine finds_peek_cons ht (finds_ite (by decide) ?void fun hvoid => ?result)
    case void =>
      rintro rfl
      rw [found_resultType_void]
      refine (finds_advance ht (by decide)).andThen fun c₂ u hu hdepth₂ => ?_
      exact finds_thrownList htypes (hdepth₂.trans hc₁) hu
    case result =>
      have hhead : (d :: r).head? ≠ some 'V' := fun h => hvoid (Option.some.inj h)
      rw [found_resultType_type hhead]
      refine (htypes c₁ _ hc₁ ht).andThen fun c₂ u hu hdepth₂ => ?_
      exact finds_thrownList htypes (hdepth₂.trans hc₁) hu

theorem finds_types (h : Remains text c.pos s) :
    Finds text (types text x rounds) c (ending (body type s)) := by
  unfold types
  cases s with
  | nil => exact finds_atEnd_nil h finds_refuse
  | cons d r =>
    refine finds_atEnd_cons h (finds_peek_cons h
      (finds_ite (by decide) ?method fun hmethod => ?types))
    case method =>
      rintro rfl
      exact finds_advance_bind (finds_methodTypes (c := c.passed 1) htypes hc (h.tail (by decide)))
    case types =>
      rw [body_types hmethod]
      exact finds_typeList htypes hc h

theorem finds_scan (h : Remains text c.pos s) :
    Finds text (scan text x rounds) c (ending (whole type s)) := by
  unfold scan
  cases s with
  | nil => exact finds_atEnd_nil h finds_refuse
  | cons d r =>
    refine finds_atEnd_cons h (finds_peek_cons h
      (finds_ite (by decide) ?generic fun hgeneric => ?plain))
    case generic =>
      rintro rfl
      rw [whole_parameters, ending_complete]
      refine (finds_formalTypeParameters htypes hc h).andThen fun c' t ht hdepth => ?_
      exact finds_types htypes (hdepth.trans hc) ht
    case plain =>
      rw [whole_body hgeneric]
      exact finds_types htypes hc h

end Whole

/-! ## The classes that a text names -/

/-- What ends does what was found. -/
theorem Finds.does {F : Found} {Q : Unit → Cursor → Prop} (h : Finds text x c F)
    (hends : Ends text x c Q) : Does text x c F := by
  rcases h with hnone | hdoes
  · rcases hends with hx | ⟨_, _, hx, _⟩
    all_goals
      rw [hnone] at hx
      cases hx
  · exact hdoes

section Answers

variable (h : text.utf8ByteSize < rounds)
include h

/-- The scanner of bytes gives what the scanner of characters gives. -/
theorem referencedTypes_eq :
    referencedTypes text rounds = some ((typeNames text).mapError .refused) := by
  have hfinds : Finds text (scan text (typeSignature text rounds) rounds) ⟨0, 0, []⟩
      (ending (whole (Signature.typeSignature maxArgumentDepth) text.toList)) :=
    finds_scan (readsTypes_typeSignature (Nat.zero_add _) rounds) rfl (Text.remains_zero text)
  have hdoes := hfinds.does (ends_scan (typesEnd_typeSignature h) h _)
  unfold referencedTypes typeNames
  cases hwhole : whole (Signature.typeSignature maxArgumentDepth) text.toList with
  | none =>
    rw [hwhole] at hdoes
    rw [show scan text (typeSignature text rounds) rounds ⟨0, 0, []⟩ = _ from hdoes]
    rfl
  | some names =>
    rw [hwhole] at hdoes
    obtain ⟨c', hscan, -, -, hnames⟩ := hdoes
    rw [hscan]
    exact congrArg (fun names => some (Except.ok names)) hnames

theorem operandTypes_eq :
    operandTypes text rounds = some ((operandNames text).mapError .refused) := by
  unfold operandTypes operandNames
  split
  · exact referencedTypes_eq h
  · split <;> rfl

end Answers

/-- A text is answered: it is refused, or its classes are given. -/
def Answers (text : String) (answer : Option (Except Stop (List TypeName))) : Prop :=
  answer = some (.error (.refused (.badSignature text))) ∨ ∃ names, answer = some (.ok names)

theorem answers_typeNames (text : String) :
    Answers text (some ((typeNames text).mapError .refused)) := by
  unfold typeNames
  split
  · exact Or.inr ⟨_, rfl⟩
  · exact Or.inl rfl

theorem answers_operandNames (text : String) :
    Answers text (some ((operandNames text).mapError .refused)) := by
  unfold operandNames
  split
  · exact answers_typeNames text
  · split
    · exact Or.inr ⟨_, rfl⟩
    · exact Or.inl rfl

/-- **No text breaks the scanner.** Wherever a type, a class type, type arguments or type parameters
are looked for, the text is refused, or bytes are passed up to a position that lies between
characters, and the counter of levels is what it was. A name that begins between characters is cut
out between characters. So every scan ends with an answer, and it is the one that `typeNames` and
`operandNames` give. No loop goes round more often than there are bytes, and once more. -/
theorem scanner_never_breaks (text : String) (rounds : Nat) (h : text.utf8ByteSize < rounds) :
    (∀ c, Ends text (typeSignature text rounds) c fun _ c' => Advances text c c') ∧
    (∀ c, Ends text (classTypeSignature text (typeSignature text rounds) rounds) c
      fun _ c' => Advances text c c') ∧
    (∀ c, Ends text (typeArguments text (typeSignature text rounds) rounds) c
      fun _ c' => Advances text c c') ∧
    (∀ c, Ends text (formalTypeParameters text (typeSignature text rounds) rounds) c
      fun _ c' => Advances text c c') ∧
    (∀ (p : text.Pos) depth names,
      Ends text (identifier text rounds) ⟨p.offset.byteIdx, depth, names⟩
        (CutsOut text ⟨p.offset.byteIdx, depth, names⟩)) ∧
    (∀ c, Ends text (scan text (typeSignature text rounds) rounds) c fun _ _ => True) ∧
    Answers text (referencedTypes text rounds) ∧ Answers text (operandTypes text rounds) ∧
    referencedTypes text rounds = some ((typeNames text).mapError .refused) ∧
    operandTypes text rounds = some ((operandNames text).mapError .refused) := by
  have htypes : TypesEnd text (typeSignature text rounds) := typesEnd_typeSignature h
  refine ⟨htypes, fun c => ends_classTypeSignature (htypes.behind _) (enough h c),
    fun c => ends_typeArguments (htypes.behind _) (enough h c),
    fun c => ends_formalTypeParameters htypes (enough h c),
    fun p depth names => ends_identifier p.isValid (enough h _), ends_scan htypes h, ?_, ?_,
    referencedTypes_eq h, operandTypes_eq h⟩
  · rw [referencedTypes_eq h]
    exact answers_typeNames text
  · rw [operandTypes_eq h]
    exact answers_operandNames text

/-- The `é` takes two bytes. -/
theorem scanner_never_breaks_accented :
    "Lé/B<TT;>;".utf8ByteSize < 12 ∧
      referencedTypes "Lé/B<TT;>;" 12 = some (.ok [⟨"é.B"⟩]) := by
  have hsize : "Lé/B<TT;>;".utf8ByteSize < 12 := by decide
  have hnames : typeNames "Lé/B<TT;>;" = .ok [⟨"é.B"⟩] := by decide +kernel
  obtain ⟨-, -, -, -, -, -, -, -, hanswer, -⟩ := scanner_never_breaks "Lé/B<TT;>;" 12 hsize
  refine ⟨hsize, ?_⟩
  rw [hanswer, hnames]
  rfl

end VirtualClasspath.Signature.Bytewise
