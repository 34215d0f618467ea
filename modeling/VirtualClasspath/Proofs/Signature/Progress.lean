import VirtualClasspath.Proofs.Signature.Bytewise

/-!
# Every part of a scan ends

`Ends text x c Q`: from the cursor `c`, the part `x` of a scan refuses the text, or it comes to an
end where `Q` holds. It neither breaks nor runs on. Nothing is asked of the cursor: it may stand
inside a character or behind the end of the text.

Brackets and bounds may pass nothing (`Keeps`), and a name and a list of types stop at the character
that ends them (`Faces`). A type, type arguments and type parameters pass at least a byte
(`Advances`), and the last byte that they pass is one of ASCII, so they end between characters
wherever they began. A name begins behind a byte of ASCII too, so it is cut out between characters
(`ends_identifier`).

No loop comes round without having passed a byte, so that a loop with more rounds than bytes left
has one left whenever it comes round (`Enough.ahead`). The same holds of a type and the types in its
type arguments, which begin further on: what is needed of them is `TypesEndBehind`, which the
induction of `ends_typeSignature` provides.
-/

namespace VirtualClasspath.Signature.Bytewise

/-! ## How a part of a scan ends -/

section Ends

variable {α β : Type} {text : String} {x : Scan α} {f : α → Scan β} {c : Cursor} {a : α}
  {Q : α → Cursor → Prop} {R : β → Cursor → Prop}

/-- From `c` this part of a scan ends: it refuses the text, or `Q` holds of what it gives and of
where it comes to. -/
def Ends (text : String) (x : Scan α) (c : Cursor) (Q : α → Cursor → Prop) : Prop :=
  x c = some (.error (.refused (.badSignature text))) ∨ ∃ a c', x c = some (.ok (a, c')) ∧ Q a c'

theorem ends_pure (h : Q a c) : Ends text (pure a) c Q := Or.inr ⟨a, c, rfl, h⟩

theorem ends_refuse : Ends text (refuse text) c Q := Or.inl rfl

theorem Ends.bind (h : Ends text x c Q) (hf : ∀ a c', Q a c' → Ends text (f a) c' R) :
    Ends text (x >>= f) c R := by
  rcases h with h | ⟨a, c', h, hQ⟩
  · exact Or.inl (bind_of_refused h)
  · unfold Ends
    rw [bind_of_ok h]
    exact hf a c' hQ

theorem Ends.imp {R : α → Cursor → Prop} (h : Ends text x c Q) (hQR : ∀ a c', Q a c' → R a c') :
    Ends text x c R :=
  h.imp_right fun ⟨a, c', hx, hQ⟩ => ⟨a, c', hx, hQR a c' hQ⟩

end Ends

/-! ## Steps -/

section Steps

variable {α : Type} {text : String} {c : Cursor} {R : α → Cursor → Prop} {Q : Unit → Cursor → Prop}

theorem ends_position_bind {f : Nat → Scan α} (h : Ends text (f c.pos) c R) :
    Ends text (position >>= f) c R := h

theorem ends_level_bind {f : Nat → Scan α} (h : Ends text (f c.depth) c R) :
    Ends text (level >>= f) c R := h

theorem ends_atEnd_bind {f : Bool → Scan α} (h : ∀ b, Ends text (f b) c R) :
    Ends text (atEnd text >>= f) c R := h _

theorem ends_peek_bind {f : UInt8 → Scan α}
    (h : ∀ b, (Assembly.textBytes text)[c.pos]? = some b → Ends text (f b) c R) :
    Ends text (peek text >>= f) c R := by
  cases hb : (Assembly.textBytes text)[c.pos]? with
  | none => exact Or.inl (bind_of_refused (peek_of_none hb))
  | some b =>
    unfold Ends
    rw [bind_of_ok (peek_of_some hb)]
    exact h b hb

theorem ends_advance (h : Q () (c.passed 1)) : Ends text advance c Q := Or.inr ⟨(), _, rfl, h⟩

theorem ends_advance_bind {f : Unit → Scan α} (h : Ends text (f ()) (c.passed 1) R) :
    Ends text (advance >>= f) c R := h

theorem ends_report_bind {f : Unit → Scan α} {n : TypeName}
    (h : Ends text (f ()) (c.named n) R) : Ends text (report n >>= f) c R := h

theorem ends_enter_bind {f : Unit → Scan α}
    (h : Ends text (f ()) { c with depth := c.depth + 1 } R) : Ends text (enter >>= f) c R := h

theorem ends_leave {depth : Nat} (hc : c.depth = depth + 1) (h : Q () { c with depth }) :
    Ends text leave c Q := by
  unfold leave
  refine ends_level_bind ?_
  rw [hc]
  exact Or.inr ⟨(), _, rfl, h⟩

theorem ends_slice {start stop : Nat} (h : start ≤ stop)
    (hstart : String.Pos.Raw.IsValid text ⟨start⟩) (hstop : String.Pos.Raw.IsValid text ⟨stop⟩) :
    Ends text (slice text start stop) c fun name c' =>
      name = text.extract ⟨⟨start⟩, hstart⟩ ⟨⟨stop⟩, hstop⟩ ∧ c' = c := by
  unfold slice
  rw [dif_pos ⟨h, hstart, hstop⟩]
  exact ends_pure ⟨rfl, rfl⟩

theorem ascii_of_eq {d : Char} (hd : d.toNat < 128)
    (h : (Assembly.textBytes text)[c.pos]? = some d.toUInt8) : Text.AsciiAt text c.pos :=
  ⟨_, h, by rw [Text.toNat_toUInt8 hd]; exact hd⟩

theorem ascii_of_isOneOf {cs : List Char} (hcs : Text.allAscii cs = true) {b : UInt8}
    (hb : isOneOf cs b = true) (h : (Assembly.textBytes text)[c.pos]? = some b) :
    Text.AsciiAt text c.pos := by
  obtain ⟨d, hd, hbd⟩ := List.any_eq_true.mp hb
  rw [of_decide_eq_true hbd] at h
  exact ascii_of_eq (Text.toNat_lt_of_allAscii hcs hd) h

theorem ends_expect_bind {d : Char} (hd : d.toNat < 128) {f : Unit → Scan α}
    (h : Text.AsciiAt text c.pos → Ends text (f ()) (c.passed 1) R) :
    Ends text (expect text d >>= f) c R := by
  have hexpect : Ends text (expect text d) c fun _ c' =>
      Text.AsciiAt text c.pos ∧ c' = c.passed 1 := by
    unfold expect
    refine ends_peek_bind fun b hb => ?_
    split
    · rename_i he
      exact ends_advance ⟨ascii_of_eq hd (he ▸ hb), rfl⟩
    · exact ends_refuse
  refine hexpect.bind fun _ c' hc => ?_
  rw [hc.2]
  exact h hc.1

end Steps

/-! ## Where a part of a scan comes to -/

/-- From `c` to `c'` no byte is given back, and as many type arguments are left as entered. -/
structure Keeps (c c' : Cursor) : Prop where
  le : c.pos ≤ c'.pos
  depth : c'.depth = c.depth

/-- As `Keeps`, and the next byte is one of ASCII. -/
structure Faces (text : String) (c c' : Cursor) : Prop extends Keeps c c' where
  ascii : Text.AsciiAt text c'.pos

/-- From `c` to `c'` bytes are passed, up to a position in the text that lies between characters,
and as many type arguments are left as entered. -/
structure Advances (text : String) (c c' : Cursor) : Prop where
  lt : c.pos < c'.pos
  le : c'.pos ≤ text.utf8ByteSize
  valid : String.Pos.Raw.IsValid text ⟨c'.pos⟩
  depth : c'.depth = c.depth

/-- From `c` to `c'` a name is passed, which is the text between two positions that lie between
characters. -/
structure CutsOut (text : String) (c : Cursor) (name : String) (c' : Cursor) : Prop
    extends Faces text c c' where
  lt : c.pos < c'.pos
  cut : ∃ start stop : text.Pos, start.offset.byteIdx = c.pos ∧ stop.offset.byteIdx = c'.pos ∧
    name = text.extract start stop

section Moves

variable {text : String} {c c' c'' : Cursor}

theorem Keeps.refl : Keeps c c := ⟨Nat.le_refl _, rfl⟩

theorem Keeps.trans (h : Keeps c c') (h' : Keeps c' c'') : Keeps c c'' :=
  ⟨Nat.le_trans h.le h'.le, h'.depth.trans h.depth⟩

theorem keeps_passed (c : Cursor) (n : Nat) : Keeps c (c.passed n) := ⟨Nat.le_add_right _ _, rfl⟩

theorem keeps_named (c : Cursor) (n : TypeName) : Keeps c (c.named n) := ⟨Nat.le_refl _, rfl⟩

theorem Advances.keeps (h : Advances text c c') : Keeps c c' := ⟨Nat.le_of_lt h.lt, h.depth⟩

theorem Keeps.advances (h : Keeps c c') (h' : Advances text c' c'') : Advances text c c'' :=
  ⟨Nat.lt_of_le_of_lt h.le h'.lt, h'.le, h'.valid, h'.depth.trans h.depth⟩

theorem Keeps.faces (h : Keeps c c') (h' : Faces text c' c'') : Faces text c c'' :=
  ⟨h.trans h'.toKeeps, h'.ascii⟩

/-- A byte of ASCII is passed. -/
theorem Faces.advances (h : Faces text c c') : Advances text c (c'.passed 1) where
  lt := Nat.lt_succ_of_le h.le
  le := h.ascii.isValid_succ.le_rawEndPos
  valid := h.ascii.isValid_succ
  depth := h.depth

theorem pos_lt_of_getElem? {b : UInt8} (h : (Assembly.textBytes text)[c.pos]? = some b) :
    c.pos < text.utf8ByteSize := by
  rw [← Text.length_textBytes]
  exact (List.getElem?_eq_some_iff.mp h).1

/-- There are more rounds than bytes left. -/
def Enough (text : String) (rounds : Nat) (c : Cursor) : Prop :=
  text.utf8ByteSize - c.pos < rounds

variable {rounds : Nat}

theorem enough (h : text.utf8ByteSize < rounds) (c : Cursor) : Enough text rounds c :=
  Nat.lt_of_le_of_lt (Nat.sub_le _ _) h

theorem Enough.mono (h : Enough text rounds c) (hle : c.pos ≤ c'.pos) : Enough text rounds c' := by
  unfold Enough at h ⊢
  omega

/-- A round is used up for a byte. -/
theorem Enough.ahead (h : Enough text (rounds + 1) c) {b : UInt8}
    (hb : (Assembly.textBytes text)[c.pos]? = some b) (hlt : c.pos < c'.pos) :
    Enough text rounds c' := by
  have hsize := pos_lt_of_getElem? hb
  unfold Enough at h ⊢
  omega

theorem Enough.advances (h : Enough text (rounds + 1) c) (hadv : Advances text c c') :
    Enough text rounds c' := by
  have hlt := hadv.lt
  have hle := hadv.le
  unfold Enough at h ⊢
  omega

end Moves

/-! ## Every part of a scan ends -/

section Parts

variable {text : String} {c : Cursor} {rounds : Nat} {type : Scan Unit}

theorem ends_skipTo {cs : List Char} (hcs : Text.allAscii cs = true) (h : Enough text rounds c) :
    Ends text (skipTo text (isOneOf cs) rounds) c fun _ c' => Faces text c c' := by
  induction rounds generalizing c with
  | zero => exact absurd h (Nat.not_lt_zero _)
  | succ rounds ih =>
    rw [skipTo]
    refine ends_peek_bind fun b hb => ?_
    split
    · rename_i hstop
      exact ends_pure ⟨.refl, ascii_of_isOneOf hcs hstop hb⟩
    · have hnext := ih (c := c.passed 1) (h.ahead hb (Nat.lt_succ_self _))
      exact ends_advance_bind (hnext.imp fun _ c' h => (keeps_passed c 1).faces h)

/-- A name that begins between characters ends between characters. -/
theorem ends_identifier (hc : String.Pos.Raw.IsValid text ⟨c.pos⟩) (h : Enough text rounds c) :
    Ends text (identifier text rounds) c (CutsOut text c) := by
  unfold identifier
  refine ends_position_bind ((ends_skipTo (by decide) h).bind fun _ c' hfaces => ?_)
  refine ends_position_bind ?_
  split
  · exact ends_refuse
  · rename_i hne
    refine (ends_slice hfaces.le hc hfaces.ascii.isValid).imp fun _ c'' h => ?_
    rw [h.1, h.2]
    exact ⟨hfaces, Nat.lt_of_le_of_ne hfaces.le (Ne.symm hne), _, _, rfl, rfl, rfl⟩

/-- From inside a character no name is cut out. -/
example : identifier "é;" 4 ⟨1, 0, []⟩ = some (.error .broken) := rfl

theorem ends_skipBrackets (h : Enough text rounds c) (n : Nat) :
    Ends text (skipBrackets text rounds n) c fun _ c' => Keeps c c' := by
  induction rounds generalizing c n with
  | zero => exact absurd h (Nat.not_lt_zero _)
  | succ rounds ih =>
    rw [skipBrackets]
    refine ends_peek_bind fun b hb => ?_
    split
    · split
      · exact ends_refuse
      · have hnext := ih (c := c.passed 1) (h.ahead hb (Nat.lt_succ_self _)) (n + 1)
        exact ends_advance_bind (hnext.imp fun _ c' h => (keeps_passed c 1).trans h)
    · exact ends_pure .refl

theorem ends_typeVariable (h : Enough text rounds c) :
    Ends text (typeVariable text rounds) c fun _ c' => Advances text c c' := by
  unfold typeVariable
  refine ends_position_bind ((ends_skipTo (by decide) h).bind fun _ c' hfaces => ?_)
  refine ends_position_bind ?_
  split
  · exact ends_refuse
  · exact ends_advance hfaces.advances

/-- Types that begin behind a position end. -/
def TypesEndBehind (text : String) (type : Scan Unit) (p : Nat) : Prop :=
  ∀ c, p < c.pos → Ends text type c fun _ c' => Advances text c c'

theorem TypesEndBehind.mono {p q : Nat} (h : TypesEndBehind text type p) (hpq : p ≤ q) :
    TypesEndBehind text type q :=
  fun c hc => h c (Nat.lt_of_le_of_lt hpq hc)

theorem ends_argumentList {p : Nat} (htypes : TypesEndBehind text type p) (hp : p < c.pos)
    (h : Enough text rounds c) :
    Ends text (argumentList text type rounds) c fun _ c' => Faces text c c' := by
  induction rounds generalizing c with
  | zero => exact absurd h (Nat.not_lt_zero _)
  | succ rounds ih =>
    rw [argumentList]
    refine ends_peek_bind fun b hb => ?_
    -- A type is followed by the rest of the list.
    have htype : ∀ c₁, Keeps c c₁ →
        Ends text (do type; argumentList text type rounds) c₁ fun _ c' => Faces text c c' := by
      intro c₁ hkeeps
      refine (htypes c₁ (Nat.lt_of_lt_of_le hp hkeeps.le)).bind fun _ c₂ hadv => ?_
      have hadv' := hkeeps.advances hadv
      refine (ih (Nat.lt_trans hp hadv'.lt) (h.advances hadv')).imp fun _ c' h => ?_
      exact hadv'.keeps.faces h
    split
    · rename_i hend
      exact ends_pure ⟨.refl, ascii_of_eq (by decide) (hend ▸ hb)⟩
    · split
      · have hlt : c.pos < (c.passed 1).pos := Nat.lt_succ_self _
        have hnext := ih (Nat.lt_trans hp hlt) (h.ahead hb hlt)
        exact ends_advance_bind (hnext.imp fun _ c' h => (keeps_passed c 1).faces h)
      · split
        · exact ends_advance_bind (htype _ (keeps_passed c 1))
        · exact htype c .refl

theorem ends_typeArguments (htypes : TypesEndBehind text type c.pos) (h : Enough text rounds c) :
    Ends text (typeArguments text type rounds) c fun _ c' => Advances text c c' := by
  unfold typeArguments
  refine ends_expect_bind (by decide) fun _ => ends_peek_bind fun b _ => ends_level_bind ?_
  split
  · exact ends_refuse
  · have hlt : c.pos < c.pos + 1 := Nat.lt_succ_self _
    refine ends_enter_bind ?_
    refine (ends_argumentList htypes hlt (h.mono (Nat.le_of_lt hlt))).bind fun _ c' hfaces => ?_
    have hadv := hfaces.advances
    exact ends_advance_bind (ends_leave hfaces.depth
      ⟨Nat.lt_of_succ_lt hadv.lt, hadv.le, hadv.valid, rfl⟩)

theorem ends_suffixes {p : Nat} (htypes : TypesEndBehind text type p) (hp : p ≤ c.pos)
    (h : Enough text rounds c) (name : TypeName) :
    Ends text (suffixes text type rounds name) c fun _ c' => Advances text c c' := by
  induction rounds generalizing c name with
  | zero => exact absurd h (Nat.not_lt_zero _)
  | succ rounds ih =>
    rw [suffixes]
    refine ends_peek_bind fun b hb => ?_
    split
    · refine (ends_typeArguments (htypes.mono hp) h).bind fun _ c' hadv => ?_
      have hnext := ih (Nat.le_trans hp hadv.keeps.le) (h.advances hadv) name
      exact hnext.imp fun _ c'' h => hadv.keeps.advances h
    · split
      · rename_i hdot
        have hascii : Text.AsciiAt text c.pos := ascii_of_eq (by decide) (hdot ▸ hb)
        have hlt : c.pos < (c.passed 1).pos := Nat.lt_succ_self _
        refine ends_advance_bind ?_
        refine (ends_identifier hascii.isValid_succ (h.mono (Nat.le_of_lt hlt))).bind
          fun simple c' hname => ?_
        have hkeeps := (keeps_passed c 1).trans hname.toKeeps
        split
        · exact ends_refuse
        · have hnext := ih (c := c'.named ⟨name.text ++ "$" ++ simple⟩) (Nat.le_trans hp hkeeps.le)
            (h.ahead hb (Nat.lt_trans hlt hname.lt)) ⟨name.text ++ "$" ++ simple⟩
          exact ends_report_bind (hnext.imp fun _ c'' h =>
            (hkeeps.trans (keeps_named c' _)).advances h)
      · split
        · rename_i hend
          exact ends_advance (Faces.advances ⟨.refl, ascii_of_eq (by decide) (hend ▸ hb)⟩)
        · exact ends_refuse

theorem ends_classTypeSignature (htypes : TypesEndBehind text type c.pos)
    (h : Enough text rounds c) :
    Ends text (classTypeSignature text type rounds) c fun _ c' => Advances text c c' := by
  unfold classTypeSignature
  refine ends_expect_bind (by decide) fun hascii => ?_
  refine (ends_identifier hascii.isValid_succ (h.mono (Nat.le_succ _))).bind
    fun internal c' hname => ?_
  have hkeeps := (keeps_passed c 1).trans hname.toKeeps
  split
  · have hnext := ends_suffixes (c := c'.named (.ofInternal internal)) htypes hkeeps.le
      (h.mono hkeeps.le) (.ofInternal internal)
    exact ends_report_bind (hnext.imp fun _ c'' h => (hkeeps.trans (keeps_named c' _)).advances h)
  · exact ends_refuse

/-- **A type is read to its end, and the counter of levels is what it was.** -/
theorem ends_typeSignature (h : Enough text rounds c) :
    Ends text (typeSignature text rounds) c fun _ c' => Advances text c c' := by
  induction rounds generalizing c with
  | zero => exact absurd h (Nat.not_lt_zero _)
  | succ rounds ih =>
    rw [typeSignature]
    refine (ends_skipBrackets h 0).bind fun _ c' hkeeps => ends_peek_bind fun b hb => ?_
    have henough : Enough text (rounds + 1) c' := h.mono hkeeps.le
    have hbehind : TypesEndBehind text (typeSignature text rounds) c'.pos :=
      fun c₁ hlt => ih (henough.ahead hb hlt)
    split
    · rename_i hletter
      exact ends_advance (Faces.advances ⟨hkeeps, ascii_of_isOneOf (by decide) hletter hb⟩)
    · split
      · have hvariable := ends_typeVariable (c := c'.passed 1) (henough.mono (Nat.le_succ _))
        refine ends_advance_bind (hvariable.imp fun _ c'' h => ?_)
        exact (hkeeps.trans (keeps_passed c' 1)).advances h
      · split
        · refine (ends_classTypeSignature hbehind henough).imp fun _ c'' h => ?_
          exact hkeeps.advances h
        · exact ends_refuse

/-! ## Every scan ends -/

/-- Types end wherever they begin. -/
def TypesEnd (text : String) (type : Scan Unit) : Prop :=
  ∀ c, Ends text type c fun _ c' => Advances text c c'

theorem typesEnd_typeSignature (h : text.utf8ByteSize < rounds) :
    TypesEnd text (typeSignature text rounds) :=
  fun c => ends_typeSignature (enough h c)

theorem TypesEnd.behind (h : TypesEnd text type) (p : Nat) : TypesEndBehind text type p :=
  fun c _ => h c

variable (htypes : TypesEnd text type)
include htypes

theorem ends_boundList (h : Enough text rounds c) :
    Ends text (boundList text type rounds) c fun _ c' => Keeps c c' := by
  induction rounds generalizing c with
  | zero => exact absurd h (Nat.not_lt_zero _)
  | succ rounds ih =>
    rw [boundList]
    refine ends_atEnd_bind fun done => ?_
    split
    · exact ends_pure .refl
    · refine ends_peek_bind fun b hb => ?_
      have hlt : c.pos < (c.passed 1).pos := Nat.lt_succ_self _
      split
      · refine ends_advance_bind (ends_peek_bind fun b' _ => ?_)
        split
        · refine (htypes _).bind fun _ c' hadv => ?_
          have hadv' := (keeps_passed c 1).advances hadv
          exact (ih (h.advances hadv')).imp fun _ c'' h => hadv'.keeps.trans h
        · exact (ih (h.ahead hb hlt)).imp fun _ c' h => (keeps_passed c 1).trans h
      · exact ends_pure .refl

theorem ends_parameterList (h : Enough text rounds c) :
    Ends text (parameterList text type rounds) c fun _ c' => Faces text c c' := by
  induction rounds generalizing c with
  | zero => exact absurd h (Nat.not_lt_zero _)
  | succ rounds ih =>
    rw [parameterList]
    refine ends_peek_bind fun b hb => ?_
    split
    · rename_i hend
      exact ends_pure ⟨.refl, ascii_of_eq (by decide) (hend ▸ hb)⟩
    · refine ends_position_bind ((ends_skipTo (by decide) h).bind fun _ c₁ hfaces => ?_)
      refine ends_position_bind ?_
      split
      · exact ends_refuse
      · rename_i hne
        have hlt : c.pos < c₁.pos := Nat.lt_of_le_of_ne hfaces.le (Ne.symm hne)
        refine (ends_boundList htypes (h.mono hfaces.le)).bind fun _ c₂ hkeeps => ?_
        have hnext := ih (h.ahead hb (Nat.lt_of_lt_of_le hlt hkeeps.le))
        exact hnext.imp fun _ c₃ h => (hfaces.toKeeps.trans hkeeps).faces h

theorem ends_formalTypeParameters (h : Enough text rounds c) :
    Ends text (formalTypeParameters text type rounds) c fun _ c' => Advances text c c' := by
  unfold formalTypeParameters
  refine ends_expect_bind (by decide) fun _ => ?_
  have hlist := ends_parameterList (c := c.passed 1) htypes (h.mono (Nat.le_succ _))
  refine hlist.bind fun _ c' hfaces => ends_advance ?_
  exact (keeps_passed c 1).advances hfaces.advances

theorem ends_methodParameters (h : Enough text rounds c) :
    Ends text (methodParameters text type rounds) c fun _ _ => True := by
  induction rounds generalizing c with
  | zero => exact absurd h (Nat.not_lt_zero _)
  | succ rounds ih =>
    rw [methodParameters]
    refine ends_peek_bind fun b hb => ?_
    split
    · exact ends_pure trivial
    · exact (htypes c).bind fun _ c' hadv => ih (h.advances hadv)

theorem ends_thrownList (h : Enough text rounds c) :
    Ends text (thrownList text type rounds) c fun _ _ => True := by
  induction rounds generalizing c with
  | zero => exact absurd h (Nat.not_lt_zero _)
  | succ rounds ih =>
    rw [thrownList]
    refine ends_atEnd_bind fun done => ?_
    split
    · exact ends_pure trivial
    · refine ends_expect_bind (by decide) fun _ => ?_
      exact (htypes _).bind fun _ c' hadv => ih (h.advances ((keeps_passed c 1).advances hadv))

theorem ends_typeList (h : Enough text rounds c) :
    Ends text (typeList text type rounds) c fun _ _ => True := by
  induction rounds generalizing c with
  | zero => exact absurd h (Nat.not_lt_zero _)
  | succ rounds ih =>
    rw [typeList]
    refine ends_atEnd_bind fun done => ?_
    split
    · exact ends_pure trivial
    · exact (htypes c).bind fun _ c' hadv => ih (h.advances hadv)

variable (h : text.utf8ByteSize < rounds)
include h

theorem ends_methodTypes (c : Cursor) :
    Ends text (methodTypes text type rounds) c fun _ _ => True := by
  unfold methodTypes
  refine (ends_methodParameters htypes (enough h c)).bind fun _ c' _ => ?_
  refine ends_advance_bind (ends_peek_bind fun b _ => ?_)
  split
  · exact ends_advance_bind (ends_thrownList htypes (enough h _))
  · exact (htypes _).bind fun _ c'' _ => ends_thrownList htypes (enough h c'')

theorem ends_types (c : Cursor) : Ends text (types text type rounds) c fun _ _ => True := by
  unfold types
  refine ends_atEnd_bind fun done => ?_
  split
  · exact ends_refuse
  · refine ends_peek_bind fun b _ => ?_
    split
    · exact ends_advance_bind (ends_methodTypes htypes h _)
    · exact ends_typeList htypes (enough h c)

/-- **Every scan ends.** -/
theorem ends_scan (c : Cursor) : Ends text (scan text type rounds) c fun _ _ => True := by
  unfold scan
  refine ends_atEnd_bind fun done => ?_
  split
  · exact ends_refuse
  · refine ends_peek_bind fun b _ => ?_
    split
    · exact (ends_formalTypeParameters htypes (enough h c)).bind fun _ c' _ =>
        ends_types htypes h c'
    · exact ends_types htypes h c

end Parts

end VirtualClasspath.Signature.Bytewise
