import VirtualClasspath.Proofs.Signature.Bytewise
import VirtualClasspath.Proofs.Signature.Reading

/-!
# Bytes and characters in step

`Finds text x c F`: from the cursor `c`, the part `x` of a scan over bytes does what was found in
the characters, if its loops have rounds enough. There is one rule for each step of a scan, so that
a scan over bytes is followed by the equations of the scanner over characters, branch by branch. A
branch on the next byte is one on the next character (`finds_ite`), since only characters of ASCII
are asked for.

A name is passed byte by byte. The bytes of a character that does not end the name do not end it
either, so the name is passed character by character as well (`name_cases`), and what is cut out are
its characters (`slice_eq`).
-/

namespace VirtualClasspath.Signature.Bytewise

open Assembly (textBytes)
open String (utf8EncodeChar)
open Text (Remains allAscii leadByte leadByte_eq_iff toNat_lt_of_allAscii)

variable {text : String} {c : Cursor} {d : Char} {cs r s : List Char}

/-! ## Passing characters -/

/-- The first byte of a character is one of some characters if the character is. -/
theorem isOneOf_leadByte (hcs : allAscii cs = true) :
    isOneOf cs (leadByte d) = true ↔ d ∈ cs := by
  unfold isOneOf
  rw [List.any_eq_true]
  constructor
  · rintro ⟨e, he, hb⟩
    rwa [(leadByte_eq_iff (toNat_lt_of_allAscii hcs he)).mp (of_decide_eq_true hb)]
  · intro hd
    exact ⟨d, hd, decide_eq_true ((leadByte_eq_iff (toNat_lt_of_allAscii hcs hd)).mpr rfl)⟩

/-- No byte of another character is one of some characters of ASCII. -/
theorem isOneOf_eq_false (hcs : allAscii cs = true) (hd : d ∉ cs) {b : UInt8}
    (hb : b ∈ utf8EncodeChar d) : isOneOf cs b = false := by
  unfold isOneOf
  rw [List.any_eq_false]
  intro e he hbe
  have hbe := of_decide_eq_true hbe
  have hascii : e.toNat < 128 := toNat_lt_of_allAscii hcs he
  have hlt : d.toNat < 128 := by
    refine Text.toNat_lt_of_mem_utf8EncodeChar hb ?_
    rw [hbe, Text.toNat_toUInt8 hascii]
    exact hascii
  rw [Text.utf8EncodeChar_ascii hlt, List.mem_singleton] at hb
  have hlead : leadByte d = e.toUInt8 := by
    rw [leadByte, Text.utf8EncodeChar_ascii hlt, ← hbe, hb]
    rfl
  exact hd ((leadByte_eq_iff hascii).mp hlead ▸ he)

/-- Bytes that nothing stops at are passed. -/
theorem skipTo_bytes {l m : List UInt8} (h : (textBytes text).drop c.pos = l ++ m)
    (hl : ∀ b ∈ l, isOneOf cs b = false) (rounds : Nat) :
    skipTo text (isOneOf cs) rounds c = none ∨
      ∃ k, skipTo text (isOneOf cs) rounds c = skipTo text (isOneOf cs) k (c.passed l.length) := by
  induction l generalizing c rounds with
  | nil => exact Or.inr ⟨rounds, rfl⟩
  | cons b l ih =>
    cases rounds with
    | zero => exact Or.inl rfl
    | succ rounds =>
      have hb : (textBytes text)[c.pos]? = some b := by
        rw [← List.head?_drop, h]
        rfl
      have hnext : (textBytes text).drop (c.passed 1).pos = l ++ m := by
        change (textBytes text).drop (c.pos + 1) = _
        rw [← List.drop_drop, h]
        rfl
      have hstep : skipTo text (isOneOf cs) (rounds + 1) c =
          skipTo text (isOneOf cs) rounds (c.passed 1) := by
        rw [skipTo, bind_of_ok (peek_of_some hb), hl b List.mem_cons_self,
          if_neg Bool.false_ne_true]
        rfl
      have hpassed : (c.passed 1).passed l.length = c.passed (b :: l).length := by
        rw [List.length_cons, Nat.add_comm]
        simp only [Cursor.passed, Nat.add_assoc]
      rw [hstep, ← hpassed]
      exact ih hnext (fun b hb => hl b (List.mem_cons_of_mem _ hb)) rounds

theorem skipTo_chars (hcs : allAscii cs = true) (h : Remains text c.pos (s ++ r))
    (hs : ∀ e ∈ s, e ∉ cs) (rounds : Nat) :
    skipTo text (isOneOf cs) rounds c = none ∨ ∃ k, skipTo text (isOneOf cs) rounds c =
      skipTo text (isOneOf cs) k (c.passed (s.flatMap utf8EncodeChar).length) := by
  have hdrop := h.drop
  rw [List.flatMap_append] at hdrop
  refine skipTo_bytes hdrop (fun b hb => ?_) rounds
  obtain ⟨e, he, hbe⟩ := List.mem_flatMap.mp hb
  exact isOneOf_eq_false hcs (hs e he) hbe

theorem skipTo_found (hcs : allAscii cs = true) (h : Remains text c.pos (s ++ d :: r))
    (hs : ∀ e ∈ s, e ∉ cs) (hd : d ∈ cs) (rounds : Nat) :
    skipTo text (isOneOf cs) rounds c = none ∨ skipTo text (isOneOf cs) rounds c =
      some (.ok ((), c.passed (s.flatMap utf8EncodeChar).length)) := by
  have hstop : Remains text (c.passed (s.flatMap utf8EncodeChar).length).pos (d :: r) := h.append
  rcases skipTo_chars hcs h hs rounds with hnone | ⟨k, hchars⟩
  · exact Or.inl hnone
  · cases k with
    | zero => exact Or.inl hchars
    | succ k =>
      right
      rw [hchars, skipTo, bind_of_ok (peek_of_some hstop.getElem?_cons),
        (isOneOf_leadByte hcs).mpr hd]
      rfl

theorem skipTo_lost (hcs : allAscii cs = true) (h : Remains text c.pos s)
    (hs : ∀ e ∈ s, e ∉ cs) (rounds : Nat) :
    skipTo text (isOneOf cs) rounds c = none ∨ skipTo text (isOneOf cs) rounds c =
      some (.error (.refused (.badSignature text))) := by
  rw [← List.append_nil s] at h
  have hstop : Remains text (c.passed (s.flatMap utf8EncodeChar).length).pos [] := h.append
  rcases skipTo_chars hcs h hs rounds with hnone | ⟨k, hchars⟩
  · exact Or.inl hnone
  · cases k with
    | zero => exact Or.inl hchars
    | succ k =>
      right
      rw [hchars, skipTo, bind_of_refused (peek_of_none hstop.getElem?_nil)]

/-- Some characters come in a text, or they do not. -/
theorem exists_split (cs s : List Char) :
    (∀ e ∈ s, e ∉ cs) ∨ ∃ a d r, s = a ++ d :: r ∧ (∀ e ∈ a, e ∉ cs) ∧ d ∈ cs := by
  induction s with
  | nil => exact Or.inl nofun
  | cons e s ih =>
    by_cases he : e ∈ cs
    · exact Or.inr ⟨[], e, s, rfl, nofun, he⟩
    · rcases ih with hno | ⟨a, d, r, rfl, ha, hd⟩
      · exact Or.inl (List.forall_mem_cons.mpr ⟨he, hno⟩)
      · exact Or.inr ⟨e :: a, d, r, rfl, List.forall_mem_cons.mpr ⟨he, ha⟩, hd⟩

theorem passed_pos_eq_iff :
    (c.passed (s.flatMap utf8EncodeChar).length).pos = c.pos ↔ s = [] := by
  change c.pos + (s.flatMap utf8EncodeChar).length = c.pos ↔ _
  rw [Nat.add_eq_left, List.length_eq_zero_iff]
  cases s <;> simp

/-- Before a delimiter there is a name, unless the delimiter comes at once or not at all. -/
theorem name_cases {α : Type} {x : Scan α} {k : Nat → Scan α} (rounds : Nat)
    (hcs : allAscii cs = true) (h : Remains text c.pos s)
    (hx : x c = (skipTo text (isOneOf cs) rounds >>= fun _ => position >>= fun stop =>
      if stop = c.pos then refuse text else k stop) c) :
    x c = none ∨
    (x c = some (.error (.refused (.badSignature text))) ∧
      ((∀ e ∈ s, e ∉ cs) ∨ ∃ e r, s = e :: r ∧ e ∈ cs)) ∨
    ∃ a e r, s = a ++ e :: r ∧ a ≠ [] ∧ (∀ b ∈ a, b ∉ cs) ∧ e ∈ cs ∧
      x c = k (c.passed (a.flatMap utf8EncodeChar).length).pos
        (c.passed (a.flatMap utf8EncodeChar).length) := by
  rcases exists_split cs s with hno | ⟨a, e, r, rfl, ha, he⟩
  · rcases skipTo_lost hcs h hno rounds with hnone | hlost
    · exact Or.inl (hx.trans (bind_of_none hnone))
    · exact Or.inr (Or.inl ⟨hx.trans (bind_of_refused hlost), Or.inl hno⟩)
  · rcases skipTo_found hcs h ha he rounds with hnone | hfound
    · exact Or.inl (hx.trans (bind_of_none hnone))
    · rw [bind_of_ok hfound, bind_of_ok rfl] at hx
      by_cases hempty : a = []
      · rw [if_pos (passed_pos_eq_iff.mpr hempty)] at hx
        exact Or.inr (Or.inl ⟨hx, Or.inr ⟨e, r, by rw [hempty]; rfl, he⟩⟩)
      · rw [if_neg (mt passed_pos_eq_iff.mp hempty)] at hx
        exact Or.inr (Or.inr ⟨a, e, r, rfl, hempty, ha, he, hx⟩)

/-- What is cut out between two positions are the characters between them. -/
theorem slice_eq (h : Remains text c.pos (cs ++ s)) (c' : Cursor) :
    slice text c.pos (c.passed (cs.flatMap utf8EncodeChar).length).pos c' =
      some (.ok (String.ofList cs, c')) := by
  have hstart := Text.isValid_iff_remains.mpr ⟨_, h⟩
  have hstop := Text.isValid_iff_remains.mpr ⟨_, h.append⟩
  have hcond : c.pos ≤ (c.passed (cs.flatMap utf8EncodeChar).length).pos ∧
      String.Pos.Raw.IsValid text ⟨c.pos⟩ ∧
        String.Pos.Raw.IsValid text ⟨(c.passed (cs.flatMap utf8EncodeChar).length).pos⟩ :=
    ⟨Nat.le_add_right _ _, hstart, hstop⟩
  unfold slice
  rw [dif_pos hcond]
  have hcut := h.extract_eq (p := ⟨_, hcond.2.1⟩) (q := ⟨_, hcond.2.2⟩) rfl rfl
  rw [hcut]
  rfl

/-! ## What a part of a scan finds -/

/-- From `c` this part of a scan does what was found: it refuses the text if nothing was, and else
it notes the names and comes to what is left, on the level on which it began. -/
def Does (text : String) (x : Scan Unit) (c : Cursor) : Found → Prop
  | none => x c = some (.error (.refused (.badSignature text)))
  | some (names, rest) =>
    ∃ c', x c = some (.ok ((), c')) ∧ Remains text c'.pos rest ∧ c'.depth = c.depth ∧
      c'.names = c.names ++ names

/-- It does what was found if its loops have rounds enough. -/
def Finds (text : String) (x : Scan Unit) (c : Cursor) (F : Found) : Prop :=
  x c = none ∨ Does text x c F

section Finds

variable {α : Type} {x : Scan Unit} {c' : Cursor} {F : Found} {n : TypeName}

theorem finds_exhausted : Finds text exhausted c F := Or.inl rfl

theorem finds_pure (h : Remains text c.pos s) : Finds text (pure ()) c (some ([], s)) :=
  Or.inr ⟨c, rfl, h, rfl, (List.append_nil _).symm⟩

theorem finds_refuse : Finds text (refuse text) c none := Or.inr rfl

theorem finds_of_refused {x : Scan α} {f : α → Scan Unit}
    (h : x c = some (.error (.refused (.badSignature text)))) : Finds text (x >>= f) c none :=
  Or.inr (bind_of_refused h)

theorem Does.of_eq {y : Scan Unit} (h : x c = y c') (hdepth : c'.depth = c.depth)
    (hnames : c'.names = c.names) (hy : Does text y c' F) : Does text x c F := by
  cases F with
  | none => exact h.trans hy
  | some p =>
    obtain ⟨c'', hx, hrest, hd, hn⟩ := hy
    exact ⟨c'', h.trans hx, hrest, hd.trans hdepth, hn.trans (by rw [hnames])⟩

theorem finds_of_eq {y : Scan Unit} (h : x c = y c') (hdepth : c'.depth = c.depth)
    (hnames : c'.names = c.names) (hy : Finds text y c' F) : Finds text x c F :=
  hy.imp h.trans (Does.of_eq h hdepth hnames)

/-- A step that notes no class and stays on its level. -/
theorem finds_of_ok {x : Scan α} {a : α} {f : α → Scan Unit} (h : x c = some (.ok (a, c')))
    (hdepth : c'.depth = c.depth) (hnames : c'.names = c.names) (hf : Finds text (f a) c' F) :
    Finds text (x >>= f) c F :=
  finds_of_eq (bind_of_ok h) hdepth hnames hf

theorem Finds.andThen {f : Unit → Scan Unit} {next : List Char → Found} (h : Finds text x c F)
    (hf : ∀ c' t, Remains text c'.pos t → c'.depth = c.depth → Finds text (f ()) c' (next t)) :
    Finds text (x >>= f) c (F.andThen next) := by
  rcases h with hnone | h
  · exact Or.inl (bind_of_none hnone)
  · cases F with
    | none => exact finds_of_refused h
    | some p =>
      obtain ⟨names, t⟩ := p
      obtain ⟨c', hx, hrest, hdepth, hnames⟩ := h
      rcases hf c' t hrest hdepth with hnone | hnext
      · exact Or.inl ((bind_of_ok hx).trans hnone)
      · right
        change Does text (x >>= f) c ((next t).after names)
        cases hF : next t with
        | none =>
          rw [hF] at hnext
          exact (bind_of_ok hx).trans hnext
        | some q =>
          rw [hF] at hnext
          obtain ⟨c'', hx', hrest', hdepth', hnames'⟩ := hnext
          refine ⟨c'', (bind_of_ok hx).trans hx', hrest', hdepth'.trans hdepth, ?_⟩
          rw [hnames', hnames, List.append_assoc]

theorem finds_level_bind {f : Nat → Scan Unit} (h : Finds text (f c.depth) c F) :
    Finds text (level >>= f) c F := finds_of_ok rfl rfl rfl h

theorem finds_atEnd_nil {x y : Scan Unit} (h : Remains text c.pos []) (hx : Finds text x c F) :
    Finds text (do if ← atEnd text then x else y) c F := by
  have hend : decide ((textBytes text).length ≤ c.pos) = true :=
    decide_eq_true (h.length_le_iff.mpr rfl)
  exact finds_of_ok (congrArg (fun b => some (Except.ok (b, c))) hend) rfl rfl hx

theorem finds_atEnd_cons {x y : Scan Unit} (h : Remains text c.pos (d :: r))
    (hy : Finds text y c F) : Finds text (do if ← atEnd text then x else y) c F := by
  have hend : decide ((textBytes text).length ≤ c.pos) = false :=
    decide_eq_false (mt h.length_le_iff.mp (List.cons_ne_nil _ _))
  exact finds_of_ok (congrArg (fun b => some (Except.ok (b, c))) hend) rfl rfl hy

theorem finds_peek_nil {f : UInt8 → Scan Unit} (h : Remains text c.pos []) :
    Finds text (peek text >>= f) c none :=
  finds_of_refused (peek_of_none h.getElem?_nil)

theorem finds_peek_cons {f : UInt8 → Scan Unit} (h : Remains text c.pos (d :: r))
    (hf : Finds text (f (leadByte d)) c F) : Finds text (peek text >>= f) c F :=
  finds_of_ok (peek_of_some h.getElem?_cons) rfl rfl hf

theorem finds_advance (h : Remains text c.pos (d :: r)) (hd : d.toNat < 128) :
    Finds text advance c (some ([], r)) :=
  Or.inr ⟨c.passed 1, rfl, h.tail hd, rfl, (List.append_nil _).symm⟩

theorem finds_advance_bind {f : Unit → Scan Unit} (h : Finds text (f ()) (c.passed 1) F) :
    Finds text (advance >>= f) c F := finds_of_ok rfl rfl rfl h

theorem finds_expect_bind {f : Unit → Scan Unit} (h : Remains text c.pos (d :: r))
    (hd : d.toNat < 128) (hf : Finds text (f ()) (c.passed 1) F) :
    Finds text (expect text d >>= f) c F := by
  have hexpect : expect text d c = some (.ok ((), c.passed 1)) := by
    unfold expect
    rw [bind_of_ok (peek_of_some h.getElem?_cons), if_pos ((leadByte_eq_iff hd).mpr rfl)]
    rfl
  exact finds_of_ok hexpect rfl rfl hf

theorem finds_expect_other {f : Unit → Scan Unit} {e : Char} (h : Remains text c.pos (d :: r))
    (he : e.toNat < 128) (hd : d ≠ e) : Finds text (expect text e >>= f) c none := by
  refine finds_of_refused ?_
  unfold expect
  rw [bind_of_ok (peek_of_some h.getElem?_cons), if_neg (mt (leadByte_eq_iff he).mp hd)]
  rfl

/-- The next character is one of ASCII exactly if its byte is. -/
theorem finds_ite {x y : Scan Unit} {e : Char} (he : e.toNat < 128)
    (heq : d = e → Finds text x c F) (hne : d ≠ e → Finds text y c F) :
    Finds text (if leadByte d = e.toUInt8 then x else y) c F := by
  split
  · exact heq ((leadByte_eq_iff he).mp ‹_›)
  · exact hne (mt (leadByte_eq_iff he).mpr ‹_›)

theorem finds_ite_oneOf {x y : Scan Unit} (hcs : allAscii cs = true)
    (hmem : d ∈ cs → Finds text x c F) (hno : d ∉ cs → Finds text y c F) :
    Finds text (if isOneOf cs (leadByte d) then x else y) c F := by
  split
  · exact hmem ((isOneOf_leadByte hcs).mp ‹_›)
  · exact hno (mt (isOneOf_leadByte hcs).mpr ‹_›)

/-- The character that was left is passed. -/
theorem finds_past (hd : d.toNat < 128) (h : Finds text x c (F.before d)) :
    Finds text (do x; advance) c F := by
  rcases h with hnone | h
  · exact Or.inl (bind_of_none hnone)
  · cases F with
    | none => exact finds_of_refused h
    | some p =>
      obtain ⟨c', hx, hrest, hdepth, hnames⟩ := h
      exact Or.inr ⟨c'.passed 1, bind_of_ok hx, hrest.tail hd, hdepth, hnames⟩

theorem finds_report_bind {f : Unit → Scan Unit} (h : Finds text (f ()) (c.named n) F) :
    Finds text (report n >>= f) c (F.after [n]) := by
  rcases h with hnone | h
  · exact Or.inl hnone
  · cases F with
    | none => exact Or.inr h
    | some p =>
      obtain ⟨c', hx, hrest, hdepth, hnames⟩ := h
      exact Or.inr ⟨c', hx, hrest, hdepth, hnames.trans (List.append_assoc _ _ _)⟩

end Finds

/-! ## Names -/

theorem endsName_iff {e : Char} : endsName e = true ↔ e ∈ ['<', '.', ';'] := by
  simp [endsName, or_assoc]

theorem endsName_eq_false {e : Char} (he : e ∉ ['<', '.', ';']) : endsName e = false :=
  Bool.eq_false_iff.mpr (mt endsName_iff.mp he)

variable {rounds : Nat}

/-- A name is cut out, or there is none. -/
theorem finds_identifier_bind {f : String → Scan Unit} {next : List Char × Rest s → Found}
    (h : Remains text c.pos s)
    (hf : ∀ p c', Remains text c'.pos p.2.1 → c'.depth = c.depth →
      Finds text (f (String.ofList p.1)) c' (next p)) :
    Finds text (identifier text rounds >>= f) c ((nameAndRest? s).bind next) := by
  rcases name_cases (x := identifier text rounds) rounds (by decide) h rfl with
    hnone | ⟨hx, hno | ⟨e, r, rfl, he⟩⟩ | ⟨a, e, r, rfl, hne, ha, he, hx⟩
  · exact Or.inl (bind_of_none hnone)
  · rw [nameAndRest?_of_unended fun e he => endsName_eq_false (hno e he)]
    exact finds_of_refused hx
  · rw [nameAndRest?_of_ended (s := e :: r) (endsName_iff.mpr he)]
    exact finds_of_refused hx
  · obtain ⟨hlt, hname⟩ := nameAndRest?_append (s := e :: r) hne
      (fun b hb => endsName_eq_false (ha b hb)) (endsName_iff.mpr he)
    rw [hname]
    exact finds_of_ok (hx.trans (slice_eq h _)) rfl rfl (hf (a, ⟨e :: r, hlt⟩) _ h.append rfl)

/-- A name is passed, or there is none. -/
theorem finds_name {x : Scan Unit} {F : Found} (hcs : allAscii cs = true)
    (h : Remains text c.pos s)
    (hnone : ((∀ e ∈ s, e ∉ cs) ∨ ∃ e r, s = e :: r ∧ e ∈ cs) → F = none)
    (hsome : ∀ a e r c', s = a ++ e :: r → a ≠ [] → (∀ b ∈ a, b ∉ cs) → e ∈ cs →
      Remains text c'.pos (e :: r) → c'.depth = c.depth → Finds text x c' F) :
    Finds text (do
      let start ← position
      skipTo text (isOneOf cs) rounds
      if (← position) = start then refuse text else x) c F := by
  rcases name_cases (k := fun _ => x) rounds hcs h rfl with
    hx | ⟨hx, hno⟩ | ⟨a, e, r, rfl, hne, ha, he, hx⟩
  · exact Or.inl hx
  · rw [hnone hno]
    exact Or.inr hx
  · exact finds_of_eq hx rfl rfl (hsome a e r _ rfl hne ha he h.append rfl)

theorem finds_typeVariable (h : Remains text c.pos s) :
    Finds text (typeVariable text rounds) c (found (Signature.typeVariable s)) := by
  refine finds_name (by decide) h (fun hno => ?none) fun a e r c' hs hne ha he hrest _ => ?some
  case none =>
    rcases hno with hno | ⟨e, r, rfl, he⟩
    · exact found_typeVariable_unended fun hmem => hno ';' hmem (List.mem_singleton_self _)
    · obtain rfl := List.mem_singleton.mp he
      exact found_typeVariable_empty
  case some =>
    obtain rfl := List.mem_singleton.mp he
    rw [hs, found_typeVariable hne fun hmem => ha ';' hmem he]
    exact finds_advance hrest (by decide)

end VirtualClasspath.Signature.Bytewise
