import VirtualClasspath.Proofs.ClassFile.ModifiedUtf8

/-!
# Positions in the bytes of a text

A position is a number of bytes. It lies between characters if some characters take up exactly that
many bytes: `Remains text i s` says that `s` is what is left of the text there
(`isValid_iff_remains`). Inside a character no byte is one of ASCII, so wherever such a byte stands
there is a character boundary before it and behind it (`exists_remains_of_ascii`), and to compare
the next byte with a character of ASCII is to compare the next character (`leadByte_eq_iff`).
-/

namespace VirtualClasspath.Text

open Assembly (textBytes)
open String (utf8EncodeChar)

/-! ## Characters as bytes -/

/-- The first byte of a character. -/
def leadByte (c : Char) : UInt8 := (utf8EncodeChar c).headD 0

/-- A character of ASCII is one byte. -/
theorem utf8EncodeChar_ascii {c : Char} (h : c.toNat < 128) : utf8EncodeChar c = [c.toUInt8] := by
  have hle : c.val.toNat ≤ 127 := Nat.le_of_lt_succ h
  simp only [utf8EncodeChar, hle, if_true]
  rfl

/-- Whether some characters are all of ASCII. -/
def allAscii (cs : List Char) : Bool := cs.all fun c => c.toNat < 128

theorem toNat_lt_of_allAscii {cs : List Char} (hcs : allAscii cs = true) {c : Char} (hc : c ∈ cs) :
    c.toNat < 128 :=
  of_decide_eq_true (List.all_eq_true.mp hcs c hc)

/-- A byte of ASCII is that of a character of ASCII. -/
theorem toNat_lt_of_mem_utf8EncodeChar {c : Char} {b : UInt8} (hb : b ∈ utf8EncodeChar c)
    (hlt : b.toNat < 128) : c.toNat < 128 := by
  have hval : c.val.toNat = c.toNat := rfl
  simp only [utf8EncodeChar, hval] at hb
  split at hb
  · omega
  -- The bytes of any other character have their high bit set.
  · exfalso
    split at hb
    · simp only [List.mem_cons, List.not_mem_nil, or_false] at hb
      rcases hb with rfl | rfl <;> rw [UInt8.toNat_ofNat'] at hlt <;> omega
    · split at hb
      · simp only [List.mem_cons, List.not_mem_nil, or_false] at hb
        rcases hb with rfl | rfl | rfl <;> rw [UInt8.toNat_ofNat'] at hlt <;> omega
      · simp only [List.mem_cons, List.not_mem_nil, or_false] at hb
        rcases hb with rfl | rfl | rfl | rfl <;> rw [UInt8.toNat_ofNat'] at hlt <;> omega

theorem utf8EncodeChar_ne_nil (c : Char) : utf8EncodeChar c ≠ [] := by
  rw [← List.length_pos_iff, String.length_utf8EncodeChar]
  exact c.utf8Size_pos

theorem utf8EncodeChar_eq_cons (c : Char) : ∃ more, utf8EncodeChar c = leadByte c :: more := by
  cases h : utf8EncodeChar c with
  | nil => exact absurd h (utf8EncodeChar_ne_nil c)
  | cons b more => exact ⟨more, by rw [leadByte, h]; rfl⟩

theorem toNat_toUInt8 {c : Char} (h : c.toNat < 128) : c.toUInt8.toNat = c.toNat :=
  Nat.mod_eq_of_lt (Nat.lt_trans h (by decide))

/-- Next comes a character of ASCII exactly if its byte comes next. -/
theorem leadByte_eq_iff {c d : Char} (hd : d.toNat < 128) : leadByte c = d.toUInt8 ↔ c = d := by
  constructor
  · intro h
    obtain ⟨more, hmore⟩ := utf8EncodeChar_eq_cons c
    have hb : leadByte c ∈ utf8EncodeChar c := by
      rw [hmore]
      exact List.mem_cons_self
    have hc : c.toNat < 128 := by
      refine toNat_lt_of_mem_utf8EncodeChar hb ?_
      rw [h, toNat_toUInt8 hd]
      exact hd
    have hlead : leadByte c = c.toUInt8 := by
      rw [leadByte, utf8EncodeChar_ascii hc]
      rfl
    have hnat := congrArg UInt8.toNat (hlead.symm.trans h)
    rw [toNat_toUInt8 hc, toNat_toUInt8 hd] at hnat
    exact Char.toNat_inj.mp hnat
  · rintro rfl
    rw [leadByte, utf8EncodeChar_ascii hd]
    rfl

/-! ## What is left at a position -/

/-- The characters `s` are what is left of the text after `i` bytes. -/
def Remains (text : String) (i : Nat) (s : List Char) : Prop :=
  ∃ before, text.toList = before ++ s ∧ (before.flatMap utf8EncodeChar).length = i

section Remains

variable {text : String} {i : Nat} {c : Char} {cs s : List Char}

theorem textBytes_eq (text : String) : textBytes text = text.toList.flatMap utf8EncodeChar :=
  ClassFile.toUTF8_toList text

theorem remains_zero (text : String) : Remains text 0 text.toList := ⟨[], rfl, rfl⟩

theorem Remains.append (h : Remains text i (cs ++ s)) :
    Remains text (i + (cs.flatMap utf8EncodeChar).length) s := by
  obtain ⟨before, htext, rfl⟩ := h
  refine ⟨before ++ cs, by rw [htext, List.append_assoc], ?_⟩
  rw [List.flatMap_append, List.length_append]

theorem Remains.tail (h : Remains text i (c :: s)) (hc : c.toNat < 128) :
    Remains text (i + 1) s := by
  have hnext : Remains text (i + ([c].flatMap utf8EncodeChar).length) s := h.append
  rwa [List.flatMap_singleton, utf8EncodeChar_ascii hc] at hnext

/-- The bytes that are left are those of the characters that are left. -/
theorem Remains.drop (h : Remains text i s) :
    (textBytes text).drop i = s.flatMap utf8EncodeChar := by
  obtain ⟨before, htext, rfl⟩ := h
  rw [textBytes_eq, htext, List.flatMap_append, List.drop_left]

theorem Remains.getElem?_cons (h : Remains text i (c :: s)) :
    (textBytes text)[i]? = some (leadByte c) := by
  obtain ⟨more, hmore⟩ := utf8EncodeChar_eq_cons c
  rw [← List.head?_drop, h.drop, List.flatMap_cons, hmore]
  rfl

theorem Remains.getElem?_nil (h : Remains text i []) : (textBytes text)[i]? = none := by
  rw [← List.head?_drop, h.drop]
  rfl

theorem Remains.length_le_iff (h : Remains text i s) : (textBytes text).length ≤ i ↔ s = [] := by
  rw [← List.drop_eq_nil_iff, h.drop]
  cases s <;> simp

theorem length_textBytes (text : String) : (textBytes text).length = text.utf8ByteSize := by
  unfold textBytes
  rw [String.toUTF8_eq_toByteArray, Array.length_toList, ByteArray.size_data,
    String.size_toByteArray]

/-- A position lies between characters if characters are left there. -/
theorem isValid_iff_remains : String.Pos.Raw.IsValid text ⟨i⟩ ↔ ∃ s, Remains text i s := by
  rw [String.Pos.Raw.isValid_iff_exists_append]
  constructor
  · rintro ⟨s₁, s₂, rfl, h⟩
    refine ⟨s₂.toList, s₁.toList, String.toList_append, ?_⟩
    rw [← textBytes_eq, length_textBytes]
    exact (congrArg String.Pos.Raw.byteIdx h).symm
  · rintro ⟨s, before, htext, h⟩
    refine ⟨String.ofList before, String.ofList s, ?_, ?_⟩
    · rw [← String.ofList_append, ← htext, String.ofList_toList]
    · have hbytes := textBytes_eq (String.ofList before)
      rw [String.toList_ofList] at hbytes
      rw [← h, ← hbytes, length_textBytes]
      rfl

theorem textBytes_inj {s t : String} (h : textBytes s = textBytes t) : s = t := by
  unfold textBytes at h
  exact String.toByteArray_inj.mp (ByteArray.ext (Array.toList_inj.mp h))

/-- Between two positions lie the characters by which they differ. -/
theorem Remains.extract_eq (h : Remains text i (cs ++ s)) {p q : text.Pos}
    (hp : p.offset.byteIdx = i)
    (hq : q.offset.byteIdx = i + (cs.flatMap utf8EncodeChar).length) :
    text.extract p q = String.ofList cs := by
  have hdrop := h.drop
  rw [List.flatMap_append] at hdrop
  have hbytes : textBytes (text.extract p q) =
      ((textBytes text).drop i).take (cs.flatMap utf8EncodeChar).length := by
    change (text.toByteArray.extract p.offset.byteIdx q.offset.byteIdx).data.toList = _
    rw [hp, hq, ByteArray.data_extract, Array.toList_extract, List.extract_eq_take_drop,
      Nat.add_sub_cancel_left]
    rfl
  apply textBytes_inj
  rw [hbytes, hdrop, List.take_left, textBytes_eq, String.toList_ofList]

end Remains

/-! ## Bytes of ASCII -/

/-- The byte of a character of ASCII comes next. -/
def AsciiAt (text : String) (i : Nat) : Prop := ∃ b, (textBytes text)[i]? = some b ∧ b.toNat < 128

/-- A byte of ASCII is a character. -/
theorem exists_remains_of_ascii {text : String} {i : Nat} (h : AsciiAt text i) :
    ∃ c s, Remains text i (c :: s) ∧ c.toNat < 128 := by
  obtain ⟨b, hb, hlt⟩ := h
  -- The position is looked for from the front, character by character.
  have hwalk : ∀ (l : List Char) (i : Nat), (l.flatMap utf8EncodeChar)[i]? = some b →
      ∃ before c s, l = before ++ c :: s ∧ (before.flatMap utf8EncodeChar).length = i ∧
        c.toNat < 128 := by
    intro l
    induction l with
    | nil => intro i hi; cases hi
    | cons c l ih =>
      intro i hi
      rw [List.flatMap_cons] at hi
      rcases Nat.lt_or_ge i (utf8EncodeChar c).length with hlen | hlen
      · rw [List.getElem?_append_left hlen] at hi
        have hc := toNat_lt_of_mem_utf8EncodeChar (List.mem_of_getElem? hi) hlt
        rw [utf8EncodeChar_ascii hc, List.length_singleton] at hlen
        exact ⟨[], c, l, rfl, (Nat.lt_one_iff.mp hlen).symm, hc⟩
      · rw [List.getElem?_append_right hlen] at hi
        obtain ⟨before, d, s, rfl, hlength, hd⟩ := ih _ hi
        refine ⟨c :: before, d, s, rfl, ?_, hd⟩
        rw [List.flatMap_cons, List.length_append, hlength]
        omega
  rw [textBytes_eq] at hb
  obtain ⟨before, c, s, htext, hlength, hc⟩ := hwalk _ _ hb
  exact ⟨c, s, ⟨before, htext, hlength⟩, hc⟩

theorem AsciiAt.isValid {text : String} {i : Nat} (h : AsciiAt text i) :
    String.Pos.Raw.IsValid text ⟨i⟩ := by
  obtain ⟨c, s, hs, -⟩ := exists_remains_of_ascii h
  exact isValid_iff_remains.mpr ⟨_, hs⟩

theorem AsciiAt.isValid_succ {text : String} {i : Nat} (h : AsciiAt text i) :
    String.Pos.Raw.IsValid text ⟨i + 1⟩ := by
  obtain ⟨c, s, hs, hc⟩ := exists_remains_of_ascii h
  exact isValid_iff_remains.mpr ⟨_, hs.tail hc⟩

end VirtualClasspath.Text
