import VirtualClasspath.Assembly.Write
import VirtualClasspath.Proofs.Assembly.Pool

/-!
# Annotations are read as they were written

`ElementSpec.mirror` and `AnnotationSpec.mirror` say what is left of a value and of an annotation when
it is read, `size` how many bytes it takes. `Fits` is the exact limit of both formats: tables whose
length has two bytes, and no more levels of values than a reader goes down.
-/

namespace VirtualClasspath.Assembly

open ClassFile (Pool Reader ElementValue AnnotationUse TypeAnnotationUse maxValueDepth)
open ClassFile.Reader

/-! ## What is read -/

mutual

/-- What a reader makes of a value. -/
def ElementSpec.mirror : ElementSpec → ElementValue
  | .int _ => .const 0x49
  | .string _ => .const 0x73
  | .enumConstant type name => .enumConstant type name
  | .classLiteral descriptor => .classLiteral descriptor
  | .nested value => .nested value.mirror
  | .array values => .array (mirrorValues values)

/-- What a reader makes of an annotation. -/
def AnnotationSpec.mirror : AnnotationSpec → AnnotationUse
  | ⟨type, elements⟩ => ⟨type, mirrorElements elements⟩

/-- What a reader makes of the elements of an annotation. -/
def mirrorElements : List (String × ElementSpec) → List (String × ElementValue)
  | [] => []
  | (name, value) :: rest => (name, value.mirror) :: mirrorElements rest

/-- What a reader makes of the values of an array. -/
def mirrorValues : List ElementSpec → List ElementValue
  | [] => []
  | value :: rest => value.mirror :: mirrorValues rest

end

mutual

/-- The number of bytes of a value. -/
def ElementSpec.size : ElementSpec → Nat
  | .enumConstant _ _ => 5
  | .nested value => 1 + value.size
  | .array values => 3 + sizeOfValues values
  | _ => 3

/-- The number of bytes of an annotation. -/
def AnnotationSpec.size : AnnotationSpec → Nat
  | ⟨_, elements⟩ => 4 + sizeOfElements elements

/-- The number of bytes of the elements of an annotation. -/
def sizeOfElements : List (String × ElementSpec) → Nat
  | [] => 0
  | (_, value) :: rest => 2 + value.size + sizeOfElements rest

/-- The number of bytes of the values of an array. -/
def sizeOfValues : List ElementSpec → Nat
  | [] => 0
  | value :: rest => value.size + sizeOfValues rest

end

/-- Values nest at most `room - 1` levels below the value, in tables of fewer than 65536 entries. -/
def ElementSpec.Fits : (room : Nat) → ElementSpec → Prop
  | 0, _ => False
  | room + 1, .nested a => a.elements.length < 65536 ∧ ∀ e ∈ a.elements, e.2.Fits room
  | room + 1, .array values => values.length < 65536 ∧ ∀ value ∈ values, value.Fits room
  | _ + 1, _ => True

/-- The values of an annotation nest at most `maxValueDepth` levels. -/
def AnnotationSpec.Fits (a : AnnotationSpec) : Prop :=
  a.elements.length < 65536 ∧ ∀ e ∈ a.elements, e.2.Fits maxValueDepth

/-! ## What is written -/

section Annotations

variable {P : Pool}

/-- Elements with values that are read as they were written are so themselves. -/
theorem ensures_elements {value : Reader ElementValue} {elements : List (String × ElementSpec)}
    (h : ∀ e ∈ elements, Ensures P e.2.write (Encodes value e.2.size e.2.mirror)) :
    Ensures P (writeElements elements)
      (Encodes (repeated (do
        let name ← P.readUtf8
        return (name, ← value)) elements.length) (sizeOfElements elements)
        (mirrorElements elements)) := by
  induction elements with
  | nil =>
    unfold writeElements sizeOfElements mirrorElements
    exact ensures_pure ⟨rfl, reads_pure []⟩
  | cons e rest ih =>
    obtain ⟨name, spec⟩ := e
    unfold writeElements sizeOfElements mirrorElements
    refine (ensures_utf8 name).bind fun i => (h _ List.mem_cons_self).bind fun c =>
      (ih fun e he => h e (List.mem_cons_of_mem _ he)).bind fun tail => ensures_pure ?_
    rintro htail hc ⟨hi, -⟩
    refine ⟨?_, ?_⟩
    · rw [List.length_append, List.length_append, hc.length, htail.length]
      rfl
    · exact ((reads_reference hi).bind (hc.reads.map _)).bind (htail.reads.map _)

theorem ensures_annotationWith {value : Reader ElementValue} {a : AnnotationSpec}
    (hl : a.elements.length < 65536)
    (h : ∀ e ∈ a.elements, Ensures P e.2.write (Encodes value e.2.size e.2.mirror)) :
    Ensures P a.write (Encodes (AnnotationUse.readWith P value) a.size a.mirror) := by
  obtain ⟨type, elements⟩ := a
  unfold AnnotationSpec.write AnnotationSpec.size AnnotationSpec.mirror
  refine (ensures_utf8 type).bind fun i => (ensures_elements h).bind fun c => ensures_pure ?_
  rintro hc ⟨hi, -⟩
  refine ⟨?_, ?_⟩
  · rw [List.length_append, hc.length]
    rfl
  · rw [List.append_assoc]
    exact (reads_reference hi).bind ((reads_table hc.reads hl).map _)

theorem ensures_values {value : Reader ElementValue} {values : List ElementSpec}
    (h : ∀ v ∈ values, Ensures P v.write (Encodes value v.size v.mirror)) :
    Ensures P (writeValues values)
      (Encodes (repeated value values.length) (sizeOfValues values) (mirrorValues values)) := by
  induction values with
  | nil =>
    unfold writeValues sizeOfValues mirrorValues
    exact ensures_pure ⟨rfl, reads_pure []⟩
  | cons v rest ih =>
    unfold writeValues sizeOfValues mirrorValues
    refine (h v List.mem_cons_self).bind fun c =>
      (ih fun w hw => h w (List.mem_cons_of_mem _ hw)).bind fun tail => ensures_pure ?_
    intro htail hc
    refine ⟨?_, hc.reads.bind (htail.reads.map _)⟩
    rw [List.length_append, hc.length, htail.length]

/-- Of a number or a text, the tag is read and the index is looked up. -/
theorem reads_const {room : Nat} {tag : UInt8} (htag : ClassFile.isConstTag tag = true) {i : UInt16}
    {c : ClassFile.Constant} (hi : P.get i = .ok c) :
    Reads (ElementValue.read P (room + 1)) (tag :: u2Bytes i) (.const tag) := by
  refine (reads_u1 tag).bind ?_
  rw [if_pos htag]
  exact (reads_u2 i).bind_nil ((reads_liftResult hi).bind_nil (reads_pure _))

/-- **A value is read as it was written**, if there is room for its levels. -/
theorem ensures_element {room : Nat} {e : ElementSpec} (h : e.Fits room) :
    Ensures P e.write (Encodes (ElementValue.read P room) e.size e.mirror) := by
  induction room generalizing e with
  | zero =>
    unfold ElementSpec.Fits at h
    exact absurd h id
  | succ room ih =>
    cases e with
    | int value =>
      unfold ElementSpec.write ElementSpec.size ElementSpec.mirror
      exact (ensures_add (.integer value)).bind fun i => ensures_pure fun ⟨hi, _⟩ =>
        ⟨rfl, reads_const rfl hi⟩
    | string text =>
      unfold ElementSpec.write ElementSpec.size ElementSpec.mirror
      exact (ensures_add (.utf8 text)).bind fun i => ensures_pure fun ⟨hi, _⟩ =>
        ⟨rfl, reads_const rfl hi⟩
    | enumConstant type name =>
      unfold ElementSpec.write ElementSpec.size ElementSpec.mirror
      refine (ensures_utf8 type).bind fun i => (ensures_utf8 name).bind fun j => ensures_pure ?_
      rintro ⟨hj, -⟩ ⟨hi, -⟩
      refine ⟨rfl, ?_⟩
      exact (reads_u1 0x65).bind ((reads_reference hi).bind ((reads_reference hj).map _))
    | classLiteral descriptor =>
      unfold ElementSpec.write ElementSpec.size ElementSpec.mirror
      refine (ensures_utf8 descriptor).bind fun i => ensures_pure fun ⟨hi, _⟩ => ⟨rfl, ?_⟩
      exact (reads_u1 0x63).bind ((reads_reference hi).map _)
    | nested a =>
      unfold ElementSpec.Fits at h
      unfold ElementSpec.write ElementSpec.size ElementSpec.mirror
      refine (ensures_annotationWith h.1 fun e he => ih (h.2 e he)).bind fun c =>
        ensures_pure fun hc => ⟨?_, (reads_u1 0x40).bind (hc.reads.map _)⟩
      rw [List.length_cons, hc.length, Nat.add_comm]
    | array values =>
      unfold ElementSpec.Fits at h
      unfold ElementSpec.write ElementSpec.size ElementSpec.mirror
      refine (ensures_values fun v hv => ih (h.2 v hv)).bind fun c =>
        ensures_pure fun hc => ⟨?_, (reads_u1 0x5b).bind ((reads_table hc.reads h.1).map _)⟩
      rw [List.length_append, hc.length]
      rfl

/-- **An annotation is read as it was written.** -/
theorem ensures_annotationSpec {a : AnnotationSpec} (h : a.Fits) :
    Ensures P a.write (Encodes (AnnotationUse.read P) a.size a.mirror) :=
  ensures_annotationWith h.1 fun e he => ensures_element (h.2 e he)

/-! ## Annotations on types -/

/-- A target that a reader knows. -/
def TargetKnown (target : UInt8) : Prop :=
  TypeAnnotationUse.isLocalTarget target = true ∨
    (TypeAnnotationUse.targetWidth? target).isSome = true

/-- What a reader makes of an annotation on a type. -/
def mirrorOnType (a : UInt8 × AnnotationSpec) : TypeAnnotationUse := ⟨a.1, a.2.mirror⟩

/-- The number of bytes of an annotation on a type. -/
def sizeOnType (a : UInt8 × AnnotationSpec) : Nat := 2 + (targetBytes a.1).length + a.2.size

/-- Where a reader knows how long a target is, so long it is written. -/
theorem targetLength_of_width {target : UInt8} {width : Nat}
    (h : TypeAnnotationUse.targetWidth? target = some width) : targetLength target = width := by
  -- a target is one byte, so the two tables can be compared row by row
  have htables : ∀ n < 256, ∀ w ∈ TypeAnnotationUse.targetWidth? (.ofNat n),
      targetLength (.ofNat n) = w := by decide +kernel
  have hrow := htables target.toNat target.toNat_lt width
  rw [UInt8.ofNat_toNat] at hrow
  exact hrow h

theorem reads_target {target : UInt8} (h : TargetKnown target) :
    Reads (TypeAnnotationUse.skipTarget target) (targetBytes target) () := by
  unfold TypeAnnotationUse.skipTarget targetBytes
  by_cases hlocal : target = 0x40 ∨ target = 0x41
  · have hreader : TypeAnnotationUse.isLocalTarget target = true := by
      simpa [TypeAnnotationUse.isLocalTarget] using hlocal
    rw [if_pos hreader, if_pos hlocal]
    exact (reads_u2 0).bind_nil (reads_skip rfl)
  · have hreader : ¬ TypeAnnotationUse.isLocalTarget target = true := by
      simpa [TypeAnnotationUse.isLocalTarget] using hlocal
    rw [if_neg hreader, if_neg hlocal]
    obtain ⟨width, hw⟩ := Option.isSome_iff_exists.mp (h.resolve_left hreader)
    rw [hw, targetLength_of_width hw]
    exact reads_skip List.length_replicate

theorem ensures_onType {a : UInt8 × AnnotationSpec} (ht : TargetKnown a.1) (h : a.2.Fits) :
    Ensures P (writeOnType a) (Encodes (TypeAnnotationUse.read P) (sizeOnType a) (mirrorOnType a)) := by
  refine (ensures_annotationSpec h).bind fun c => ensures_pure fun hc => ⟨?_, ?_⟩
  · unfold sizeOnType
    simp only [List.length_cons, List.length_append, hc.length]
    omega
  · -- no step of a path is written
    have hpath : Reads (skip ((0 : UInt8).toNat * 2)) [] () := reads_skip rfl
    exact (reads_u1 a.1).bind ((reads_target ht).bind
      ((reads_u1 0).bind (hpath.bind (hc.reads.map _))))

end Annotations

end VirtualClasspath.Assembly
