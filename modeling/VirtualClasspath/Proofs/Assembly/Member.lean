import VirtualClasspath.Proofs.Assembly.Attributes

/-!
# Members are read as they were written

`FieldSpec.mirror` and `MethodSpec.mirror` are what a reader makes of a field and of a method: its
attributes come in the order in which they are written, and a list that is empty makes none. `Fits`
asks for no more than that the numbers that stand before the tables and bodies have room.
-/

namespace VirtualClasspath.Assembly

open ClassFile (Pool Reader Attribute AnnotationUse Member maxAttributeDepth maxValueDepth)
open ClassFile.Reader

section Members

variable {P : Pool} {room : Nat}

/-! ## The attributes of a method -/

theorem ensures_signature (room : Nat) (o : Option String) :
    Ensures P (optionalAttribute "Signature" signatureBytes o)
      (AttributesEncode P (Attribute.parse P (room + 1)) (o.elim 0 fun _ => 8)
        (o.toList.map .signature)) := by
  have hwrite : ∀ text ∈ o, Ensures P (signatureBytes text) (Encodes P.readUtf8 2 text) :=
    fun text _ => (ensures_utf8 text).bind fun i => ensures_pure fun ⟨hi, _⟩ =>
      ⟨rfl, reads_reference hi⟩
  exact ensures_optional rfl hwrite fun _ _ => by decide

theorem ensures_exceptions (room : Nat) {l : List String} (hl : l.length < 65536) :
    Ensures P (tableAttribute "Exceptions" classBytes l)
      (AttributesEncode P (Attribute.parse P (room + 1))
        (unlessEmpty l (6 + (2 + (l.map fun _ => 2).sum))).sum (unlessEmpty l (.exceptions l))) := by
  have hwrite : ∀ name ∈ l, Ensures P (classBytes name) (Encodes P.readClassName 2 (id name)) :=
    fun name _ => (ensures_classRef name).bind fun i => ensures_pure fun ⟨hi, _⟩ =>
      ⟨rfl, reads_reference hi⟩
  have hsize : 2 + (l.map fun _ => 2).sum < 4294967296 := by
    rw [sum_map_const]
    omega
  have htable : Ensures P (tableAttribute "Exceptions" classBytes l)
      (AttributesEncode P (Attribute.parse P (room + 1))
        (unlessEmpty l (6 + (2 + (l.map fun _ => 2).sum))).sum
        (unlessEmpty l (.exceptions (l.map id)))) :=
    ensures_tableAttribute rfl hl hwrite hsize
  rw [List.map_id] at htable
  exact htable

/-- The number of bytes of the annotations of parameters. -/
def sizeOfParameters (l : List (List AnnotationSpec)) : Nat :=
  1 + (l.map fun annotations => 2 + (annotations.map AnnotationSpec.size).sum).sum

theorem ensures_parameters {l : List (List AnnotationSpec)} (hl : l.length < 256)
    (h : ∀ annotations ∈ l, annotations.length < 65536 ∧ ∀ a ∈ annotations, a.Fits) :
    Ensures P (writeParameters l) (Encodes (Attribute.readParameters P) (sizeOfParameters l)
      (l.map fun annotations => annotations.map AnnotationSpec.mirror)) := by
  have hparameter : ∀ annotations ∈ l, Ensures P (Writer.table AnnotationSpec.write annotations)
      (Encodes (Reader.table (AnnotationUse.read P))
        (2 + (annotations.map AnnotationSpec.size).sum) (annotations.map AnnotationSpec.mirror)) :=
    fun annotations hmem => ensures_table (h annotations hmem).1 fun a ha =>
      ensures_annotationSpec ((h annotations hmem).2 a ha)
  refine (ensures_each hparameter).bind fun c => ensures_pure fun hc => ⟨?_, ?_⟩
  · rw [List.length_cons, hc.length, Nat.add_comm]
    rfl
  · have hcount : (UInt8.ofNat l.length).toNat = l.length := UInt8.toNat_ofNat_of_lt' hl
    have hreads := hc.reads
    rw [← hcount] at hreads
    exact (reads_u1 _).bind hreads

/-! ## Fields -/

/-- The attributes of a field as they are read. -/
def FieldSpec.mirrorAttributes (f : FieldSpec) : List Attribute :=
  f.signature.toList.map .signature ++ f.annotations.mirror

/-- What a reader makes of a field. -/
def FieldSpec.mirror (f : FieldSpec) : Member where
  access := accPublic
  name := f.name
  descriptor := f.descriptor
  attributes := f.mirrorAttributes

/-- A member is read as it was written, if its attributes are. -/
theorem ensures_member (name descriptor : String) {attributes : Writer (List Bytes)} {n : Nat}
    {as : List Attribute} (hl : as.length < 65536)
    (h : Ensures P attributes
      (AttributesEncode P (Attribute.parse P (maxAttributeDepth + 1)) n as)) :
    Ensures P (memberBytes name descriptor attributes) fun c =>
      Reads (Member.read P) c ⟨accPublic, name, descriptor, as⟩ := by
  refine (ensures_utf8 name).bind fun i => (ensures_utf8 descriptor).bind fun j =>
    h.bind fun cs => ensures_pure ?_
  rintro hcs ⟨hj, -⟩ ⟨hi, -⟩
  simp only [List.append_assoc]
  exact (reads_u2 accPublic).bind ((reads_reference hi).bind ((reads_reference hj).bind
    ((hcs.table hl).reads.map _)))

theorem length_map_toList_le {α β : Type} (o : Option α) (f : α → β) :
    (o.toList.map f).length ≤ 1 := by
  rw [List.length_map]
  exact Option.length_toList_le

/-- **A field is read as it was written.** -/
theorem ensures_field {f : FieldSpec} (h : f.annotations.Fits) :
    Ensures P f.write fun c => Reads (Member.read P) c f.mirror := by
  have hl : f.mirrorAttributes.length < 65536 := by
    have hsignature := length_map_toList_le f.signature Attribute.signature
    have hannotations := f.annotations.length_mirror_le
    unfold FieldSpec.mirrorAttributes
    rw [List.length_append]
    omega
  exact ensures_member f.name f.descriptor hl <|
    (ensures_signature maxAttributeDepth f.signature).bind fun _ =>
    (ensures_annotationSet maxAttributeDepth h).bind fun _ => ensures_pure
      fun hannotations hsignature => hsignature.append hannotations

/-! ## Methods -/

/-- A method that fits its tables and attributes. -/
structure MethodSpec.Fits (P : Pool) (m : MethodSpec) : Prop where
  exceptions : m.exceptions.length < 65536
  code : ∀ c ∈ m.code, c.Fits P
  annotations : m.annotations.Fits
  parameters_length : m.parameterAnnotations.length < 256
  parameters : ∀ l ∈ m.parameterAnnotations, l.length < 65536 ∧ ∀ a ∈ l, a.Fits
  parameters_size : sizeOfParameters m.parameterAnnotations < 4294967296
  default : ∀ e ∈ m.annotationDefault, e.Fits (maxValueDepth + 1)
  default_size : ∀ e ∈ m.annotationDefault, e.size < 4294967296

/-- The attributes of a method as they are read. -/
def MethodSpec.mirrorAttributes (m : MethodSpec) : List Attribute :=
  m.signature.toList.map .signature ++ unlessEmpty m.exceptions (.exceptions m.exceptions) ++
    (m.code.toList.map fun c => .code c.mirror) ++ m.annotations.mirror ++
    unlessEmpty m.parameterAnnotations (.parameterAnnotations true
      (m.parameterAnnotations.map fun annotations => annotations.map AnnotationSpec.mirror)) ++
    m.annotationDefault.toList.map fun e => .annotationDefault e.mirror

/-- What a reader makes of a method. -/
def MethodSpec.mirror (m : MethodSpec) : Member where
  access := accPublic
  name := m.name
  descriptor := m.descriptor
  attributes := m.mirrorAttributes

theorem MethodSpec.length_mirrorAttributes_le (m : MethodSpec) : m.mirrorAttributes.length ≤ 7 := by
  have hsignature := length_map_toList_le m.signature Attribute.signature
  have hexceptions := length_unlessEmpty_le m.exceptions (Attribute.exceptions m.exceptions)
  have hcode := length_map_toList_le m.code fun c => Attribute.code c.mirror
  have hannotations := m.annotations.length_mirror_le
  have hparameters := length_unlessEmpty_le m.parameterAnnotations
    (Attribute.parameterAnnotations true
      (m.parameterAnnotations.map fun annotations => annotations.map AnnotationSpec.mirror))
  have hdefault := length_map_toList_le m.annotationDefault fun e =>
    Attribute.annotationDefault e.mirror
  unfold MethodSpec.mirrorAttributes
  simp only [List.length_append]
  omega

/-- **A method is read as it was written.** -/
theorem ensures_method {m : MethodSpec} (h : m.Fits P) :
    Ensures P m.write fun c => Reads (Member.read P) c m.mirror := by
  have hl := Nat.lt_of_le_of_lt m.length_mirrorAttributes_le (by decide : 7 < 65536)
  exact ensures_member m.name m.descriptor hl <|
    (ensures_signature maxAttributeDepth m.signature).bind fun _ =>
    (ensures_exceptions maxAttributeDepth h.exceptions).bind fun _ =>
    (ensures_optional rfl (fun c hc => ensures_code (h.code c hc))
      fun c hc => (h.code c hc).size).bind fun _ =>
    (ensures_annotationSet maxAttributeDepth h.annotations).bind fun _ =>
    (ensures_unlessEmpty rfl (ensures_parameters h.parameters_length h.parameters)
      h.parameters_size).bind fun _ =>
    (ensures_optional rfl (fun e he => ensures_element (h.default e he)) h.default_size).bind
      fun _ => ensures_pure fun hdefault hparameters hannotations hcode hexceptions hsignature =>
        ((((hsignature.append hexceptions).append hcode).append hannotations).append
          hparameters).append hdefault

end Members

end VirtualClasspath.Assembly
