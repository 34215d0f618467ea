import VirtualClasspath.Proofs.Assembly.Member

/-!
# Classes are read as they were written

`ClassSpec.mirror` is the class that a description stands for, field by field, and `ClassSpec.Fits`
the limits of the format: what the pool and the tables have room for, and raw attributes whose names
the reader does not know.

**`parse_bytes`**: the class file of a description that fits is parsed as the class that it describes.
-/

namespace VirtualClasspath.Assembly

open ClassFile (Pool Reader Attribute InnerClass Member maxAttributeDepth)
open ClassFile.Reader

section Classes

variable {P : Pool}

/-! ## The attributes of a class -/

/-- What a reader makes of an entry of the table of nested classes. -/
def InnerClassSpec.mirror (e : InnerClassSpec) : InnerClass := ⟨e.inner, e.outer, e.name, e.access⟩

theorem ensures_innerClass (e : InnerClassSpec) :
    Ensures P e.write (Encodes (Attribute.readInnerClass P) 8 e.mirror) := by
  refine (ensures_classRef e.inner).bind fun inner => (ensures_classRef? e.outer).bind fun outer =>
    (ensures_utf8? e.name).bind fun name => ensures_pure ?_
  rintro hname houter ⟨hinner, -⟩
  refine ⟨rfl, ?_⟩
  simp only [List.append_assoc]
  exact (reads_reference hinner).bind ((reads_reference houter).bind ((reads_reference hname).bind
    ((reads_u2 e.access).map _)))

theorem ensures_innerClasses (room : Nat) {l : List InnerClassSpec} (hl : l.length < 65536) :
    Ensures P (tableAttribute "InnerClasses" InnerClassSpec.write l)
      (AttributesEncode P (Attribute.parse P (room + 1))
        (unlessEmpty l (6 + (2 + (l.map fun _ => 8).sum))).sum
        (unlessEmpty l (.innerClasses (l.map InnerClassSpec.mirror)))) := by
  have hsize : 2 + (l.map fun _ => 8).sum < 4294967296 := by
    rw [sum_map_const]
    omega
  exact ensures_tableAttribute rfl hl (fun e _ => ensures_innerClass e) hsize

theorem ensures_enclosing (e : String × Option (String × String)) :
    Ensures P (writeEnclosing e)
      (Encodes (Attribute.readEnclosingMethod P) 4 (.enclosingMethod e.1 e.2)) := by
  obtain ⟨owner, method⟩ := e
  cases method with
  | none =>
    refine (ensures_classRef owner).bind fun i => ensures_pure fun ⟨hi, _⟩ => ⟨rfl, ?_⟩
    refine (reads_reference hi).bind ((reads_u2 0).bind_nil ?_)
    rw [if_pos rfl]
    exact reads_pure _
  | some m =>
    refine (ensures_classRef owner).bind fun i => (ensures_nameAndType m.1 m.2).bind fun j =>
      ensures_pure ?_
    -- an index of 0 would be read as no method
    rintro ⟨hj, h0⟩ ⟨hi, -⟩
    refine ⟨rfl, (reads_reference hi).bind ((reads_u2 j).bind_nil ?_)⟩
    rw [if_neg h0]
    exact (reads_liftResult hj).map _

/-- The class, and the method, that a class is declared in. -/
theorem ensures_enclosingMethod (room : Nat) (o : Option (String × Option (String × String))) :
    Ensures P (optionalAttribute "EnclosingMethod" writeEnclosing o)
      (AttributesEncode P (Attribute.parse P (room + 1)) (o.elim 0 fun _ => 10)
        (o.toList.map fun e => .enclosingMethod e.1 e.2)) := by
  cases o with
  | none => exact ensures_pure .nil
  | some e => exact ensures_attribute rfl (ensures_enclosing e) (by decide)

/-- A raw attribute that a reader passes over. -/
def RawFits (raw : String × Bytes) : Prop :=
  raw.1 ∉ knownAttributes ∧ raw.2.length < 4294967296

theorem ensures_raw (room : Nat) {l : List (String × Bytes)} (h : ∀ raw ∈ l, RawFits raw) :
    Ensures P (writeRaw l)
      (AttributesEncode P (Attribute.parse P (room + 1)) (l.map fun raw => 6 + raw.2.length).sum
        (l.map fun raw => .other raw.1 raw.2.length)) := by
  induction l with
  | nil => exact ensures_pure .nil
  | cons raw rest ih =>
    obtain ⟨name, body⟩ := raw
    obtain ⟨hname, hbody⟩ := h _ List.mem_cons_self
    have hparse : Attribute.parse P (room + 1) name body = .ok (.other name body.length) := by
      unfold Attribute.parse
      rw [bodyReader?_eq_none hname]
    refine (ensures_attributeBytes (Attribute.parse P (room + 1)) name body).bind fun c =>
      (ih fun raw hraw => h raw (List.mem_cons_of_mem _ hraw)).bind fun cs => ensures_pure ?_
    intro hrest hattribute
    exact (hattribute _ hbody hparse).append hrest

/-- The attributes of a class as they are read. -/
def ClassSpec.mirrorAttributes (c : ClassSpec) : List Attribute :=
  c.signature.toList.map .signature ++
    unlessEmpty c.innerClasses (.innerClasses (c.innerClasses.map InnerClassSpec.mirror)) ++
    (c.enclosingMethod.toList.map fun e => .enclosingMethod e.1 e.2) ++ c.annotations.mirror ++
    c.rawAttributes.map fun raw => .other raw.1 raw.2.length

/-! ## Classes -/

/-- The pool of a class that was written. -/
def ClassSpec.draft (c : ClassSpec) : PoolDraft := (c.body.run .empty).2

/-- The class that a description stands for. -/
def ClassSpec.mirror (c : ClassSpec) : ClassFile where
  minor := 0
  major := majorVersion
  access := c.access
  thisClass := c.name
  superClass := c.superClass
  interfaces := c.interfaces
  fields := c.fields.map FieldSpec.mirror
  methods := c.methods.map MethodSpec.mirror
  attributes := c.mirrorAttributes
  pool := c.draft.pool

/-- Everything after the pool fits its tables and attributes. -/
structure ClassSpec.BodyFits (P : Pool) (c : ClassSpec) : Prop where
  interfaces : c.interfaces.length < 65536
  fields_length : c.fields.length < 65536
  fields : ∀ f ∈ c.fields, f.annotations.Fits
  methods_length : c.methods.length < 65536
  methods : ∀ m ∈ c.methods, m.Fits P
  innerClasses : c.innerClasses.length < 65536
  annotations : c.annotations.Fits
  raw : ∀ raw ∈ c.rawAttributes, RawFits raw
  attributes_length : c.mirrorAttributes.length < 65536

/-- A class that the format has room for: its pool has at most 65534 slots besides the one for 0,
with texts whose length has two bytes. -/
structure ClassSpec.Fits (c : ClassSpec) : Prop where
  slots : (slotsOf c.draft.entries).length < 65536
  texts : ∀ e ∈ c.draft.entries, e.1.textLength < 65536
  body : c.BodyFits c.draft.pool

/-- What follows the pool. -/
def readBody (P : Pool) : Reader ClassFile := do
  let access ← u2
  let thisClass ← P.readClassName
  let superClass ← P.readClassName?
  let interfaces ← table P.readClassName
  let fields ← table (Member.read P)
  let methods ← table (Member.read P)
  let attributes ← Attribute.readAll P
  return {
    minor := 0, major := majorVersion, access, thisClass, superClass, interfaces, fields, methods,
    attributes, pool := P }

theorem ensures_classAttributes (room : Nat) {c : ClassSpec} (h : c.BodyFits P) :
    Ensures P c.attributes fun cs =>
      ∃ n, AttributesEncode P (Attribute.parse P (room + 1)) n c.mirrorAttributes cs :=
  (ensures_signature room c.signature).bind fun _ =>
  (ensures_innerClasses room h.innerClasses).bind fun _ =>
  (ensures_enclosingMethod room c.enclosingMethod).bind fun _ =>
  (ensures_annotationSet room h.annotations).bind fun _ =>
  (ensures_raw room h.raw).bind fun _ =>
  ensures_pure fun hraw hannotations henclosing hinnerClasses hsignature =>
    ⟨_, (((hsignature.append hinnerClasses).append henclosing).append hannotations).append hraw⟩

/-- **What follows the pool is read as it was written.** -/
theorem ensures_body {c : ClassSpec} (h : c.BodyFits P) :
    Ensures P c.body fun bytes => Reads (readBody P) bytes { c.mirror with pool := P } := by
  have hname : ∀ name ∈ c.interfaces, Ensures P (classBytes name) fun bytes =>
      Reads P.readClassName bytes (id name) := fun name _ =>
    (ensures_classRef name).bind fun i => ensures_pure fun ⟨hi, _⟩ => reads_reference hi
  have hinterfaces := ensures_table_reads h.interfaces hname
  have hfields : Ensures P (Writer.table FieldSpec.write c.fields) fun bytes =>
      Reads (table (Member.read P)) bytes (c.fields.map FieldSpec.mirror) :=
    ensures_table_reads h.fields_length fun f hf => ensures_field (h.fields f hf)
  have hmethods := ensures_table_reads h.methods_length fun m hm => ensures_method (h.methods m hm)
  rw [List.map_id] at hinterfaces
  refine (ensures_classRef c.name).bind fun name => (ensures_classRef? c.superClass).bind
    fun superClass => hinterfaces.bind fun interfaces => hfields.bind fun fields =>
    hmethods.bind fun methods =>
    (ensures_classAttributes maxAttributeDepth h).bind fun attributes => ensures_pure ?_
  rintro ⟨n, hattributes⟩ hmethods hfields hinterfaces hsuper ⟨hname, -⟩
  simp only [List.append_assoc]
  exact (reads_u2 c.access).bind ((reads_reference hname).bind ((reads_reference hsuper).bind
    (hinterfaces.bind (hfields.bind (hmethods.bind
      ((hattributes.table h.attributes_length).reads.map _))))))

/-- **A class is parsed as it was written.** -/
theorem parse_bytes {c : ClassSpec} (h : c.Fits) : ClassFile.parse c.bytes = .ok c.mirror := by
  obtain ⟨hnumbered, hbody⟩ := ensures_body h.body .empty
  have hdraft : c.draft.Numbered := hnumbered numbered_empty
  have hholds := holds_pool hdraft (Nat.le_of_lt h.slots)
  have hreads := (hbody hholds).2
  have hpool := reads_pool hdraft h.slots h.texts
  have hmagic : Reads ClassFile.readMagic (u4Bytes ClassFile.magic) () := by
    refine (reads_u4 ClassFile.magic).bind_nil ?_
    rw [if_pos rfl]
    exact reads_pure ()
  have hall : Reads ClassFile.read c.bytes c.mirror := by
    unfold ClassSpec.bytes
    simp only [List.append_assoc]
    exact hmagic.bind ((reads_u2 0).bind ((reads_u2 majorVersion).bind (hpool.bind hreads)))
  have hwhole := hall []
  rw [List.append_nil] at hwhole
  unfold ClassFile.parse
  rw [hwhole]

/-- A class whose pool has a number of two slots, with a switch, annotations that nest and a raw
attribute. -/
def sample : ClassSpec where
  name := "p/A"
  interfaces := ["p/I"]
  fields := [{ name := "f", descriptor := "J" }]
  methods := [{
    name := "m"
    descriptor := "()V"
    code := some {
      ops := [.loadLong 7, .tableSwitch 0 1, .loadClass "p/B", .raw [0x10, 0x05]]
      handlers := [none] } }]
  innerClasses := [⟨"p/A", some "p/O", none, accPublic⟩]
  annotations := { visible := [⟨"Lp/N;", [("v", .array [.nested ⟨"Lp/M;", []⟩])]⟩] }
  rawAttributes := [("Custom", [1, 2, 3])]

theorem AnnotationSet.fits_empty : AnnotationSet.Fits {} where
  visible_length := by decide
  visible := List.forall_mem_nil _
  visible_size := by decide
  onTypes_length := by decide
  onTypes := List.forall_mem_nil _
  onTypes_size := by decide

theorem sample_fits : sample.Fits where
  slots := by decide +kernel
  texts := by decide +kernel
  body := {
    interfaces := by decide
    fields_length := by decide
    fields := List.forall_mem_singleton.mpr AnnotationSet.fits_empty
    methods_length := by decide
    methods := List.forall_mem_singleton.mpr {
      exceptions := by decide
      code := by
        rintro c ⟨⟩
        have hbounds : (0 : Int32) ≤ 1 := by decide
        have hlayout : ClassFile.Layout.of? 0x10 = some (.plain 1) := rfl
        have hoperands : ∀ offset, Operands sample.draft.pool offset (.plain 1) [0x05] :=
          fun _ => .plain rfl
        have hraw : ∀ offset, Silent sample.draft.pool offset [0x10, 0x05] := fun offset =>
          .cons hlayout (hoperands offset) .nil
        have hops : OpsFit sample.draft.pool 0
            [.loadLong 7, .tableSwitch 0 1, .loadClass "p/B", .raw [0x10, 0x05]] :=
          ⟨trivial, hbounds, trivial, hraw _, trivial⟩
        exact {
          ops := hops
          codeSize := by decide +kernel
          handlers := by decide
          locals := by decide
          localTypes := by decide
          annotations := AnnotationSet.fits_empty
          size := by decide +kernel }
      annotations := AnnotationSet.fits_empty
      parameters_length := by decide
      parameters := List.forall_mem_nil _
      parameters_size := by decide
      default := nofun
      default_size := nofun }
    innerClasses := by decide
    annotations := {
      visible_length := by decide
      visible := List.forall_mem_singleton.mpr
        ⟨by decide, List.forall_mem_singleton.mpr ⟨by decide, List.forall_mem_singleton.mpr
          ⟨by decide, List.forall_mem_nil _⟩⟩⟩
      visible_size := by decide +kernel
      onTypes_length := by decide
      onTypes := List.forall_mem_nil _
      onTypes_size := by decide }
    raw := List.forall_mem_singleton.mpr ⟨by decide, by decide⟩
    attributes_length := by decide +kernel }

theorem parse_bytes_sample : sample.Fits ∧ ClassFile.parse sample.bytes = .ok sample.mirror :=
  ⟨sample_fits, parse_bytes sample_fits⟩

end Classes

end VirtualClasspath.Assembly
