import Mathlib.Data.List.Forall2
import VirtualClasspath.Assembly.Write
import VirtualClasspath.ClassFile.Attribute
import VirtualClasspath.Proofs.Assembly.Annotations
import VirtualClasspath.Proofs.Assembly.Code

/-!
# Attributes are read as they were written

The attributes of a class, a member or a method body are written one by one and read as a table.
`AttributesEncode` says that a list of written attributes is read as a list of attributes, and how
many bytes they are. `ensures_attribute` states it once for an attribute of which the body is read as
it was written, `AttributesEncode.append` and `AttributesEncode.table` put the lists together. On top
of these stand `ensures_annotationSet`, for the annotations of any declaration, and `ensures_code`, for
a method body with its own attributes.
-/

namespace VirtualClasspath.Assembly

open ClassFile (Pool Reader Attribute Instruction Handler LocalVariable Code Fault)
open ClassFile.Reader

/-! ## Reading one attribute -/

/-- The names of the attributes that a reader knows. -/
def knownAttributes : List String :=
  ["Signature", "Exceptions", "Code", "InnerClasses", "EnclosingMethod",
    "RuntimeVisibleAnnotations", "RuntimeInvisibleAnnotations",
    "RuntimeVisibleParameterAnnotations", "RuntimeInvisibleParameterAnnotations",
    "RuntimeVisibleTypeAnnotations", "RuntimeInvisibleTypeAnnotations", "AnnotationDefault",
    "LocalVariableTable", "LocalVariableTypeTable", "Record"]

/-- One attribute of a table. -/
def attributeReader (P : Pool) (parse : String → Bytes → Except Fault Attribute) :
    Reader Attribute := do
  let name ← P.readUtf8
  let length ← u4
  let body ← take length.toNat
  liftResult (parse name body)

/-- The written attributes `cs` are `n` bytes, from which the attributes `as` are read. -/
structure AttributesEncode (P : Pool) (parse : String → Bytes → Except Fault Attribute) (n : Nat)
    (as : List Attribute) (cs : List Bytes) : Prop where
  length : cs.flatten.length = n
  reads : List.Forall₂ (Reads (attributeReader P parse)) cs as

section Attributes

variable {P : Pool} {parse : String → Bytes → Except Fault Attribute} {room : Nat}

theorem bodyReader?_eq_none {nested : Reader (List Attribute)} {name : String}
    (h : name ∉ knownAttributes) : Attribute.bodyReader? P nested name = none := by
  unfold Attribute.bodyReader?
  split
  all_goals first
    | rfl
    | exact absurd (by decide) h

/-- A body that is used up by the reader for its name. -/
theorem parse_of_reads {name : String} {body : Bytes} {reader : Reader Attribute} {a : Attribute}
    (hr : Attribute.bodyReader? P (Attribute.readTable P (Attribute.parse P room)) name =
      some reader) (h : Reads reader body a) :
    Attribute.parse P (room + 1) name body = .ok a := by
  have hbody := h []
  rw [List.append_nil] at hbody
  unfold Attribute.parse
  rw [hr]
  dsimp only
  rw [hbody]

theorem AttributesEncode.nil : AttributesEncode P parse 0 [] [] := ⟨rfl, .nil⟩

theorem AttributesEncode.append {m n : Nat} {as bs : List Attribute} {cs ds : List Bytes}
    (h : AttributesEncode P parse m as cs) (h' : AttributesEncode P parse n bs ds) :
    AttributesEncode P parse (m + n) (as ++ bs) (cs ++ ds) where
  length := by rw [List.flatten_append, List.length_append, h.length, h'.length]
  reads := List.rel_append h.reads h'.reads

/-- A table of attributes is read as they were written. -/
theorem AttributesEncode.table {n : Nat} {as : List Attribute} {cs : List Bytes}
    (h : AttributesEncode P parse n as cs) (hl : as.length < 65536) :
    Encodes (Attribute.readTable P parse) (2 + n) as (attributeTable cs) where
  length := by
    unfold attributeTable
    rw [List.length_append, h.length]
    rfl
  reads := by
    have hall : Reads (repeated (attributeReader P parse) cs.length) cs.flatten as := by
      have hreads := h.reads
      clear h hl
      induction hreads with
      | nil => exact reads_pure []
      | cons hr _ ih => exact hr.bind (ih.map _)
    exact reads_table hall (h.reads.length_eq ▸ hl)

theorem ensures_attributeBytes (parse : String → Bytes → Except Fault Attribute) (name : String)
    (body : Bytes) : Ensures P (attributeBytes name body) fun c =>
      ∀ a, body.length < 4294967296 → parse name body = .ok a →
        AttributesEncode P parse (6 + body.length) [a] [c] := by
  refine (ensures_utf8 name).bind fun i => ensures_pure ?_
  rintro ⟨hi, -⟩ a hl hp
  refine ⟨?_, .cons ?_ .nil⟩
  · simp only [List.flatten_cons, List.flatten_nil, List.append_nil, List.length_append,
      length_u2Bytes, length_u4Bytes]
  · have hlen : (UInt32.ofNat body.length).toNat = body.length := UInt32.toNat_ofNat_of_lt' hl
    rw [List.append_assoc]
    exact (reads_reference hi).bind ((reads_u4 _).bind
      ((reads_take hlen.symm).bind_nil (reads_liftResult hp)))

/-! ## Attributes of one form -/

/-- One element, unless `l` is empty. -/
def unlessEmpty {α β : Type} (l : List α) (b : β) : List β := if l.isEmpty then [] else [b]

theorem length_unlessEmpty_le {α β : Type} (l : List α) (b : β) : (unlessEmpty l b).length ≤ 1 := by
  unfold unlessEmpty
  split
  · exact Nat.zero_le 1
  · exact Nat.le_refl 1

section Form

variable {α β : Type} {name : String} {reader : Reader β} {mk : β → Attribute}

/-- An attribute with a body that is read as it was written. -/
theorem ensures_attribute {write : α → Writer Bytes} {reader : Reader Attribute}
    (hr : Attribute.bodyReader? P (Attribute.readTable P (Attribute.parse P room)) name = some reader)
    {a : α} {n : Nat} {b : Attribute} (hw : Ensures P (write a) (Encodes reader n b))
    (hs : n < 4294967296) :
    Ensures P (optionalAttribute name write (some a))
      (AttributesEncode P (Attribute.parse P (room + 1)) (6 + n) [b]) := by
  refine hw.bind fun body =>
    (ensures_attributeBytes (Attribute.parse P (room + 1)) name body).bind fun c => ensures_pure ?_
  intro hattribute hbody
  have hl : body.length < 4294967296 := hbody.length ▸ hs
  have hparse := parse_of_reads hr hbody.reads
  have hencodes := hattribute _ hl hparse
  rw [hbody.length] at hencodes
  exact hencodes

/-- An attribute that is there or not. -/
theorem ensures_optional {write : α → Writer Bytes} {size : α → Nat} {mirror : α → β}
    (hr : Attribute.bodyReader? P (Attribute.readTable P (Attribute.parse P room)) name =
      some (do return mk (← reader))) {o : Option α}
    (hw : ∀ a ∈ o, Ensures P (write a) (Encodes reader (size a) (mirror a)))
    (hs : ∀ a ∈ o, size a < 4294967296) :
    Ensures P (optionalAttribute name write o)
      (AttributesEncode P (Attribute.parse P (room + 1)) (o.elim 0 fun a => 6 + size a)
        (o.toList.map fun a => mk (mirror a))) := by
  cases o with
  | none => exact ensures_pure .nil
  | some a => exact ensures_attribute hr ((hw a rfl).imp fun _ hc => hc.map mk) (hs a rfl)

/-- An attribute that is there if a list has elements. -/
theorem ensures_unlessEmpty {write : List α → Writer Bytes}
    (hr : Attribute.bodyReader? P (Attribute.readTable P (Attribute.parse P room)) name =
      some (do return mk (← reader))) {l : List α} {n : Nat} {b : β}
    (hw : Ensures P (write l) (Encodes reader n b)) (hs : n < 4294967296) :
    Ensures P (optionalAttribute name write (if l.isEmpty then none else some l))
      (AttributesEncode P (Attribute.parse P (room + 1)) (unlessEmpty l (6 + n)).sum
        (unlessEmpty l (mk b))) := by
  unfold unlessEmpty
  cases l.isEmpty with
  | true => exact ensures_pure .nil
  | false => exact ensures_attribute hr (hw.imp fun _ hc => hc.map mk) hs

/-- An attribute that holds a table, and is there if the table has entries. -/
theorem ensures_tableAttribute {γ : Type} {entry : Reader γ} {mk : List γ → Attribute}
    {write : α → Writer Bytes} {size : α → Nat} {mirror : α → γ}
    (hr : Attribute.bodyReader? P (Attribute.readTable P (Attribute.parse P room)) name =
      some (do return mk (← table entry))) {l : List α} (hl : l.length < 65536)
    (hw : ∀ a ∈ l, Ensures P (write a) (Encodes entry (size a) (mirror a)))
    (hs : 2 + (l.map size).sum < 4294967296) :
    Ensures P (tableAttribute name write l)
      (AttributesEncode P (Attribute.parse P (room + 1))
        (unlessEmpty l (6 + (2 + (l.map size).sum))).sum (unlessEmpty l (mk (l.map mirror)))) :=
  ensures_unlessEmpty hr (ensures_table hl hw) hs

end Form

/-! ## Annotations -/

/-- The annotations of a declaration fit their tables and attributes. -/
structure AnnotationSet.Fits (s : AnnotationSet) : Prop where
  visible_length : s.visible.length < 65536
  visible : ∀ a ∈ s.visible, a.Fits
  visible_size : 2 + (s.visible.map AnnotationSpec.size).sum < 4294967296
  onTypes_length : s.onTypes.length < 65536
  onTypes : ∀ a ∈ s.onTypes, TargetKnown a.1 ∧ a.2.Fits
  onTypes_size : 2 + (s.onTypes.map sizeOnType).sum < 4294967296

/-- The attributes that the annotations of a declaration are read as. -/
def AnnotationSet.mirror (s : AnnotationSet) : List Attribute :=
  unlessEmpty s.visible (.annotations true (s.visible.map AnnotationSpec.mirror)) ++
    unlessEmpty s.onTypes (.typeAnnotations false (s.onTypes.map mirrorOnType))

/-- The number of bytes of the attributes with the annotations of a declaration. -/
def AnnotationSet.size (s : AnnotationSet) : Nat :=
  (unlessEmpty s.visible (6 + (2 + (s.visible.map AnnotationSpec.size).sum))).sum +
    (unlessEmpty s.onTypes (6 + (2 + (s.onTypes.map sizeOnType).sum))).sum

theorem AnnotationSet.length_mirror_le (s : AnnotationSet) : s.mirror.length ≤ 2 := by
  unfold AnnotationSet.mirror
  rw [List.length_append]
  exact Nat.add_le_add (length_unlessEmpty_le _ _) (length_unlessEmpty_le _ _)

theorem ensures_annotationSet (room : Nat) {s : AnnotationSet} (h : s.Fits) :
    Ensures P s.write (AttributesEncode P (Attribute.parse P (room + 1)) s.size s.mirror) :=
  (ensures_tableAttribute rfl h.visible_length (fun a ha => ensures_annotationSpec (h.visible a ha))
    h.visible_size).bind fun _ =>
  (ensures_tableAttribute rfl h.onTypes_length
    (fun a ha => ensures_onType (h.onTypes a ha).1 (h.onTypes a ha).2) h.onTypes_size).bind fun _ =>
  ensures_pure fun htypes hvisible => hvisible.append htypes

/-! ## Method bodies -/

/-- What a reader makes of a handler of a body of `length` bytes. -/
def mirrorHandler (length : UInt16) (catches : Option String) : Handler :=
  ⟨0, length - 1, 0, catches⟩

theorem ensures_handler (length : UInt16) (catches : Option String) :
    Ensures P (writeHandler length catches)
      (Encodes (Attribute.readHandler P) 8 (mirrorHandler length catches)) := by
  refine (ensures_classRef? catches).bind fun i => ensures_pure fun hi => ⟨rfl, ?_⟩
  simp only [List.append_assoc]
  exact (reads_u2 0).bind ((reads_u2 (length - 1)).bind ((reads_u2 0).bind
    ((reads_reference hi).map _)))

/-- What a reader makes of local variables, numbered from `slot`. -/
def mirrorLocals (slot : UInt16) : List (String × String) → List LocalVariable
  | [] => []
  | (name, descriptor) :: rest => ⟨name, descriptor, slot⟩ :: mirrorLocals (slot + 1) rest

theorem ensures_locals (length slot : UInt16) (l : List (String × String)) :
    Ensures P (writeLocals length slot l)
      (Encodes (repeated (Attribute.readLocalVariable P) l.length) (10 * l.length)
        (mirrorLocals slot l)) := by
  induction l generalizing slot with
  | nil => exact ensures_pure ⟨rfl, reads_pure []⟩
  | cons v rest ih =>
    obtain ⟨name, descriptor⟩ := v
    refine (ensures_utf8 name).bind fun n => (ensures_utf8 descriptor).bind fun d =>
      (ih (slot + 1)).bind fun tail => ensures_pure ?_
    rintro htail ⟨hd, -⟩ ⟨hn, -⟩
    refine ⟨?_, ?_⟩
    · simp only [List.length_append, length_u2Bytes, htail.length, List.length_cons]
      omega
    · have hlives : Reads (skip 4) (u2Bytes 0 ++ u2Bytes length) () := reads_skip rfl
      have hentry : Reads (Attribute.readLocalVariable P)
          ((u2Bytes 0 ++ u2Bytes length) ++ (u2Bytes n ++ (u2Bytes d ++ u2Bytes slot)))
          ⟨name, descriptor, slot⟩ :=
        hlives.bind ((reads_reference hn).bind ((reads_reference hd).bind
          ((reads_u2 slot).map _)))
      rw [← List.append_assoc, ← List.append_assoc] at hentry
      exact hentry.bind (htail.reads.map _)

/-- The number of bytes of the attribute with a table of local variables. -/
def sizeOfLocals (l : List (String × String)) : Nat := (unlessEmpty l (6 + (2 + 10 * l.length))).sum

theorem ensures_localsAttribute (room : Nat) {name : String} {mk : List LocalVariable → Attribute}
    (hr : Attribute.bodyReader? P (Attribute.readTable P (Attribute.parse P room)) name =
      some (do return mk (← table (Attribute.readLocalVariable P)))) (length : UInt16)
    {l : List (String × String)} (hl : l.length < 65536) :
    Ensures P (localsAttribute name length l)
      (AttributesEncode P (Attribute.parse P (room + 1)) (sizeOfLocals l)
        (unlessEmpty l (mk (mirrorLocals 0 l)))) := by
  refine ensures_unlessEmpty hr ((ensures_locals length 0 l).bind fun c => ensures_pure ?_) (by omega)
  intro hc
  refine ⟨?_, reads_table hc.reads hl⟩
  rw [List.length_append, hc.length]
  rfl

/-- The number of bytes of a method body with all that belongs to it. -/
def CodeSpec.size (c : CodeSpec) : Nat :=
  8 + c.codeSize + (2 + 8 * c.handlers.length) + (2 + (sizeOfLocals c.locals +
    sizeOfLocals c.localTypes + AnnotationSet.size { onTypes := c.annotationsOnTypes }))

/-- A method body that fits its tables, its attribute and the numbers in it, with raw bytes that
load only what is in the pool. -/
structure CodeSpec.Fits (P : Pool) (c : CodeSpec) : Prop where
  ops : OpsFit P 0 c.ops
  codeSize : c.codeSize < 65536
  handlers : c.handlers.length < 65536
  locals : c.locals.length < 65536
  localTypes : c.localTypes.length < 65536
  annotations : AnnotationSet.Fits { onTypes := c.annotationsOnTypes }
  size : c.size < 4294967296

/-- The attributes of a method body as they are read. -/
def CodeSpec.mirrorAttributes (c : CodeSpec) : List Attribute :=
  unlessEmpty c.locals (.localVariables (mirrorLocals 0 c.locals)) ++
    unlessEmpty c.localTypes (.localVariableTypes (mirrorLocals 0 c.localTypes)) ++
    AnnotationSet.mirror { onTypes := c.annotationsOnTypes }

/-- What a reader makes of a method body. -/
def CodeSpec.mirror (c : CodeSpec) : Code where
  maxStack := 8
  maxLocals := 8
  instructions := c.ops.flatMap Op.symbols
  handlers := c.handlers.map (mirrorHandler (.ofNat c.codeSize))
  attributes := c.mirrorAttributes

theorem CodeSpec.length_mirrorAttributes_le (c : CodeSpec) : c.mirrorAttributes.length ≤ 4 := by
  unfold CodeSpec.mirrorAttributes
  rw [List.length_append, List.length_append]
  exact Nat.add_le_add
    (Nat.add_le_add (length_unlessEmpty_le _ _) (length_unlessEmpty_le _ _))
    (AnnotationSet.length_mirror_le _)

/-- **A method body is read as it was written.** -/
theorem ensures_code {c : CodeSpec} (h : c.Fits P) :
    Ensures P c.write (Encodes
      (Attribute.readCode P (Attribute.readTable P (Attribute.parse P (room + 1)))) c.size
      c.mirror) := by
  refine (ensures_instructions h.ops).bind fun code =>
    (ensures_table h.handlers fun catches _ =>
      ensures_handler (.ofNat code.length) catches).bind fun handlers =>
    (ensures_localsAttribute room rfl _ h.locals).bind fun locals =>
    (ensures_localsAttribute room rfl _ h.localTypes).bind fun localTypes =>
    (ensures_annotationSet room h.annotations).bind fun annotations => ensures_pure ?_
  rintro hannotations hlocalTypes hlocals hhandlers ⟨hsize, hdecode⟩
  have hcount := c.length_mirrorAttributes_le
  have hattributes := ((hlocals.append hlocalTypes).append hannotations).table
    (Nat.lt_of_le_of_lt hcount (by decide))
  rw [hsize] at hhandlers
  refine ⟨?_, ?_⟩
  · simp only [List.length_append, length_u2Bytes, length_u4Bytes, hsize, hhandlers.length,
      hattributes.length, sum_map_const]
    rfl
  · have hlength : (UInt32.ofNat code.length).toNat = code.length :=
      UInt32.toNat_ofNat_of_lt' (Nat.lt_trans (hsize ▸ h.codeSize) (by decide))
    have htables : Reads (do
        let handlers ← Reader.table (Attribute.readHandler P)
        let attributes ← Attribute.readTable P (Attribute.parse P (room + 1))
        return (⟨8, 8, c.ops.flatMap Op.symbols, handlers, attributes⟩ : Code))
        (handlers ++ attributeTable (locals ++ localTypes ++ annotations)) c.mirror :=
      hhandlers.reads.bind (hattributes.reads.map _)
    simp only [List.append_assoc] at htables ⊢
    exact (reads_u2 8).bind ((reads_u2 8).bind ((reads_u4 _).bind ((reads_take hlength.symm).bind
      ((reads_liftResult hdecode).nil_bind htables))))

end Attributes

end VirtualClasspath.Assembly
