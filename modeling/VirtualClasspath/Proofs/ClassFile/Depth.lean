import Mathlib.Data.List.Chain
import Mathlib.Data.Option.Basic
import VirtualClasspath.Assembly.Write
import VirtualClasspath.Proofs.ClassFile.Mentions
import VirtualClasspath.Proofs.ClassFile.Delimited
import VirtualClasspath.Proofs.ClassFile.Narrowing

/-!
# How deep classes nest

Values nest in annotations, attributes nest in attributes, and a class that nests too deep is
refused. `parseWithin` reads a class with other limits in place of the usual ones, so a class that it
accepts has nothing wrong with it but, perhaps, its depth. What is read with some limits is read with
any others, or refused for its depth: `ElementValue.narrows_read` says so of values,
`Attribute.narrows_parseWithin` of attributes and `narrows_readWithin` of classes.

Depth is measured without a reader: by the chains of values of which each contains the next
(`ElementValue.Chain`), and by the number of attributes around an attribute (`Attribute.Enclosed`).
`parse_bounded` says that these decide which classes are accepted.
-/

namespace VirtualClasspath.ClassFile

open Reader

/-! ## Values -/

/-- The values of the elements of an annotation. -/
def AnnotationUse.values (a : AnnotationUse) : List ElementValue := a.elements.map Prod.snd

namespace ElementValue

/-- The values that stand directly in a value: in an array, or in an annotation. -/
def parts : ElementValue → List ElementValue
  | .array values => values
  | .nested a => a.values
  | _ => []

/-- `chain` is a chain of values of which each directly contains the next, somewhere in `roots`. -/
structure Chain (roots chain : List ElementValue) : Prop where
  contains : chain.IsChain fun v w => w ∈ v.parts
  within : ∀ v ∈ chain, ∃ w ∈ roots, Within v w

/-- A value with at most `n` levels, itself included. -/
def FitsIn : (n : Nat) → ElementValue → Prop
  | 0, _ => False
  | n + 1, v => ∀ w ∈ v.parts, FitsIn n w

variable {v w : ElementValue} {n : Nat}

theorem within_of_mem_parts {u : ElementValue} (hw : w ∈ v.parts) (h : Within u w) : Within u v := by
  cases v with
  | array values => exact .array hw h
  | nested a =>
    obtain ⟨⟨name, w'⟩, hmem, rfl⟩ := List.mem_map.mp hw
    exact .nested hmem h
  | _ => exact absurd hw List.not_mem_nil

theorem FitsIn.succ (h : FitsIn n v) : FitsIn (n + 1) v := by
  induction n generalizing v with
  | zero => exact h.elim
  | succ n ih => exact fun w hw => ih (h w hw)

theorem FitsIn.of_within (h : FitsIn n w) (hv : Within v w) : FitsIn n v := by
  have hpart : ∀ {u : ElementValue} (u' : ElementValue), u ∈ u'.parts → FitsIn n u' →
      FitsIn n u := by
    intro u u' hu h
    cases n with
    | zero => exact h
    | succ n => exact (h u hu).succ
  induction hv with
  | self => exact h
  | @array _ values hw _ ih => exact ih (hpart (.array values) hw h)
  | @nested _ _ a hw _ ih => exact ih (hpart (.nested a) (List.mem_map_of_mem hw) h)

/-- The levels of a value are the lengths of the chains that begin with it. -/
theorem fitsIn_iff : FitsIn n v ↔
    ∀ chain : List ElementValue, (v :: chain).IsChain (fun v w => w ∈ v.parts) →
      chain.length < n := by
  induction n generalizing v with
  | zero => exact iff_of_false id fun h => Nat.not_lt_zero _ (h [] (.singleton v))
  | succ n ih =>
    constructor
    · intro h chain hchain
      cases chain with
      | nil => exact Nat.succ_pos n
      | cons w chain =>
        obtain ⟨hw, hchain⟩ := List.isChain_cons_cons.mp hchain
        exact Nat.succ_lt_succ (ih.mp (h w hw) chain hchain)
    · intro h w hw
      rw [ih]
      intro chain hchain
      exact Nat.lt_of_succ_lt_succ (h (w :: chain) (.cons_cons hw hchain))

theorem within_of_isChain {chain : List ElementValue}
    (h : (v :: chain).IsChain fun v w => w ∈ v.parts) : ∀ u ∈ v :: chain, Within u v := by
  induction chain generalizing v with
  | nil => exact fun u hu => List.mem_singleton.mp hu ▸ .self
  | cons w chain ih =>
    obtain ⟨hw, hchain⟩ := List.isChain_cons_cons.mp h
    intro u hu
    rcases List.mem_cons.mp hu with rfl | hu
    · exact .self
    · exact within_of_mem_parts hw (ih hchain u hu)

/-- Values have few levels if all chains in them are short. -/
theorem forall_fitsIn_iff {roots : List ElementValue} :
    (∀ w ∈ roots, FitsIn n w) ↔ ∀ chain, Chain roots chain → chain.length ≤ n := by
  constructor
  · rintro h chain ⟨hcontains, hwithin⟩
    cases chain with
    | nil => exact Nat.zero_le n
    | cons v chain =>
      obtain ⟨w, hw, hv⟩ := hwithin v List.mem_cons_self
      exact fitsIn_iff.mp ((h w hw).of_within hv) chain hcontains
  · intro h w hw
    rw [fitsIn_iff]
    intro chain hchain
    exact h (w :: chain) ⟨hchain, fun u hu => ⟨w, hw, within_of_isChain hchain u hu⟩⟩

end ElementValue

/-- An annotation whose values have at most `n` levels. -/
def AnnotationUse.FitsIn (n : Nat) (a : AnnotationUse) : Prop := ∀ v ∈ a.values, v.FitsIn n

variable (pool : Pool)

theorem AnnotationUse.narrows_readWith {n : Nat} {r r' : Reader ElementValue}
    (h : Narrows (ElementValue.FitsIn n) r r') :
    Narrows (AnnotationUse.FitsIn n) (readWith pool r) (readWith pool r') := by
  refine .after pool.readUtf8 fun type => ?_
  have hpair := narrows_table <| Narrows.after pool.readUtf8 fun name =>
    h.map (Q := fun e => ElementValue.FitsIn n e.2) (Prod.mk name) fun _ => Iff.rfl
  exact hpair.map (AnnotationUse.mk type) fun elements => List.forall_mem_map

/-- Reading values with two limits. -/
theorem ElementValue.narrows_read (room room' : Nat) :
    Narrows (FitsIn room') (read pool room) (read pool room') := by
  induction room' generalizing room with
  | zero => exact ⟨fun _ h => h.elim, fun _ _ => ⟨_, rfl, .value⟩⟩
  | succ room' ih =>
    cases room with
    | zero => exact narrows_of_error (fun _ => ⟨_, rfl⟩) _
    | succ room =>
      have hleaf : ∀ {v : ElementValue}, v.parts = [] → FitsIn (room' + 1) v := by
        intro v hv w hw
        rw [hv] at hw
        exact absurd hw List.not_mem_nil
      refine .after u1 fun tag => narrows_ite (fun _ => ?_) fun _ => narrows_ite (fun _ => ?_)
        fun _ => narrows_ite (fun _ => ?_) fun _ => narrows_ite (fun _ => ?_)
        fun _ => narrows_ite (fun _ => ?_) fun _ => narrows_of_error (fun _ => ⟨_, rfl⟩) _
      · exact .after u2 fun _ => .after _ fun _ => narrows_pure (hleaf rfl)
      · exact .after _ fun _ => .after _ fun _ => narrows_pure (hleaf rfl)
      · exact .after _ fun _ => narrows_pure (hleaf rfl)
      · exact (AnnotationUse.narrows_readWith pool (ih room)).map ElementValue.nested
          fun _ => Iff.rfl
      · exact (narrows_table (ih room)).map ElementValue.array fun _ => Iff.rfl

/-! ## Attributes -/

namespace Attribute

/-- The annotations of a declaration, of parameters or of types in the attribute. -/
def annotated : Attribute → List AnnotationUse
  | .annotations _ values => values
  | .parameterAnnotations _ parameters => parameters.flatten
  | .typeAnnotations _ values => values.map (·.value)
  | _ => []

/-- The default of an annotation element. -/
def defaults : Attribute → List ElementValue
  | .annotationDefault value => [value]
  | _ => []

/-- `a.Enclosed n l`: the attribute `a` stands in `l` with `n` attributes around it, each of them a
method body or a record. -/
inductive Enclosed (a : Attribute) : (n : Nat) → List Attribute → Prop
  | here {l : List Attribute} (h : a ∈ l) : Enclosed a 0 l
  | inside {n : Nat} {l l' : List Attribute} {b : Attribute} (hb : b ∈ l) (hl : l' ∈ b.inside)
    (h : Enclosed a n l') : Enclosed a (n + 1) l

/-- An attribute of which the own values have at most `values` levels, or one more in a default. -/
structure ValuesFit (values : Nat) (a : Attribute) : Prop where
  annotated : ∀ u ∈ a.annotated, u.FitsIn values
  defaults : ∀ v ∈ a.defaults, v.FitsIn (values + 1)

/-- An attribute with at most `n` levels, itself included, of which all values fit. -/
def FitsIn (values : Nat) : (n : Nat) → Attribute → Prop
  | 0, _ => False
  | n + 1, a => a.ValuesFit values ∧ ∀ l ∈ a.inside, ∀ b ∈ l, FitsIn values n b

variable {values n : Nat} {a : Attribute} {l : List Attribute}

/-- Attributes have few levels if none of them has many around it, and no values that do not fit. -/
theorem forall_fitsIn_iff : (∀ a ∈ l, FitsIn values n a) ↔
    ∀ (k : Nat) (a : Attribute), a.Enclosed k l → k < n ∧ a.ValuesFit values := by
  constructor
  · intro h k a ha
    induction ha generalizing n with
    | here ha =>
      cases n with
      | zero => exact (h a ha).elim
      | succ n => exact ⟨Nat.succ_pos n, (h a ha).1⟩
    | inside hb hl _ ih =>
      cases n with
      | zero => exact (h _ hb).elim
      | succ n => exact (ih ((h _ hb).2 _ hl)).imp_left Nat.succ_lt_succ
  · intro h
    induction n generalizing l with
    | zero => exact fun a ha => absurd (h 0 a (.here ha)).1 (Nat.lt_irrefl 0)
    | succ n ih =>
      intro a ha
      refine ⟨(h 0 a (.here ha)).2, fun l' hl => ih fun k b hb => ?_⟩
      exact (h (k + 1) b (.inside ha hl hb)).imp_left Nat.lt_of_succ_lt_succ

end Attribute

/-! ## Reading within limits -/

/-- How many attributes may stand around an attribute, and how many levels the values of an
annotation may have. -/
structure Limits where
  attributes : Nat
  values : Nat

/-- The limits that classes are read with. -/
def Limits.standard : Limits := ⟨4, 64⟩

/-- An annotation on the use of a type, where `readUse` reads what is behind the target and the
path. -/
def TypeAnnotationUse.readWith (readUse : Reader AnnotationUse) : Reader TypeAnnotationUse := do
  let target ← u1
  skipTarget target
  let steps ← u1
  skip (steps.toNat * 2)
  let value ← readUse
  return { target, value }

namespace Attribute

/-- A list of annotations for each parameter. -/
def readParametersWith (readUse : Reader AnnotationUse) : Reader (List (List AnnotationUse)) := do
  let count ← u1
  repeated (table readUse) count.toNat

/-- `Attribute.bodyReader?`, with `values` levels for the values of an annotation. -/
def bodyReaderWithin? (values : Nat) (nested : Reader (List Attribute)) (name : String) :
    Option (Reader Attribute) :=
  let readUse := AnnotationUse.readWith pool (ElementValue.read pool values)
  match name with
  | "RuntimeVisibleAnnotations" => some do return .annotations true (← table readUse)
  | "RuntimeInvisibleAnnotations" => some do return .annotations false (← table readUse)
  | "RuntimeVisibleParameterAnnotations" => some do
    return .parameterAnnotations true (← readParametersWith readUse)
  | "RuntimeInvisibleParameterAnnotations" => some do
    return .parameterAnnotations false (← readParametersWith readUse)
  | "RuntimeVisibleTypeAnnotations" => some do
    return .typeAnnotations true (← table (TypeAnnotationUse.readWith readUse))
  | "RuntimeInvisibleTypeAnnotations" => some do
    return .typeAnnotations false (← table (TypeAnnotationUse.readWith readUse))
  | "AnnotationDefault" => some do
    return .annotationDefault (← ElementValue.read pool (values + 1))
  | name => bodyReader? pool nested name

/-- `Attribute.parse`, with `values` levels for the values of an annotation. -/
def parseWithin (values : Nat) : (room : Nat) → String → Bytes → Except Fault Attribute
  | 0, name, _ => .error (.malformedAttribute name .nestedTooDeep)
  | room + 1, name, body =>
    match bodyReaderWithin? pool values (readTable pool (parseWithin values room)) name with
    | none => .ok (.other name body.length)
    | some reader => entire (fun n => .malformedAttribute name (.unread n)) reader body

/-- The attributes of a class or of a member. -/
def readAllWithin (limits : Limits) : Reader (List Attribute) :=
  readTable pool (parseWithin pool limits.values (limits.attributes + 1))

end Attribute

/-- A field or a method, with other limits. -/
def Member.readWithin (limits : Limits) : Reader Member := do
  let access ← u2
  let name ← pool.readUtf8
  let descriptor ← pool.readUtf8
  let attributes ← Attribute.readAllWithin pool limits
  return { access, name, descriptor, attributes }

/-- One class, with other limits. -/
def readWithin (limits : Limits) : Reader ClassFile := do
  readMagic
  let minor ← u2
  let major ← u2
  let pool ← Pool.read
  let access ← u2
  let thisClass ← pool.readClassName
  let superClass ← pool.readClassName?
  let interfaces ← table pool.readClassName
  let fields ← table (Member.readWithin pool limits)
  let methods ← table (Member.readWithin pool limits)
  let attributes ← Attribute.readAllWithin pool limits
  return {
    minor, major, access, thisClass, superClass, interfaces, fields, methods, attributes, pool }

/-- The class that `bytes` are, where it nests no deeper than `limits` allow. -/
def parseWithin (limits : Limits) (bytes : Bytes) : Except Fault ClassFile :=
  entire .trailingBytes (readWithin limits) bytes

theorem Attribute.bodyReaderWithin?_standard (nested : Reader (List Attribute)) (name : String) :
    bodyReaderWithin? pool Limits.standard.values nested name = bodyReader? pool nested name := by
  unfold bodyReaderWithin?
  dsimp only
  split
  all_goals rfl

theorem Attribute.parseWithin_standard (room : Nat) :
    parseWithin pool Limits.standard.values room = parse pool room := by
  induction room with
  | zero => rfl
  | succ room ih =>
    funext name body
    unfold parseWithin parse
    rw [ih, bodyReaderWithin?_standard]
    cases bodyReader? pool (readTable pool (parse pool room)) name with
    | none => rfl
    | some reader =>
      dsimp only [entire]
      rcases reader body with fault | ⟨a, _ | ⟨b, rest⟩⟩
      all_goals rfl

/-- With the usual limits, a class is read as ever. -/
theorem parseWithin_standard : parseWithin .standard = parse := by
  have hall : ∀ pool, Attribute.readAllWithin pool .standard = Attribute.readAll pool := by
    intro pool
    unfold Attribute.readAllWithin
    rw [Attribute.parseWithin_standard]
    rfl
  have hmember : ∀ pool, Member.readWithin pool .standard = Member.read pool := by
    intro pool
    unfold Member.readWithin Member.read
    rw [hall]
  have hread : readWithin .standard = read := by
    unfold readWithin read
    simp only [hall, hmember]
  funext bytes
  unfold parseWithin parse
  rw [hread]
  unfold entire
  rcases read bytes with fault | ⟨c, _ | ⟨b, rest⟩⟩
  all_goals rfl

/-! ## Two limits -/

theorem TypeAnnotationUse.narrows_readWith {n : Nat} {r r' : Reader AnnotationUse}
    (h : Narrows (AnnotationUse.FitsIn n) r r') :
    Narrows (fun t => t.value.FitsIn n) (readWith r) (readWith r') :=
  .after u1 fun target => .after (skipTarget target) fun _ => .after u1 fun _ =>
    .after (skip _) fun _ => h.map (TypeAnnotationUse.mk target) fun _ => Iff.rfl

namespace Attribute

variable {values values' room : Nat} {nested nested' : Reader (List Attribute)}

/-- An attribute that has annotations only. -/
theorem fitsIn_annotated {a : Attribute} (hdefaults : a.defaults = []) (hinside : a.inside = []) :
    FitsIn values (room + 1) a ↔ ∀ u ∈ a.annotated, u.FitsIn values := by
  refine ⟨fun h => h.1.annotated, fun h => ⟨⟨h, ?_⟩, ?_⟩⟩
  · rw [hdefaults]
    exact List.forall_mem_nil _
  · rw [hinside]
    exact List.forall_mem_nil _

theorem fitsIn_annotationDefault {v : ElementValue} :
    FitsIn values (room + 1) (.annotationDefault v) ↔ v.FitsIn (values + 1) :=
  ⟨fun h => h.1.defaults v List.mem_cons_self, fun h =>
    ⟨⟨List.forall_mem_nil _, List.forall_mem_singleton.mpr h⟩, List.forall_mem_nil _⟩⟩

/-- An attribute that has attributes inside, but no values of its own. -/
theorem fitsIn_enclosing {a : Attribute} (hannotated : a.annotated = [])
    (hdefaults : a.defaults = []) :
    FitsIn values (room + 1) a ↔ ∀ l ∈ a.inside, ∀ b ∈ l, FitsIn values room b := by
  refine ⟨fun h => h.2, fun h => ⟨⟨?_, ?_⟩, h⟩⟩
  · rw [hannotated]
    exact List.forall_mem_nil _
  · rw [hdefaults]
    exact List.forall_mem_nil _

/-- An attribute that has neither. -/
theorem fitsIn_leaf {a : Attribute} (hannotated : a.annotated = []) (hdefaults : a.defaults = [])
    (hinside : a.inside = []) : FitsIn values (room + 1) a := by
  rw [fitsIn_annotated hdefaults hinside, hannotated]
  exact List.forall_mem_nil _

theorem narrows_readParametersWith {r r' : Reader AnnotationUse}
    (h : Narrows (AnnotationUse.FitsIn values) r r') :
    Narrows (fun l => ∀ us ∈ l, ∀ u ∈ us, u.FitsIn values) (readParametersWith r)
      (readParametersWith r') :=
  .after u1 fun _ => narrows_repeated (narrows_table h) _

theorem narrows_readCode (h : Narrows (∀ a ∈ ·, FitsIn values room a) nested nested') :
    Narrows (fun body => ∀ a ∈ body.attributes, FitsIn values room a) (readCode pool nested)
      (readCode pool nested') :=
  .after u2 fun maxStack => .after u2 fun maxLocals => .after u4 fun _ => .after _ fun _ =>
    .after _ fun instructions => .after _ fun handlers =>
      h.map (Code.mk maxStack maxLocals instructions handlers) fun _ => Iff.rfl

theorem narrows_readComponent (h : Narrows (∀ a ∈ ·, FitsIn values room a) nested nested') :
    Narrows (fun c => ∀ a ∈ c.attributes, FitsIn values room a) (readComponent pool nested)
      (readComponent pool nested') :=
  .after _ fun name => .after _ fun descriptor =>
    h.map (Component.mk name descriptor) fun _ => Iff.rfl

theorem narrows_readEnclosingMethod : Narrows (FitsIn values (room + 1)) (readEnclosingMethod pool)
    (readEnclosingMethod pool) :=
  .after _ fun _ => .after _ fun _ => narrows_ite (fun _ => narrows_pure (fitsIn_leaf rfl rfl rfl))
    fun _ => .after _ fun _ => narrows_pure (fitsIn_leaf rfl rfl rfl)

theorem narrows_bodyReaderWithin? (values : Nat)
    (h : Narrows (∀ a ∈ ·, FitsIn values' room a) nested nested') (name : String) :
    Option.Rel (Narrows (FitsIn values' (room + 1))) (bodyReaderWithin? pool values nested name)
      (bodyReaderWithin? pool values' nested' name) := by
  have hannotations := AnnotationUse.narrows_readWith pool
    (ElementValue.narrows_read pool values values')
  have hparameters := narrows_readParametersWith hannotations
  have htypes := narrows_table (TypeAnnotationUse.narrows_readWith hannotations)
  have hdefault := ElementValue.narrows_read pool (values + 1) (values' + 1)
  have hleaf := @fitsIn_leaf values' room
  unfold bodyReaderWithin?
  dsimp only
  split
  · exact .some ((narrows_table hannotations).map (Attribute.annotations true) fun _ =>
      fitsIn_annotated rfl rfl)
  · exact .some ((narrows_table hannotations).map (Attribute.annotations false) fun _ =>
      fitsIn_annotated rfl rfl)
  · exact .some (hparameters.map (Attribute.parameterAnnotations true) fun _ =>
      (fitsIn_annotated rfl rfl).trans List.forall_mem_flatten)
  · exact .some (hparameters.map (Attribute.parameterAnnotations false) fun _ =>
      (fitsIn_annotated rfl rfl).trans List.forall_mem_flatten)
  · exact .some (htypes.map (Attribute.typeAnnotations true) fun _ =>
      (fitsIn_annotated rfl rfl).trans List.forall_mem_map)
  · exact .some (htypes.map (Attribute.typeAnnotations false) fun _ =>
      (fitsIn_annotated rfl rfl).trans List.forall_mem_map)
  · exact .some (hdefault.map Attribute.annotationDefault fun _ => fitsIn_annotationDefault)
  · unfold bodyReader?
    split
    · exact .some (.after _ fun _ => narrows_pure (hleaf rfl rfl rfl))
    · exact .some (.after _ fun _ => narrows_pure (hleaf rfl rfl rfl))
    · exact .some ((narrows_readCode pool h).map Attribute.code fun _ =>
        (fitsIn_enclosing rfl rfl).trans List.forall_mem_singleton)
    · exact .some (.after _ fun _ => narrows_pure (hleaf rfl rfl rfl))
    · exact .some (narrows_readEnclosingMethod pool)
    · contradiction
    · contradiction
    · contradiction
    · contradiction
    · contradiction
    · contradiction
    · contradiction
    · exact .some (.after _ fun _ => narrows_pure (hleaf rfl rfl rfl))
    · exact .some (.after _ fun _ => narrows_pure (hleaf rfl rfl rfl))
    · exact .some ((narrows_table (narrows_readComponent pool h)).map Attribute.record fun _ =>
        (fitsIn_enclosing rfl rfl).trans List.forall_mem_map)
    · exact .none

theorem narrows_readTable {P : Attribute → Prop} {p p' : String → Bytes → Except Fault Attribute}
    (h : ∀ name body, Narrows P (liftResult (p name body)) (liftResult (p' name body))) :
    Narrows (fun l => ∀ a ∈ l, P a) (readTable pool p) (readTable pool p') :=
  narrows_table <| .after _ fun name => .after _ fun _ => .after _ fun body => h name body

/-- Reading attributes with two limits. -/
theorem narrows_parseWithin (values values' room room' : Nat) (name : String) (body : Bytes) :
    Narrows (FitsIn values' room') (liftResult (parseWithin pool values room name body))
      (liftResult (parseWithin pool values' room' name body)) := by
  induction room' generalizing room name body with
  | zero => exact ⟨fun _ h => h.elim, fun _ _ => ⟨_, rfl, .attribute⟩⟩
  | succ room' ih =>
    cases room with
    | zero => exact narrows_of_error (fun _ => ⟨_, rfl⟩) _
    | succ room =>
      have hbody := narrows_bodyReaderWithin? pool values (narrows_readTable pool (ih room)) name
      unfold parseWithin
      generalize bodyReaderWithin? pool values _ name = reader at hbody ⊢
      generalize bodyReaderWithin? pool values' _ name = reader' at hbody ⊢
      cases hbody with
      | none => exact narrows_pure (a := .other name body.length) (fitsIn_leaf rfl rfl rfl)
      | some h => exact narrows_liftResult h.entire_of_fits h.entire_of_not_fits

theorem narrows_readAllWithin (limits limits' : Limits) :
    Narrows (fun l => ∀ a ∈ l, FitsIn limits'.values (limits'.attributes + 1) a)
      (readAllWithin pool limits) (readAllWithin pool limits') :=
  narrows_readTable pool (narrows_parseWithin pool _ _ _ _)

end Attribute

/-! ## Classes -/

/-- The tables of attributes of the class and of its members. -/
def tables (c : ClassFile) : List (List Attribute) :=
  c.attributes :: (c.fields ++ c.methods).map (·.attributes)

/-- A table of attributes that nest no deeper than the limits allow. -/
def Fits (limits : Limits) (l : List Attribute) : Prop :=
  ∀ a ∈ l, a.FitsIn limits.values (limits.attributes + 1)

/-- The class nests no deeper than the limits allow. -/
structure Bounded (limits : Limits) (c : ClassFile) : Prop where
  attributes : ∀ l ∈ c.tables, ∀ (n : Nat) (a : Attribute), a.Enclosed n l → n ≤ limits.attributes
  annotations : ∀ l ∈ c.tables, ∀ (n : Nat) (a : Attribute), a.Enclosed n l → ∀ u ∈ a.annotated,
    ∀ chain, ElementValue.Chain u.values chain → chain.length ≤ limits.values
  defaults : ∀ l ∈ c.tables, ∀ (n : Nat) (a : Attribute), a.Enclosed n l →
    ∀ chain, ElementValue.Chain a.defaults chain → chain.length ≤ limits.values + 1

variable {limits limits' : Limits} {c : ClassFile} {bytes : Bytes}

theorem bounded_iff_tables : c.Bounded limits ↔ ∀ l ∈ c.tables, Fits limits l := by
  constructor
  · intro h l hl
    refine Attribute.forall_fitsIn_iff.mpr fun k a ha =>
      ⟨Nat.lt_succ_of_le (h.attributes l hl k a ha), fun u hu => ?_, ?_⟩
    · exact ElementValue.forall_fitsIn_iff.mpr (h.annotations l hl k a ha u hu)
    · exact ElementValue.forall_fitsIn_iff.mpr (h.defaults l hl k a ha)
  · intro h
    have hall := fun l hl => Attribute.forall_fitsIn_iff.mp (h l hl)
    refine ⟨fun l hl n a ha => ?_, fun l hl n a ha u hu => ?_, fun l hl n a ha => ?_⟩
    · exact Nat.le_of_lt_succ (hall l hl n a ha).1
    · exact ElementValue.forall_fitsIn_iff.mp ((hall l hl n a ha).2.annotated u hu)
    · exact ElementValue.forall_fitsIn_iff.mp (hall l hl n a ha).2.defaults

theorem bounded_iff : c.Bounded limits ↔ (∀ d ∈ c.fields, Fits limits d.attributes) ∧
    (∀ d ∈ c.methods, Fits limits d.attributes) ∧ Fits limits c.attributes := by
  rw [bounded_iff_tables]
  unfold tables
  rw [List.forall_mem_cons, List.forall_mem_map, List.forall_mem_append, and_comm, and_assoc]

theorem Member.narrows_readWithin (limits limits' : Limits) :
    Narrows (fun d => Fits limits' d.attributes) (readWithin pool limits)
      (readWithin pool limits') :=
  .after u2 fun access => .after _ fun name => .after _ fun descriptor =>
    (Attribute.narrows_readAllWithin pool limits limits').map (Member.mk access name descriptor)
      fun _ => Iff.rfl

/-- Reading a class with two limits. -/
theorem narrows_readWithin (limits limits' : Limits) :
    Narrows (Bounded limits') (readWithin limits) (readWithin limits') := by
  refine .after readMagic fun _ => .after u2 fun minor => .after u2 fun major =>
    .after Pool.read fun pool => .after u2 fun access => .after _ fun thisClass =>
    .after _ fun superClass => .after _ fun interfaces => ?_
  have hmembers := narrows_table (Member.narrows_readWithin pool limits limits')
  refine hmembers.bind (fun fields hfields => hmembers.bind (fun methods hmethods => ?_) ?_) ?_
  · refine (Attribute.narrows_readAllWithin pool limits limits').map (fun attributes =>
      mk minor major access thisClass superClass interfaces fields methods attributes pool)
      fun attributes => ?_
    rw [bounded_iff]
    exact (and_iff_right hfields).trans (and_iff_right hmethods)
  · intro methods _ _ c h hc
    obtain ⟨_, _, _, hpure⟩ := bind_eq_ok h
    cases hpure
    exact (bounded_iff.mp hc).2.1
  · intro fields _ _ c h hc
    obtain ⟨_, _, _, h⟩ := bind_eq_ok h
    obtain ⟨_, _, _, hpure⟩ := bind_eq_ok h
    cases hpure
    exact (bounded_iff.mp hc).1

/-- A class that is accepted with some limits is accepted with any others that it does not go beyond,
and otherwise refused for its depth. -/
theorem parseWithin_of_parseWithin (h : parseWithin limits bytes = .ok c) (limits' : Limits) :
    (c.Bounded limits' → parseWithin limits' bytes = .ok c) ∧
      (¬ c.Bounded limits' → ∃ fault, parseWithin limits' bytes = .error fault ∧ fault.TooDeep) :=
  ⟨(narrows_readWithin limits limits').entire_of_fits h,
    (narrows_readWithin limits limits').entire_of_not_fits h⟩

/-- **Accepted classes have bounded nesting, and the bounds are exact.** In a class that is accepted,
at most four method bodies or records stand around an attribute, and a chain of values has at most 64
of them in an annotation and 65 in a default. A class that some limits let pass, so that nothing but
its depth can be wrong with it, is accepted within these bounds, and beyond them it is refused for its
depth. -/
theorem parse_bounded (bytes : Bytes) :
    (∀ c, parse bytes = .ok c → c.Bounded ⟨4, 64⟩) ∧
    ∀ limits c, parseWithin limits bytes = .ok c →
      (c.Bounded ⟨4, 64⟩ → parse bytes = .ok c) ∧
      (¬ c.Bounded ⟨4, 64⟩ → ∃ fault, parse bytes = .error fault ∧ fault.TooDeep) := by
  rw [← parseWithin_standard]
  refine ⟨fun c h => ?_, fun limits c h => parseWithin_of_parseWithin h .standard⟩
  by_contra hc
  obtain ⟨fault, he, -⟩ := (parseWithin_of_parseWithin h .standard).2 hc
  rw [h] at he
  cases he

/-- A class that is called `A` and has one attribute. -/
def classWith (name : String) (body : Bytes) : Bytes :=
  Assembly.ClassSpec.bytes { bare with rawAttributes := [(name, body)] }

/-- A class literal in `n` arrays. Text 1 is the name of the class. -/
def tower (n : Nat) : Bytes := (List.replicate n [0x5b, 0, 1]).flatten ++ [0x63, 0, 1]

/-- One annotation with one element, which is a tower. -/
def annotationTower (n : Nat) : Bytes := [0, 1, 0, 1, 0, 1, 0, 1] ++ tower n

/-- Method bodies in method bodies, `n` around the last one. Text 3 is the name of the attribute. -/
def codeTower : (n : Nat) → Bytes
  | 0 => List.replicate 12 0
  | n + 1 =>
    let body := codeTower n
    List.replicate 11 0 ++ [1, 0, 3] ++ Assembly.u4Bytes (.ofNat body.length) ++ body

/-- Towers of the greatest height, and one storey higher. -/
theorem parse_bounded_towers :
    (∀ b ∈ [classWith "RuntimeVisibleAnnotations" (annotationTower 63),
        classWith "AnnotationDefault" (tower 64), classWith "Code" (codeTower 4)],
      ∃ c, parse b = .ok c ∧ c.Bounded ⟨4, 64⟩) ∧
    ∀ b ∈ [classWith "RuntimeVisibleAnnotations" (annotationTower 64),
        classWith "AnnotationDefault" (tower 65), classWith "Code" (codeTower 5)],
      ∃ c, parseWithin ⟨5, 65⟩ b = .ok c ∧ ¬ c.Bounded ⟨4, 64⟩ ∧
        ∃ fault, parse b = .error fault ∧ fault.TooDeep := by
  constructor
  · intro b hb
    have hname : (parse b).map ClassFile.thisClass = .ok "A" := by
      revert b
      decide +kernel
    obtain ⟨c, hc, -⟩ := exists_of_map_eq_ok hname
    exact ⟨c, hc, (parse_bounded b).1 c hc⟩
  · intro b hb
    have hname : (parseWithin ⟨5, 65⟩ b).map ClassFile.thisClass = .ok "A" ∧
        (parse b).isOk = false := by
      revert b
      decide +kernel
    obtain ⟨c, hc, -⟩ := exists_of_map_eq_ok hname.1
    obtain ⟨hfits, hdeep⟩ := (parse_bounded b).2 _ c hc
    have hbounded : ¬ c.Bounded ⟨4, 64⟩ := by
      intro h
      rw [hfits h] at hname
      exact absurd hname.2 Bool.noConfusion
    exact ⟨c, hc, hbounded, hdeep hbounded⟩

end VirtualClasspath.ClassFile
