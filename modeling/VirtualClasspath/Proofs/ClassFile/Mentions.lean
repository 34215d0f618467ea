import Mathlib.Control.Monad.Basic
import Mathlib.Logic.Basic
import VirtualClasspath.Proofs.Signature.Plain

/-!
# The extraction is exact

`ClassFile.mentions` walks through a class and lists texts. `Says` describes the same texts without a
walk: what each instruction, annotation and attribute says itself, and which attributes and values
stand inside others (`Within`), at any depth. `mem_mentions` says that the list holds exactly these.

`references_exact` is what follows for the set of names: there is one exactly if every mention can be
read, and then it holds the names of all mentions that are not primitive types.
-/

namespace VirtualClasspath.ClassFile

variable {m : Mention}

/-! ## Annotations -/

/-- `Within v w`: the value `v` is `w` or stands in it, in arrays and annotations at any depth. -/
inductive ElementValue.Within (v : ElementValue) : ElementValue → Prop
  | self : Within v v
  | array {w : ElementValue} {values : List ElementValue} (hw : w ∈ values) (h : Within v w) :
    Within v (.array values)
  | nested {w : ElementValue} {name : String} {a : AnnotationUse} (hw : (name, w) ∈ a.elements)
    (h : Within v w) : Within v (.nested a)

/-- What a value mentions itself, the values inside it left out. -/
inductive ElementValue.Says : ElementValue → Mention → Prop
  | enumConstant {type name : String} : Says (.enumConstant type name) (.signature type)
  | classLiteral {descriptor : String} : Says (.classLiteral descriptor) (.returned descriptor)
  | nested {a : AnnotationUse} : Says (.nested a) (.signature a.type)

/-- What a value mentions, the values inside it included. -/
def ElementValue.Holds (v : ElementValue) (m : Mention) : Prop := ∃ w, Within w v ∧ w.Says m

/-- What an annotation mentions. -/
inductive AnnotationUse.Says (a : AnnotationUse) : Mention → Prop
  | type : Says a (.signature a.type)
  | element {name : String} {v : ElementValue} {m : Mention} (hv : (name, v) ∈ a.elements)
    (h : v.Holds m) : Says a m

namespace ElementValue

theorem holds_const {tag : UInt8} : ¬ Holds (.const tag) m := by
  rintro ⟨w, hw, hs⟩
  cases hw
  cases hs

theorem holds_enumConstant {type name : String} :
    Holds (.enumConstant type name) m ↔ m = .signature type := by
  constructor
  · rintro ⟨w, hw, hs⟩
    cases hw
    cases hs
    rfl
  · rintro rfl
    exact ⟨_, .self, .enumConstant⟩

theorem holds_classLiteral {descriptor : String} :
    Holds (.classLiteral descriptor) m ↔ m = .returned descriptor := by
  constructor
  · rintro ⟨w, hw, hs⟩
    cases hw
    cases hs
    rfl
  · rintro rfl
    exact ⟨_, .self, .classLiteral⟩

theorem holds_nested {a : AnnotationUse} : Holds (.nested a) m ↔ a.Says m := by
  constructor
  · rintro ⟨w, hw, hs⟩
    cases hw with
    | self =>
      cases hs
      exact .type
    | nested hv hw => exact .element hv ⟨w, hw, hs⟩
  · rintro (_ | ⟨hv, w, hw, hs⟩)
    · exact ⟨_, .self, .nested⟩
    · exact ⟨w, .nested hv hw, hs⟩

theorem holds_array {values : List ElementValue} :
    Holds (.array values) m ↔ ∃ v ∈ values, v.Holds m := by
  constructor
  · rintro ⟨w, hw, hs⟩
    cases hw with
    | self => cases hs
    | array hv hw => exact ⟨_, hv, w, hw, hs⟩
  · rintro ⟨v, hv, w, hw, hs⟩
    exact ⟨w, .array hv hw, hs⟩

end ElementValue

mutual

theorem ElementValue.mem_mentions (v : ElementValue) : m ∈ v.mentions ↔ v.Holds m := by
  cases v with
  | const tag => simp [ElementValue.mentions, ElementValue.holds_const]
  | enumConstant type name => simp [ElementValue.mentions, ElementValue.holds_enumConstant]
  | classLiteral descriptor => simp [ElementValue.mentions, ElementValue.holds_classLiteral]
  | nested a =>
    rw [ElementValue.mentions, ElementValue.holds_nested]
    exact AnnotationUse.mem_mentions a
  | array values =>
    rw [ElementValue.mentions, ElementValue.holds_array]
    exact mem_valueMentions values

theorem AnnotationUse.mem_mentions (a : AnnotationUse) : m ∈ a.mentions ↔ a.Says m := by
  obtain ⟨type, elements⟩ := a
  rw [AnnotationUse.mentions, List.mem_cons, mem_elementMentions elements]
  constructor
  · rintro (rfl | ⟨name, v, hv, h⟩)
    · exact .type
    · exact .element hv h
  · rintro (_ | ⟨hv, h⟩)
    · exact Or.inl rfl
    · exact Or.inr ⟨_, _, hv, h⟩

theorem mem_elementMentions (l : List (String × ElementValue)) :
    m ∈ elementMentions l ↔ ∃ name v, (name, v) ∈ l ∧ v.Holds m := by
  cases l with
  | nil => simp [elementMentions]
  | cons e rest =>
    obtain ⟨name, v⟩ := e
    rw [elementMentions, List.mem_append, ElementValue.mem_mentions v, mem_elementMentions rest]
    constructor
    · rintro (h | ⟨name', w, hw, h⟩)
      · exact ⟨name, v, List.mem_cons_self, h⟩
      · exact ⟨name', w, List.mem_cons_of_mem _ hw, h⟩
    · rintro ⟨name', w, hw, h⟩
      rcases List.mem_cons.mp hw with he | hw
      · cases he
        exact Or.inl h
      · exact Or.inr ⟨name', w, hw, h⟩

theorem mem_valueMentions (l : List ElementValue) :
    m ∈ valueMentions l ↔ ∃ v ∈ l, v.Holds m := by
  cases l with
  | nil => simp [valueMentions]
  | cons v rest =>
    rw [valueMentions, List.mem_append, ElementValue.mem_mentions v, mem_valueMentions rest]
    simp

end

/-! ## Attributes -/

/-- What an instruction mentions. -/
inductive Instruction.Says : Instruction → Mention → Prop
  | type {opcode : UInt8} {name : String} : Says (.type opcode name) (.operand name)
  | multiArray {name : String} {dimensions : UInt8} :
    Says (.multiArray name dimensions) (.operand name)
  | fieldOwner {opcode : UInt8} {owner name descriptor : String} :
    Says (.field opcode owner name descriptor) (.operand owner)
  | fieldType {opcode : UInt8} {owner name descriptor : String} :
    Says (.field opcode owner name descriptor) (.signature descriptor)
  | methodOwner {opcode : UInt8} {callee : MemberRef} :
    Says (.method opcode callee) (.operand callee.owner)
  | methodType {opcode : UInt8} {callee : MemberRef} :
    Says (.method opcode callee) (.signature callee.descriptor)
  | callSite {name descriptor : String} : Says (.callSite name descriptor) (.signature descriptor)
  | loadClass {name : String} : Says (.loadClass name) (.operand name)
  | loadMethodType {descriptor : String} :
    Says (.loadMethodType descriptor) (.signature descriptor)

/-- What an attribute mentions itself, the attributes inside it left out. -/
inductive Attribute.Says : Attribute → Mention → Prop
  | signature {text : String} : Says (.signature text) (.signature text)
  | exception {names : List String} {n : String} (h : n ∈ names) :
    Says (.exceptions names) (.operand n)
  | instruction {body : Code} {i : Instruction} {m : Mention} (h : i ∈ body.instructions)
    (hm : i.Says m) : Says (.code body) m
  | caught {body : Code} {e : Handler} {n : String} (h : e ∈ body.handlers)
    (hn : e.catches = some n) : Says (.code body) (.operand n)
  | innerClass {entries : List InnerClass} {e : InnerClass} (h : e ∈ entries) :
    Says (.innerClasses entries) (.operand e.inner)
  | outerClass {entries : List InnerClass} {e : InnerClass} {n : String} (h : e ∈ entries)
    (hn : e.outer = some n) : Says (.innerClasses entries) (.operand n)
  | enclosingClass {owner : String} {method : Option (String × String)} :
    Says (.enclosingMethod owner method) (.operand owner)
  | enclosingMethod {owner name descriptor : String} :
    Says (.enclosingMethod owner (some (name, descriptor))) (.signature descriptor)
  | annotated {visible : Bool} {values : List AnnotationUse} {a : AnnotationUse} {m : Mention}
    (h : a ∈ values) (hm : a.Says m) : Says (.annotations visible values) m
  | parameterAnnotated {visible : Bool} {parameters : List (List AnnotationUse)}
    {values : List AnnotationUse} {a : AnnotationUse} {m : Mention} (hp : values ∈ parameters)
    (h : a ∈ values) (hm : a.Says m) : Says (.parameterAnnotations visible parameters) m
  | typeAnnotated {visible : Bool} {values : List TypeAnnotationUse} {t : TypeAnnotationUse}
    {m : Mention} (h : t ∈ values) (hm : t.value.Says m) : Says (.typeAnnotations visible values) m
  | default {v : ElementValue} {m : Mention} (h : v.Holds m) : Says (.annotationDefault v) m
  | localVariable {table : List LocalVariable} {v : LocalVariable} (h : v ∈ table) :
    Says (.localVariables table) (.signature v.descriptor)
  | localVariableType {table : List LocalVariable} {v : LocalVariable} (h : v ∈ table) :
    Says (.localVariableTypes table) (.signature v.descriptor)
  | component {components : List Component} {c : Component} (h : c ∈ components) :
    Says (.record components) (.signature c.descriptor)

/-- The lists of attributes that stand directly in an attribute. -/
def Attribute.inside : Attribute → List (List Attribute)
  | .code body => [body.attributes]
  | .record components => components.map (·.attributes)
  | _ => []

/-- `Within a l`: the attribute `a` is in `l` or stands in one of its attributes, at any depth. -/
inductive Attribute.Within (a : Attribute) : List Attribute → Prop
  | here {l : List Attribute} (h : a ∈ l) : Within a l
  | inside {l l' : List Attribute} {b : Attribute} (hb : b ∈ l) (hl : l' ∈ b.inside)
    (h : Within a l') : Within a l

/-- What a list of attributes mentions, those inside them included. -/
def AttributesSay (l : List Attribute) (m : Mention) : Prop := ∃ a : Attribute, a.Within l ∧ a.Says m

theorem attributesSay_nil : ¬ AttributesSay [] m := by
  rintro ⟨a, h | ⟨hb, -, -⟩, -⟩
  · exact List.not_mem_nil h
  · exact List.not_mem_nil hb

theorem attributesSay_cons {a : Attribute} {l : List Attribute} :
    AttributesSay (a :: l) m ↔
      (a.Says m ∨ ∃ l' ∈ a.inside, AttributesSay l' m) ∨ AttributesSay l m := by
  constructor
  · rintro ⟨b, h | ⟨hb, hl, h⟩, hm⟩
    · rcases List.mem_cons.mp h with rfl | h
      · exact Or.inl (Or.inl hm)
      · exact Or.inr ⟨b, .here h, hm⟩
    · rcases List.mem_cons.mp hb with rfl | hb
      · exact Or.inl (Or.inr ⟨_, hl, b, h, hm⟩)
      · exact Or.inr ⟨b, .inside hb hl h, hm⟩
  · rintro ((hm | ⟨l', hl, b, h, hm⟩) | ⟨b, h | ⟨hb, hl, h⟩, hm⟩)
    · exact ⟨a, .here List.mem_cons_self, hm⟩
    · exact ⟨b, .inside List.mem_cons_self hl h, hm⟩
    · exact ⟨b, .here (List.mem_cons_of_mem a h), hm⟩
    · exact ⟨b, .inside (List.mem_cons_of_mem a hb) hl h, hm⟩

theorem Instruction.mem_mentions (i : Instruction) : m ∈ i.mentions ↔ i.Says m := by
  constructor
  · intro h
    cases i with
    | type opcode name => exact List.mem_singleton.mp h ▸ .type
    | multiArray name dimensions => exact List.mem_singleton.mp h ▸ .multiArray
    | field opcode owner name descriptor =>
      simp only [Instruction.mentions, List.mem_cons, List.not_mem_nil, or_false] at h
      rcases h with rfl | rfl
      · exact .fieldOwner
      · exact .fieldType
    | method opcode callee =>
      simp only [Instruction.mentions, List.mem_cons, List.not_mem_nil, or_false] at h
      rcases h with rfl | rfl
      · exact .methodOwner
      · exact .methodType
    | callSite name descriptor => exact List.mem_singleton.mp h ▸ .callSite
    | loadClass name => exact List.mem_singleton.mp h ▸ .loadClass
    | loadMethodType descriptor => exact List.mem_singleton.mp h ▸ .loadMethodType
  · rintro (_ | _) <;> simp [Instruction.mentions]

namespace Attribute

theorem says_signature {text : String} : Says (.signature text) m ↔ m = .signature text :=
  ⟨fun | .signature => rfl, fun h => h ▸ .signature⟩

theorem says_exceptions {names : List String} :
    Says (.exceptions names) m ↔ ∃ n ∈ names, m = .operand n :=
  ⟨fun | .exception h => ⟨_, h, rfl⟩, fun ⟨_, h, hm⟩ => hm ▸ .exception h⟩

theorem says_code {body : Code} :
    Says (.code body) m ↔ (∃ i ∈ body.instructions, i.Says m) ∨
      ∃ e ∈ body.handlers, ∃ n, e.catches = some n ∧ m = .operand n := by
  constructor
  · rintro (_ | _ | ⟨h, hm⟩ | ⟨h, hn⟩)
    · exact Or.inl ⟨_, h, hm⟩
    · exact Or.inr ⟨_, h, _, hn, rfl⟩
  · rintro (⟨i, h, hm⟩ | ⟨e, h, n, hn, rfl⟩)
    · exact .instruction h hm
    · exact .caught h hn

theorem says_innerClasses {entries : List InnerClass} :
    Says (.innerClasses entries) m ↔
      ∃ e ∈ entries, m = .operand e.inner ∨ ∃ n, e.outer = some n ∧ m = .operand n := by
  constructor
  · intro h
    cases h with
    | innerClass h => exact ⟨_, h, Or.inl rfl⟩
    | outerClass h hn => exact ⟨_, h, Or.inr ⟨_, hn, rfl⟩⟩
  · rintro ⟨e, h, rfl | ⟨n, hn, rfl⟩⟩
    · exact .innerClass h
    · exact .outerClass h hn

theorem says_enclosingMethod {owner : String} {method : Option (String × String)} :
    Says (.enclosingMethod owner method) m ↔
      m = .operand owner ∨ method.map (fun p => Mention.signature p.2) = some m := by
  constructor
  · intro h
    cases h with
    | enclosingClass => exact Or.inl rfl
    | enclosingMethod => exact Or.inr rfl
  · intro h
    rw [Option.map_eq_some_iff] at h
    obtain rfl | ⟨⟨name, descriptor⟩, rfl, rfl⟩ := h
    · exact .enclosingClass
    · exact .enclosingMethod

theorem says_annotations {visible : Bool} {values : List AnnotationUse} :
    Says (.annotations visible values) m ↔ ∃ a ∈ values, a.Says m :=
  ⟨fun | .annotated h hm => ⟨_, h, hm⟩, fun ⟨_, h, hm⟩ => .annotated h hm⟩

theorem says_parameterAnnotations {visible : Bool} {parameters : List (List AnnotationUse)} :
    Says (.parameterAnnotations visible parameters) m ↔
      ∃ values ∈ parameters, ∃ a ∈ values, a.Says m :=
  ⟨fun | .parameterAnnotated hp h hm => ⟨_, hp, _, h, hm⟩,
    fun ⟨_, hp, _, h, hm⟩ => .parameterAnnotated hp h hm⟩

theorem says_typeAnnotations {visible : Bool} {values : List TypeAnnotationUse} :
    Says (.typeAnnotations visible values) m ↔ ∃ t ∈ values, t.value.Says m :=
  ⟨fun | .typeAnnotated h hm => ⟨_, h, hm⟩, fun ⟨_, h, hm⟩ => .typeAnnotated h hm⟩

theorem says_annotationDefault {v : ElementValue} : Says (.annotationDefault v) m ↔ v.Holds m :=
  ⟨fun | .default h => h, .default⟩

theorem says_localVariables {table : List LocalVariable} :
    Says (.localVariables table) m ↔ ∃ v ∈ table, m = .signature v.descriptor :=
  ⟨fun | .localVariable h => ⟨_, h, rfl⟩, fun ⟨_, h, hm⟩ => hm ▸ .localVariable h⟩

theorem says_localVariableTypes {table : List LocalVariable} :
    Says (.localVariableTypes table) m ↔ ∃ v ∈ table, m = .signature v.descriptor :=
  ⟨fun | .localVariableType h => ⟨_, h, rfl⟩, fun ⟨_, h, hm⟩ => hm ▸ .localVariableType h⟩

theorem says_record {components : List Component} :
    Says (.record components) m ↔ ∃ c ∈ components, m = .signature c.descriptor :=
  ⟨fun | .component h => ⟨_, h, rfl⟩, fun ⟨_, h, hm⟩ => hm ▸ .component h⟩

theorem says_other {name : String} {length : Nat} : ¬ Says (.other name length) m := nofun

end Attribute

mutual

theorem Attribute.mem_mentions (a : Attribute) :
    m ∈ a.mentions ↔ a.Says m ∨ ∃ l ∈ a.inside, AttributesSay l m := by
  cases a with
  | signature text => simp [Attribute.mentions, Attribute.inside, Attribute.says_signature]
  | exceptions names =>
    simp [Attribute.mentions, Attribute.inside, Attribute.says_exceptions, eq_comm]
  | code body =>
    rw [Attribute.mentions, Code.mem_mentions, Attribute.says_code]
    simp [Attribute.inside]
  | innerClasses entries =>
    simp [Attribute.mentions, Attribute.inside, Attribute.says_innerClasses, InnerClass.mentions,
      eq_comm]
  | enclosingMethod owner method =>
    simp [Attribute.mentions, Attribute.inside, Attribute.says_enclosingMethod]
  | annotations visible values =>
    simp [Attribute.mentions, Attribute.inside, Attribute.says_annotations,
      AnnotationUse.mem_mentions]
  | parameterAnnotations visible parameters =>
    simp only [Attribute.mentions, Attribute.inside, Attribute.says_parameterAnnotations,
      List.mem_flatMap, List.mem_flatten, AnnotationUse.mem_mentions, List.not_mem_nil, false_and,
      exists_false, or_false]
    constructor
    · rintro ⟨a, ⟨values, hp, h⟩, hm⟩
      exact ⟨values, hp, a, h, hm⟩
    · rintro ⟨values, hp, a, h, hm⟩
      exact ⟨a, ⟨values, hp, h⟩, hm⟩
  | typeAnnotations visible values =>
    simp [Attribute.mentions, Attribute.inside, Attribute.says_typeAnnotations,
      AnnotationUse.mem_mentions]
  | annotationDefault value =>
    simp [Attribute.mentions, Attribute.inside, Attribute.says_annotationDefault,
      ElementValue.mem_mentions]
  | localVariables table =>
    simp [Attribute.mentions, Attribute.inside, Attribute.says_localVariables,
      LocalVariable.mentions]
  | localVariableTypes table =>
    simp [Attribute.mentions, Attribute.inside, Attribute.says_localVariableTypes,
      LocalVariable.mentions]
  | record components =>
    rw [Attribute.mentions, mem_componentMentions, Attribute.says_record]
    simp [Attribute.inside]
  | other name length => simp [Attribute.mentions, Attribute.inside, Attribute.says_other]

theorem Code.mem_mentions (body : Code) :
    m ∈ body.mentions ↔ ((∃ i ∈ body.instructions, i.Says m) ∨
      ∃ e ∈ body.handlers, ∃ n, e.catches = some n ∧ m = .operand n) ∨
        AttributesSay body.attributes m := by
  obtain ⟨maxStack, maxLocals, instructions, handlers, attributes⟩ := body
  rw [Code.mentions, List.mem_append, List.mem_append, mem_attributeMentions attributes]
  simp [Instruction.mem_mentions, Handler.mentions, eq_comm]

theorem mem_componentMentions (l : List Component) :
    m ∈ componentMentions l ↔
      (∃ c ∈ l, m = .signature c.descriptor) ∨ ∃ c ∈ l, AttributesSay c.attributes m := by
  cases l with
  | nil => simp [componentMentions]
  | cons c rest =>
    obtain ⟨name, descriptor, attributes⟩ := c
    rw [componentMentions, List.mem_cons, List.mem_append, mem_attributeMentions attributes,
      mem_componentMentions rest, ← or_assoc, or_or_or_comm]
    simp only [List.mem_cons, exists_eq_or_imp]

theorem mem_attributeMentions (l : List Attribute) :
    m ∈ attributeMentions l ↔ AttributesSay l m := by
  cases l with
  | nil => simp [attributeMentions, attributesSay_nil]
  | cons a rest =>
    rw [attributeMentions, List.mem_append, Attribute.mem_mentions a, mem_attributeMentions rest,
      attributesSay_cons]

end

/-! ## Classes -/

/-- What a class mentions: in its own name and types, in its members, and in attributes. -/
inductive Says (c : ClassFile) : Mention → Prop
  | own : Says c (.operand c.thisClass)
  | superClass {n : String} (h : c.superClass = some n) : Says c (.operand n)
  | interface {n : String} (h : n ∈ c.interfaces) : Says c (.operand n)
  | member {d : Member} (h : d ∈ c.fields ∨ d ∈ c.methods) : Says c (.signature d.descriptor)
  | inMember {d : Member} {a : Attribute} {m : Mention} (h : d ∈ c.fields ∨ d ∈ c.methods)
    (ha : a.Within d.attributes) (hm : a.Says m) : Says c m
  | inClass {a : Attribute} {m : Mention} (ha : a.Within c.attributes) (hm : a.Says m) : Says c m

/-- **The walk through a class finds every mention, and no other.** -/
theorem mem_mentions {c : ClassFile} : m ∈ c.mentions ↔ c.Says m := by
  simp only [mentions, List.mem_append, List.mem_cons, List.mem_map, Option.mem_toList,
    List.mem_flatMap, Member.mentions, mem_attributeMentions, Option.map_eq_some_iff]
  constructor
  · rintro ((((rfl | ⟨n, hn, rfl⟩) | ⟨n, hn, rfl⟩) | ⟨d, hd, rfl | ⟨a, ha, hm⟩⟩) | ⟨a, ha, hm⟩)
    · exact .own
    · exact .superClass hn
    · exact .interface hn
    · exact .member hd
    · exact .inMember hd ha hm
    · exact .inClass ha hm
  · intro h
    cases h with
    | own => exact Or.inl (Or.inl (Or.inl (Or.inl rfl)))
    | superClass hn => exact Or.inl (Or.inl (Or.inl (Or.inr ⟨_, hn, rfl⟩)))
    | interface hn => exact Or.inl (Or.inl (Or.inr ⟨_, hn, rfl⟩))
    | member hd => exact Or.inl (Or.inr ⟨_, hd, Or.inl rfl⟩)
    | inMember hd ha hm => exact Or.inl (Or.inr ⟨_, hd, Or.inr ⟨_, ha, hm⟩⟩)
    | inClass ha hm => exact Or.inr ⟨_, ha, hm⟩

/-! ## The set of names -/

/-- The text of a mention. -/
def Mention.text : Mention → String
  | operand text => text
  | signature text => text
  | returned text => text

/-- A mention that cannot be read is reported with its text. -/
theorem Mention.eq_badSignature {fault : Fault} (h : m.names = .error fault) :
    fault = .badSignature m.text := by
  have htype : ∀ text, Signature.typeNames text = .error fault → fault = .badSignature text := by
    intro text h
    unfold Signature.typeNames at h
    split at h
    · cases h
    · cases h
      rfl
  cases m with
  | operand text =>
    simp only [Mention.names, Signature.operandNames] at h
    split at h
    · exact htype text h
    · split at h
      · cases h
      · cases h
        rfl
  | signature text => exact htype text h
  | returned text =>
    simp only [Mention.names, Signature.returnNames] at h
    split at h
    · cases h
    · exact htype text h

/-- A list is read element by element, up to the first that cannot be read. -/
theorem mapM_cases {α β ε : Type} (f : α → Except ε β) (l : List α) :
    (∃ r, l.mapM f = .ok r ∧ (∀ a ∈ l, ∃ b ∈ r, f a = .ok b) ∧ ∀ b ∈ r, ∃ a ∈ l, f a = .ok b) ∨
      ∃ e, l.mapM f = .error e ∧ ∃ a ∈ l, f a = .error e := by
  induction l with
  | nil => exact Or.inl ⟨[], rfl, nofun, nofun⟩
  | cons a l ih =>
    rw [List.mapM_cons]
    cases ha : f a with
    | error e => exact Or.inr ⟨e, rfl, a, List.mem_cons_self, ha⟩
    | ok b =>
      rcases ih with ⟨r, hr, hall, honly⟩ | ⟨e, he, a', ha', hf⟩
      · rw [hr]
        refine Or.inl ⟨b :: r, rfl, fun x hx => ?_, fun y hy => ?_⟩
        · rcases List.mem_cons.mp hx with rfl | hx
          · exact ⟨b, List.mem_cons_self, ha⟩
          · obtain ⟨y, hy, hf⟩ := hall x hx
            exact ⟨y, List.mem_cons_of_mem b hy, hf⟩
        · rcases List.mem_cons.mp hy with rfl | hy
          · exact ⟨a, List.mem_cons_self, ha⟩
          · obtain ⟨x, hx, hf⟩ := honly y hy
            exact ⟨x, List.mem_cons_of_mem a hx, hf⟩
      · rw [he]
        exact Or.inr ⟨e, rfl, a', List.mem_cons_of_mem a ha', hf⟩

/-- Either every mention can be read, and there is a set; or some mention cannot, and there is none. -/
theorem references_cases (c : ClassFile) :
    (∃ names, c.references = .ok names ∧ (∀ m, c.Says m → ∃ l, m.names = .ok l) ∧
      ∀ n, n ∈ names ↔
        (∃ m l, c.Says m ∧ m.names = .ok l ∧ n ∈ l) ∧ n.text ∉ primitiveNames) ∨
      ∃ m, c.Says m ∧ m.names = .error (.badSignature m.text) ∧
        c.references = .error (.badSignature m.text) := by
  unfold references
  rcases mapM_cases Mention.names c.mentions with ⟨r, hr, hall, honly⟩ | ⟨e, he, m, hm, hf⟩
  · rw [hr]
    refine Or.inl ⟨_, rfl, fun m hm => ?_, fun n => ?_⟩
    · obtain ⟨l, -, hl⟩ := hall m (mem_mentions.mpr hm)
      exact ⟨l, hl⟩
    · rw [SortedSet.mem_ofList, List.mem_filter, List.mem_flatten]
      constructor
      · rintro ⟨⟨l, hl, hn⟩, htype⟩
        obtain ⟨m, hm, hml⟩ := honly l hl
        exact ⟨⟨m, l, mem_mentions.mp hm, hml, hn⟩,
          (Signature.isTypeName_iff (m.plain_of_mem_names hml hn)).mp htype⟩
      · rintro ⟨⟨m, l, hm, hml, hn⟩, hprimitive⟩
        obtain ⟨l', hl', hml'⟩ := hall m (mem_mentions.mpr hm)
        rw [hml] at hml'
        cases hml'
        exact ⟨⟨l, hl', hn⟩, (Signature.isTypeName_iff (m.plain_of_mem_names hml hn)).mpr hprimitive⟩
  · have := m.eq_badSignature hf
    subst this
    rw [he]
    exact Or.inr ⟨m, mem_mentions.mp hm, hf, rfl⟩

/-- **The extraction is complete, sound, and all or nothing.** There is a set of names exactly if
each mention of the class can be read; it holds the names of all mentions, the primitive types left
out. Else the fault is that of a mention, and names its text. -/
theorem references_exact (c : ClassFile) :
    ((∃ names, c.references = .ok names) ↔ ∀ m, c.Says m → ∃ l, m.names = .ok l) ∧
    (∀ names, c.references = .ok names → ∀ n, n ∈ names ↔
      (∃ m l, c.Says m ∧ m.names = .ok l ∧ n ∈ l) ∧ n.text ∉ primitiveNames) ∧
    ∀ fault, c.references = .error fault →
      ∃ m, c.Says m ∧ m.names = .error fault ∧ fault = .badSignature m.text := by
  rcases references_cases c with ⟨names, hnames, hall, hmem⟩ | ⟨m, hm, hfault, herror⟩
  · refine ⟨⟨fun _ => hall, fun _ => ⟨names, hnames⟩⟩, fun names' h => ?_, fun fault h => ?_⟩
    · rw [hnames] at h
      cases h
      exact hmem
    · rw [hnames] at h
      cases h
  · refine ⟨⟨fun ⟨names, h⟩ => ?_, fun hall => ?_⟩, fun names h => ?_, fun fault h => ?_⟩
    · rw [herror] at h
      cases h
    · obtain ⟨l, hl⟩ := hall m hm
      rw [hfault] at hl
      cases hl
    · rw [herror] at h
      cases h
    · rw [herror] at h
      cases h
      exact ⟨m, hm, hfault, rfl⟩

/-- A record whose component has the signature `text`, and an annotation with an array of values. -/
def recordOf (text : String) : ClassFile where
  minor := 0
  major := 61
  access := 0
  thisClass := "p/R"
  superClass := some "java/lang/Record"
  interfaces := []
  fields := []
  methods := []
  attributes := [.record [⟨"a", "I", [.signature text,
    .annotations true [⟨"Lp/N;", [("v", .array [.enumConstant "Lp/E;" "X", .classLiteral "V"])]⟩]]⟩]]
  pool := ⟨#[]⟩

/-- A record with a signature inside a signature, and one whose signature has no end. -/
theorem references_recordOf :
    (recordOf "Lp/B<[Lp/C;>;").references =
      .ok (.ofList [⟨"java.lang.Record"⟩, ⟨"p.B"⟩, ⟨"p.C"⟩, ⟨"p.E"⟩, ⟨"p.N"⟩, ⟨"p.R"⟩]) ∧
    (∀ n, n ∈ SortedSet.ofList
        [⟨"java.lang.Record"⟩, ⟨"p.B"⟩, ⟨"p.C"⟩, ⟨"p.E"⟩, ⟨"p.N"⟩, ⟨"p.R"⟩] ↔
      (∃ m l, (recordOf "Lp/B<[Lp/C;>;").Says m ∧ m.names = .ok l ∧ n ∈ l) ∧
        n.text ∉ primitiveNames) ∧
    (recordOf "Lp/B").references = .error (.badSignature "Lp/B") ∧
    ∃ m, (recordOf "Lp/B").Says m ∧ m.names = .error (.badSignature "Lp/B") ∧
      Fault.badSignature "Lp/B" = .badSignature m.text := by
  have hread : (recordOf "Lp/B<[Lp/C;>;").references =
      .ok (.ofList [⟨"java.lang.Record"⟩, ⟨"p.B"⟩, ⟨"p.C"⟩, ⟨"p.E"⟩, ⟨"p.N"⟩, ⟨"p.R"⟩]) := by
    decide +kernel
  have hfault : (recordOf "Lp/B").references = .error (.badSignature "Lp/B") := by decide +kernel
  exact ⟨hread, (references_exact _).2.1 _ hread, hfault, (references_exact _).2.2 _ hfault⟩

end VirtualClasspath.ClassFile
