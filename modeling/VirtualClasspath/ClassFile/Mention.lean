import VirtualClasspath.ClassFile.Basic
import VirtualClasspath.Signature.Scan
import VirtualClasspath.Sorted.Set

/-!
# The types that a class mentions

A class mentions types in the operands of its instructions, in descriptors and signatures, and in
the return descriptors of class literals. `ClassFile.mentions` lists all of them, wherever they
stand, in the order of the file; `ClassFile.references` is the set of the names in them. One mention
that cannot be read makes the whole class unreadable.

`references` is `collect_type_names` and `referencesOf` is `extract_type_names` (section 4.1 of the
specification). Out of scope: the values of constants, and whatever else names no type.
-/

namespace VirtualClasspath.ClassFile

/-- A text of a class that names types. -/
inductive Mention
  /-- An internal name, or an array descriptor. -/
  | operand (text : String)
  /-- A descriptor or a signature. -/
  | signature (text : String)
  /-- The return descriptor of a class literal. -/
  | returned (text : String)
  deriving DecidableEq

/-- The types that a mention names. -/
def Mention.names : Mention → Except Fault (List TypeName)
  | operand text => Signature.operandNames text
  | signature text => Signature.typeNames text
  | returned text => Signature.returnNames text

mutual

/-- The mentions in the value of an annotation element. -/
def ElementValue.mentions : ElementValue → List Mention
  | .const _ => []
  | .enumConstant type _ => [.signature type]
  | .classLiteral descriptor => [.returned descriptor]
  | .nested value => value.mentions
  | .array values => valueMentions values

/-- The mentions in an annotation. -/
def AnnotationUse.mentions : AnnotationUse → List Mention
  | ⟨type, elements⟩ => .signature type :: elementMentions elements

/-- The mentions in the elements of an annotation. -/
def elementMentions : List (String × ElementValue) → List Mention
  | [] => []
  | (_, value) :: rest => value.mentions ++ elementMentions rest

/-- The mentions in the values of an array. -/
def valueMentions : List ElementValue → List Mention
  | [] => []
  | value :: rest => value.mentions ++ valueMentions rest

end

/-- The mentions in an instruction. -/
def Instruction.mentions : Instruction → List Mention
  | .type _ name => [.operand name]
  | .multiArray name _ => [.operand name]
  | .field _ owner _ descriptor => [.operand owner, .signature descriptor]
  | .method _ callee => [.operand callee.owner, .signature callee.descriptor]
  | .callSite _ descriptor => [.signature descriptor]
  | .loadClass name => [.operand name]
  | .loadMethodType descriptor => [.signature descriptor]

/-- The mentions in an entry of the table of nested classes. -/
def InnerClass.mentions (e : InnerClass) : List Mention :=
  .operand e.inner :: (e.outer.map Mention.operand).toList

/-- The mention of what an exception handler catches. -/
def Handler.mentions (h : Handler) : List Mention :=
  (h.catches.map Mention.operand).toList

/-- The mention of the type of a local variable. -/
def LocalVariable.mentions (v : LocalVariable) : List Mention := [.signature v.descriptor]

mutual

/-- The mentions in an attribute. -/
def Attribute.mentions : Attribute → List Mention
  | .signature text => [.signature text]
  | .exceptions names => names.map .operand
  | .code body => body.mentions
  | .innerClasses entries => entries.flatMap InnerClass.mentions
  | .enclosingMethod owner method =>
    .operand owner :: (method.map fun m => Mention.signature m.2).toList
  | .annotations _ values => values.flatMap AnnotationUse.mentions
  | .parameterAnnotations _ parameters => parameters.flatten.flatMap AnnotationUse.mentions
  | .typeAnnotations _ values => values.flatMap fun t => t.value.mentions
  | .annotationDefault value => value.mentions
  | .localVariables table => table.flatMap LocalVariable.mentions
  | .localVariableTypes table => table.flatMap LocalVariable.mentions
  | .record components => componentMentions components
  | .other _ _ => []

/-- The mentions in a method body. -/
def Code.mentions : Code → List Mention
  | ⟨_, _, instructions, handlers, attributes⟩ =>
    instructions.flatMap Instruction.mentions ++ handlers.flatMap Handler.mentions ++
      attributeMentions attributes

/-- The mentions in the components of a record. -/
def componentMentions : List Component → List Mention
  | [] => []
  | ⟨_, descriptor, attributes⟩ :: rest =>
    .signature descriptor :: (attributeMentions attributes ++ componentMentions rest)

/-- The mentions in a list of attributes. -/
def attributeMentions : List Attribute → List Mention
  | [] => []
  | a :: rest => a.mentions ++ attributeMentions rest

end

/-- The mentions in a field or a method. -/
def Member.mentions (m : Member) : List Mention :=
  .signature m.descriptor :: attributeMentions m.attributes

/-- Everything that a class mentions, in the order of the file. -/
def mentions (c : ClassFile) : List Mention :=
  .operand c.thisClass :: (c.superClass.map Mention.operand).toList ++
    c.interfaces.map .operand ++ (c.fields ++ c.methods).flatMap Member.mentions ++
    attributeMentions c.attributes

/-! ## The set of names -/

/-- The names of the primitive types and of `void`. -/
def primitiveNames : List String :=
  ["void", "boolean", "byte", "char", "short", "int", "long", "float", "double"]

/-- Whether a text ends with `[]`. -/
def endsAsArray (cs : List Char) : Bool := (Text.after? [']', '['] cs.reverse).isSome

/-- Whether a name is that of a class, and not of a primitive type or what is left of a
descriptor. -/
def isTypeName (n : TypeName) : Bool :=
  n.text ≠ "" && !primitiveNames.contains n.text && !endsAsArray n.text.toList &&
    !n.text.toList.any fun c => [';', '<', '>', '/', '['].contains c

/-- The types that a class refers to, its own name among them. -/
def references (c : ClassFile) : Except Fault (SortedSet TypeName) := do
  let names ← c.mentions.mapM Mention.names
  return .ofList (names.flatten.filter isTypeName)

/-- The types that the class with these bytes refers to. -/
def referencesOf (bytes : Bytes) : Except Fault (SortedSet TypeName) := do
  (← parse bytes).references

end VirtualClasspath.ClassFile
