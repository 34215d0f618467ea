import VirtualClasspath.ClassFile.Reader
import VirtualClasspath.Text.Cut

/-!
# What a class to be written consists of

A `ClassSpec` is a description of a class from which a class file can be written: names, members,
code as a list of operations, annotations. It says only what a reader of types looks at; no such
class would pass the verification of a virtual machine.
-/

namespace VirtualClasspath.Assembly

mutual

/-- The value of an annotation element. -/
inductive ElementSpec
  | int (value : Int32)
  | string (text : String)
  | enumConstant (type name : String)
  /-- A class literal, by its return descriptor. -/
  | classLiteral (descriptor : String)
  | nested (value : AnnotationSpec)
  | array (values : List ElementSpec)

/-- An annotation. -/
structure AnnotationSpec where
  type : String
  elements : List (String × ElementSpec)

end

/-- The annotations of a declaration, and those on the types in it with their targets. -/
structure AnnotationSet where
  visible : List AnnotationSpec := []
  onTypes : List (UInt8 × AnnotationSpec) := []

/-- A member that an operation refers to. -/
structure MemberSpec where
  owner : String
  name : String
  descriptor : String
  deriving DecidableEq

/-- An operation of a method body. -/
inductive Op
  | new (name : String)
  | newArray (name : String)
  | checkCast (name : String)
  | instanceOf (name : String)
  | multiNewArray (name : String) (dimensions : UInt8)
  | getField (field : MemberSpec)
  | putStatic (field : MemberSpec)
  | invokeVirtual (method : MemberSpec)
  | invokeInterface (method : MemberSpec)
  | invokeDynamic (name descriptor : String)
  | loadClass (name : String)
  | loadMethodType (descriptor : String)
  | loadString (text : String)
  | loadLong (value : Int64)
  | tableSwitch (low high : Int32)
  | lookupSwitch (pairs : UInt32)
  /-- Bytes as they are. -/
  | raw (bytes : Bytes)
  deriving DecidableEq

/-- A method body. A return follows its operations. -/
structure CodeSpec where
  ops : List Op := []
  /-- What each exception handler catches; each guards the whole body. -/
  handlers : List (Option String) := []
  /-- Names and descriptors of local variables. -/
  locals : List (String × String) := []
  /-- Names and signatures of local variables. -/
  localTypes : List (String × String) := []
  annotationsOnTypes : List (UInt8 × AnnotationSpec) := []

/-- A field. -/
structure FieldSpec where
  name : String
  descriptor : String
  signature : Option String := none
  annotations : AnnotationSet := {}

/-- A method. -/
structure MethodSpec where
  name : String
  descriptor : String
  signature : Option String := none
  exceptions : List String := []
  code : Option CodeSpec := none
  annotations : AnnotationSet := {}
  parameterAnnotations : List (List AnnotationSpec) := []
  annotationDefault : Option ElementSpec := none

/-- Adds to the list at position `i`, after as many empty lists as it takes to get there. -/
def addAt {α : Type} (a : α) : (i : Nat) → List (List α) → List (List α)
  | 0, [] => [[a]]
  | 0, l :: ls => (l ++ [a]) :: ls
  | i + 1, [] => [] :: addAt a i []
  | i + 1, l :: ls => l :: addAt a i ls

/-- The method with an annotation on its parameter number `i`. -/
def MethodSpec.annotateParameter (m : MethodSpec) (i : Nat) (a : AnnotationSpec) :
    MethodSpec :=
  { m with parameterAnnotations := addAt a i m.parameterAnnotations }

/-- An entry of the table of nested classes. -/
structure InnerClassSpec where
  inner : String
  outer : Option String
  name : Option String
  access : UInt16
  deriving DecidableEq

/-- A class. -/
structure ClassSpec where
  /-- The internal name. -/
  name : String
  superClass : Option String := some "java/lang/Object"
  interfaces : List String := []
  access : UInt16 := 0x0021
  signature : Option String := none
  fields : List FieldSpec := []
  methods : List MethodSpec := []
  innerClasses : List InnerClassSpec := []
  /-- The class, and the name and descriptor of the method, that the class is declared in. -/
  enclosingMethod : Option (String × Option (String × String)) := none
  annotations : AnnotationSet := {}
  /-- Names and bodies of attributes that are written as they are. -/
  rawAttributes : List (String × Bytes) := []

/-- The flag of a public class or member. -/
def accPublic : UInt16 := 0x0001

/-- The class as a member of `outer`: its simple name is what follows the last `$`. -/
def ClassSpec.memberOf (c : ClassSpec) (outer : String) : ClassSpec :=
  let simple := (Text.cutLast '$' c.name.toList).map fun p => String.ofList p.2
  { c with innerClasses := c.innerClasses ++ [⟨c.name, some outer, simple, accPublic⟩] }

end VirtualClasspath.Assembly
