import VirtualClasspath.ClassFile.Attribute
import VirtualClasspath.TypeName

/-!
# Class files

`ClassFile.parse` reads a byte string as one class, with every name and descriptor resolved through
the constant pool. The parts that name no types are checked for length only.
-/

namespace VirtualClasspath

/-- A field or a method of a class. -/
structure ClassFile.Member where
  access : UInt16
  name : String
  descriptor : String
  attributes : List ClassFile.Attribute

/-- One class. Names of classes are internal names, such as `java/util/Map$Entry`. -/
structure ClassFile where
  minor : UInt16
  major : UInt16
  access : UInt16
  thisClass : String
  superClass : Option String
  interfaces : List String
  fields : List ClassFile.Member
  methods : List ClassFile.Member
  attributes : List ClassFile.Attribute
  pool : ClassFile.Pool

namespace ClassFile

open Reader

/-- The number that every class file begins with. -/
def magic : UInt32 := 0xCAFEBABE

/-- The flag of an interface. -/
def accInterface : UInt16 := 0x0200

/-- A field or a method. -/
def Member.read (pool : Pool) : Reader Member := do
  let access ← u2
  let name ← pool.readUtf8
  let descriptor ← pool.readUtf8
  let attributes ← Attribute.readAll pool
  return { access, name, descriptor, attributes }

/-- The first number of a class file. -/
def readMagic : Reader Unit := do
  let found ← u4
  if found = magic then return else liftResult (.error .badMagic)

/-- One class. -/
def read : Reader ClassFile := do
  readMagic
  let minor ← u2
  let major ← u2
  let pool ← Pool.read
  let access ← u2
  let thisClass ← pool.readClassName
  let superClass ← pool.readClassName?
  let interfaces ← table pool.readClassName
  let fields ← table (Member.read pool)
  let methods ← table (Member.read pool)
  let attributes ← Attribute.readAll pool
  return {
    minor, major, access, thisClass, superClass, interfaces, fields, methods, attributes, pool }

/-- The class that `bytes` are, from the first byte to the last. -/
def parse (bytes : Bytes) : Except Fault ClassFile :=
  match read bytes with
  | .error fault => .error fault
  | .ok (value, []) => .ok value
  | .ok (_, rest) => .error (.trailingBytes rest.length)

/-! ## What a class says about itself -/

/-- The name of the class. -/
def name (c : ClassFile) : TypeName := .ofInternal c.thisClass

/-- The name of the super class; only the root of the hierarchy has none. -/
def superName (c : ClassFile) : Option TypeName := c.superClass.map .ofInternal

/-- The names of the interfaces. -/
def interfaceNames (c : ClassFile) : List TypeName := c.interfaces.map .ofInternal

/-- The names of the fields. -/
def fieldNames (c : ClassFile) : List String := c.fields.map (·.name)

/-- The names of the methods. -/
def methodNames (c : ClassFile) : List String := c.methods.map (·.name)

/-- Whether the class is an interface. -/
def isInterface (c : ClassFile) : Bool := c.access &&& accInterface ≠ 0

/-- The entries of the tables of nested classes. -/
def innerClasses (c : ClassFile) : List InnerClass :=
  c.attributes.flatMap fun
    | .innerClasses entries => entries
    | _ => []

/-- The class that a local class is declared in. -/
def enclosingClass (c : ClassFile) : Option String :=
  c.attributes.findSome? fun
    | .enclosingMethod owner _ => some owner
    | _ => none

end ClassFile

end VirtualClasspath
