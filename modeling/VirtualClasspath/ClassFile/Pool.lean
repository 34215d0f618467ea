import VirtualClasspath.ClassFile.ModifiedUtf8

/-!
# The constant pool

A class file keeps its texts, names and descriptors in one table, and every other part of it refers
to the table by index. Index 0 stands for nothing, and an entry of eight bytes takes two indices,
of which the second stands for nothing either: `Pool.slots` holds `none` there.
-/

namespace VirtualClasspath.ClassFile

/-- An entry of the pool, with the indices that it refers to. -/
inductive Constant
  | utf8 (text : String)
  | integer
  | float
  | long
  | double
  | classRef (name : UInt16)
  | string (text : UInt16)
  | fieldRef (owner nameAndType : UInt16)
  | methodRef (owner nameAndType : UInt16)
  | interfaceMethodRef (owner nameAndType : UInt16)
  | nameAndType (name descriptor : UInt16)
  | methodHandle (kind : UInt8) (reference : UInt16)
  | methodType (descriptor : UInt16)
  | dynamic (bootstrap nameAndType : UInt16)
  | invokeDynamic (bootstrap nameAndType : UInt16)
  | module (name : UInt16)
  | package (name : UInt16)
  deriving DecidableEq

/-- Whether the entry takes two indices. -/
def Constant.isWide : Constant → Bool
  | long | double => true
  | _ => false

/-- The constant pool of a class. -/
structure Pool where
  /-- What each index stands for. -/
  slots : Array (Option Constant)
  deriving DecidableEq

/-- A member of a class as an instruction refers to it. -/
structure MemberRef where
  /-- Internal name of the class. -/
  owner : String
  name : String
  descriptor : String
  /-- Whether it is a method of an interface. -/
  isInterface : Bool
  deriving DecidableEq

namespace Pool

/-- The number of indices, 0 included. -/
def size (p : Pool) : Nat := p.slots.size

/-- Whether no index stands for an entry. -/
def isEmpty (p : Pool) : Bool := p.size ≤ 1

/-! ## Looking entries up -/

/-- The entry at `index`. -/
def get (p : Pool) (index : UInt16) : Except Fault Constant :=
  match p.slots[index.toNat]? with
  | some (some c) => .ok c
  | _ => .error (.badIndex index)

/-- The text at `index`. -/
def utf8 (p : Pool) (index : UInt16) : Except Fault String := do
  match ← p.get index with
  | .utf8 text => return text
  | _ => throw (.wrongConstant index .utf8)

/-- The text at `index`, where 0 says that there is none. -/
def utf8? (p : Pool) (index : UInt16) : Except Fault (Option String) :=
  if index = 0 then .ok none else (p.utf8 index).map some

/-- The internal name, or the array descriptor, of the class at `index`. -/
def className (p : Pool) (index : UInt16) : Except Fault String := do
  match ← p.get index with
  | .classRef name => p.utf8 name
  | _ => throw (.wrongConstant index .classRef)

/-- The name of the class at `index`, where 0 says that there is none. -/
def className? (p : Pool) (index : UInt16) : Except Fault (Option String) :=
  if index = 0 then .ok none else (p.className index).map some

/-- The name and the descriptor at `index`. -/
def nameAndType (p : Pool) (index : UInt16) : Except Fault (String × String) := do
  match ← p.get index with
  | .nameAndType name descriptor => return (← p.utf8 name, ← p.utf8 descriptor)
  | _ => throw (.wrongConstant index .nameAndType)

/-- The member of the class at `owner` with the name and descriptor at `nat`. -/
def member (p : Pool) (owner nat : UInt16) (isInterface : Bool) : Except Fault MemberRef := do
  let owner ← p.className owner
  let (name, descriptor) ← p.nameAndType nat
  return { owner, name, descriptor, isInterface }

/-- The field or method at `index`. -/
def memberRef (p : Pool) (index : UInt16) : Except Fault MemberRef := do
  match ← p.get index with
  | .fieldRef owner nat => p.member owner nat false
  | .methodRef owner nat => p.member owner nat false
  | .interfaceMethodRef owner nat => p.member owner nat true
  | _ => throw (.wrongConstant index .member)

/-- The name and the descriptor of the call site at `index`. -/
def callSite (p : Pool) (index : UInt16) : Except Fault (String × String) := do
  match ← p.get index with
  | .invokeDynamic _ nat => p.nameAndType nat
  | _ => throw (.wrongConstant index .callSite)

/-! ## Reading the pool -/

open Reader

/-- The text of an entry. -/
def readText : Reader Constant := do
  let length ← u2
  let bytes ← take length.toNat
  match decodeText? bytes with
  | some text => return .utf8 text
  | none => liftResult (.error .badText)

/-- One entry, its tag first. -/
def readConstant : Reader Constant := do
  let tag ← u1
  match tag with
  | 1 => readText
  | 3 => do skip 4; return .integer
  | 4 => do skip 4; return .float
  | 5 => do skip 8; return .long
  | 6 => do skip 8; return .double
  | 7 => return .classRef (← u2)
  | 8 => return .string (← u2)
  | 9 => return .fieldRef (← u2) (← u2)
  | 10 => return .methodRef (← u2) (← u2)
  | 11 => return .interfaceMethodRef (← u2) (← u2)
  | 12 => return .nameAndType (← u2) (← u2)
  | 15 => return .methodHandle (← u1) (← u2)
  | 16 => return .methodType (← u2)
  | 17 => return .dynamic (← u2) (← u2)
  | 18 => return .invokeDynamic (← u2) (← u2)
  | 19 => return .module (← u2)
  | 20 => return .package (← u2)
  | tag => liftResult (.error (.unsupportedConstant tag))

/-- The entries for the next `n` indices. An entry of two indices may be the last one. -/
def readSlots : Nat → Reader (List (Option Constant))
  | 0 => return []
  | 1 => return [some (← readConstant)]
  | n + 2 => do
    let c ← readConstant
    if c.isWide then
      return some c :: none :: (← readSlots n)
    else
      return some c :: (← readSlots (n + 1))

/-- The pool: the number of its indices, then its entries. -/
def read : Reader Pool := do
  let count ← u2
  let slots ← readSlots (count.toNat - 1)
  return ⟨(none :: slots).toArray⟩

/-! ## Reading references -/

/-- A reference to a text. -/
def readUtf8 (p : Pool) : Reader String := do liftResult (p.utf8 (← u2))

/-- A reference to a text, or 0. -/
def readUtf8? (p : Pool) : Reader (Option String) := do liftResult (p.utf8? (← u2))

/-- A reference to a class. -/
def readClassName (p : Pool) : Reader String := do liftResult (p.className (← u2))

/-- A reference to a class, or 0. -/
def readClassName? (p : Pool) : Reader (Option String) := do liftResult (p.className? (← u2))

end Pool

end VirtualClasspath.ClassFile
