import VirtualClasspath.ClassFile.Reader

/-!
# The constant pool of a class being written

While a class is written, every text and every name that it needs is put into a `PoolDraft`, which
answers with its index: the old one if the entry is there already, the next free one otherwise. A
number of eight bytes takes two indices.
-/

namespace VirtualClasspath.Assembly

/-- A number in two bytes, the high one first. -/
def u2Bytes (n : UInt16) : Bytes :=
  [.ofNat (n.toNat / 256), .ofNat (n.toNat % 256)]

/-- A number in four bytes, the high one first. -/
def u4Bytes (n : UInt32) : Bytes :=
  u2Bytes (.ofNat (n.toNat / 65536)) ++ u2Bytes (.ofNat (n.toNat % 65536))

/-- A number in eight bytes, the high one first. -/
def u8Bytes (n : UInt64) : Bytes :=
  u4Bytes (.ofNat (n.toNat / 4294967296)) ++ u4Bytes (.ofNat (n.toNat % 4294967296))

/-- The length of a list, in two bytes. -/
def countBytes {α : Type} (l : List α) : Bytes := u2Bytes (.ofNat l.length)

/-- An entry of the pool, with the indices that it refers to. -/
inductive PoolEntry
  | utf8 (text : String)
  | integer (value : Int32)
  | long (value : Int64)
  | classRef (name : UInt16)
  | string (text : UInt16)
  | fieldRef (owner nameAndType : UInt16)
  | methodRef (owner nameAndType : UInt16)
  | interfaceMethodRef (owner nameAndType : UInt16)
  | nameAndType (name descriptor : UInt16)
  | methodType (descriptor : UInt16)
  | invokeDynamic (bootstrap nameAndType : UInt16)
  deriving DecidableEq

/-- The number of indices that an entry takes. -/
def PoolEntry.width : PoolEntry → UInt16
  | long _ => 2
  | _ => 1

/-- The bytes of a text. -/
def textBytes (s : String) : Bytes := s.toUTF8.data.toList

/-- The bytes of an entry, its tag first. -/
def PoolEntry.bytes : PoolEntry → Bytes
  | utf8 text => 1 :: countBytes (textBytes text) ++ textBytes text
  | integer value => 3 :: u4Bytes value.toUInt32
  | long value => 5 :: u8Bytes value.toUInt64
  | .classRef name => 7 :: u2Bytes name
  | string text => 8 :: u2Bytes text
  | fieldRef owner nat => 9 :: u2Bytes owner ++ u2Bytes nat
  | methodRef owner nat => 10 :: u2Bytes owner ++ u2Bytes nat
  | interfaceMethodRef owner nat => 11 :: u2Bytes owner ++ u2Bytes nat
  | nameAndType name descriptor => 12 :: u2Bytes name ++ u2Bytes descriptor
  | methodType descriptor => 16 :: u2Bytes descriptor
  | invokeDynamic bootstrap nat => 18 :: u2Bytes bootstrap ++ u2Bytes nat

/-- A constant pool that is being filled. -/
structure PoolDraft where
  /-- The entries with their indices, the newest first. -/
  entries : List (PoolEntry × UInt16)
  /-- The next free index. -/
  next : UInt16

namespace PoolDraft

/-- The pool without entries. -/
def empty : PoolDraft := ⟨[], 1⟩

/-- The index of an entry, and the pool with it. -/
def add (p : PoolDraft) (e : PoolEntry) : UInt16 × PoolDraft :=
  match p.entries.lookup e with
  | some index => (index, p)
  | none => (p.next, ⟨(e, p.next) :: p.entries, p.next + e.width⟩)

/-- The pool as it stands in the class file. -/
def bytes (p : PoolDraft) : Bytes :=
  u2Bytes p.next ++ p.entries.reverse.flatMap fun e => e.1.bytes

end PoolDraft

/-- Writes a part of a class file, putting what it refers to into the pool. -/
abbrev Writer := StateM PoolDraft

namespace Writer

/-- The index of an entry. -/
def add (e : PoolEntry) : Writer UInt16 := fun p => p.add e

/-- The index of a text. -/
def utf8 (text : String) : Writer UInt16 := add (.utf8 text)

/-- The index of a class. -/
def classRef (internal : String) : Writer UInt16 := do
  add (.classRef (← utf8 internal))

/-- The index of a name and a descriptor. -/
def nameAndType (name descriptor : String) : Writer UInt16 := do
  let name ← utf8 name
  let descriptor ← utf8 descriptor
  add (.nameAndType name descriptor)

/-- The index of a class, or 0 for none. -/
def classRef? : Option String → Writer UInt16
  | some internal => classRef internal
  | none => return 0

/-- The index of a text, or 0 for none. -/
def utf8? : Option String → Writer UInt16
  | some text => utf8 text
  | none => return 0

/-- The parts that are written for the elements of a list, one after the other. -/
def each {α : Type} (f : α → Writer Bytes) : List α → Writer Bytes
  | [] => return []
  | a :: rest => do
    let head ← f a
    let tail ← each f rest
    return head ++ tail

/-- The length of a list in two bytes, then what is written for its elements. -/
def table {α : Type} (f : α → Writer Bytes) (l : List α) : Writer Bytes := do
  return countBytes l ++ (← each f l)

end Writer

end VirtualClasspath.Assembly
