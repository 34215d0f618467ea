import VirtualClasspath.ClassFile.Reader

/-!
# Texts in class files

Class files write texts in a variant of UTF-8: the NUL character takes two bytes, and a character
beyond the basic plane takes two groups of three bytes, one for each half of its UTF-16 form.
`decodeText?` reads a byte string as UTF-8 if it is UTF-8, and otherwise as a sequence of groups of
one, two or three bytes, each a UTF-16 unit.
-/

namespace VirtualClasspath.ClassFile

/-- The six low bits of a continuation byte. -/
def continuation? (b : UInt8) : Option Nat :=
  if b &&& 0xC0 = 0x80 then some (b.toNat % 64) else none

/-- The UTF-16 units that groups of one, two and three bytes write. -/
def units? : Bytes → Option (List Nat)
  | [] => some []
  | a :: rest =>
    if a < 0x80 then
      (units? rest).map (a.toNat :: ·)
    else if a &&& 0xE0 = 0xC0 then
      match rest with
      | b :: rest => do
        let x ← continuation? b
        let us ← units? rest
        return (a.toNat % 32 * 64 + x) :: us
      | [] => none
    else if a &&& 0xF0 = 0xE0 then
      match rest with
      | b :: c :: rest => do
        let x ← continuation? b
        let y ← continuation? c
        let us ← units? rest
        return (a.toNat % 16 * 4096 + x * 64 + y) :: us
      | _ => none
    else none

/-- Whether a UTF-16 unit is the first half of a pair. -/
def isHighSurrogate (u : Nat) : Bool := 0xD800 ≤ u && u < 0xDC00

/-- Whether a UTF-16 unit is the second half of a pair. -/
def isLowSurrogate (u : Nat) : Bool := 0xDC00 ≤ u && u < 0xE000

/-- The characters that UTF-16 units write; a half without its other half writes nothing. -/
def charsOfUnits? : List Nat → Option (List Char)
  | [] => some []
  | u :: rest =>
    if isHighSurrogate u then
      match rest with
      | v :: rest =>
        if isLowSurrogate v then
          (charsOfUnits? rest).map (Char.ofNat (0x10000 + (u - 0xD800) * 1024 + (v - 0xDC00)) :: ·)
        else none
      | [] => none
    else if isLowSurrogate u then none
    else (charsOfUnits? rest).map (Char.ofNat u :: ·)

/-- The text that groups of one to three bytes write. -/
def decodeGroups? (bytes : Bytes) : Option String :=
  (units? bytes >>= charsOfUnits?).map String.ofList

/-- The text that `bytes` write. -/
def decodeText? (bytes : Bytes) : Option String :=
  match String.fromUTF8? ⟨bytes.toArray⟩ with
  | some text => some text
  | none => decodeGroups? bytes

end VirtualClasspath.ClassFile
