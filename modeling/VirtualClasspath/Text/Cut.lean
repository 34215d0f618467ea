/-!
# Cutting texts apart

Splitting at the first or last occurrence of a character, splitting at every occurrence, removing
a known beginning, and exchanging one character for another. `trim` drops a run of blank characters
from both ends of a text, `trimEnd` a run of any class from the end only; `isBlank` is the Unicode
property `White_Space`. All work on lists of characters; the functions on `String` wrap them.
-/

namespace VirtualClasspath.Text

/-! ## Splitting -/

/-- What precedes and what follows the first `c`. -/
def cutFirst (c : Char) : List Char → Option (List Char × List Char)
  | [] => none
  | x :: xs => if x = c then some ([], xs) else (cutFirst c xs).map fun p => (x :: p.1, p.2)

/-- What precedes and what follows the last `c`. -/
def cutLast (c : Char) : List Char → Option (List Char × List Char)
  | [] => none
  | x :: xs =>
    match cutLast c xs with
    | some (pre, post) => some (x :: pre, post)
    | none => if x = c then some ([], xs) else none

/-- The pieces between the occurrences of `c`; a text without `c` is one piece. -/
def pieces (c : Char) : List Char → List (List Char)
  | [] => [[]]
  | x :: xs =>
    match pieces c xs with
    | [] => [[]]
    | p :: ps => if x = c then [] :: p :: ps else (x :: p) :: ps

/-- What follows the beginning `pre`, if the text begins so. -/
def after? : (pre : List Char) → List Char → Option (List Char)
  | [], ys => some ys
  | _ :: _, [] => none
  | x :: xs, y :: ys => if x = y then after? xs ys else none

/-- Every `a` made a `b`. -/
def exchange (a b : Char) (s : String) : String :=
  s.map fun c => if c = a then b else c

/-- What follows the beginning `pre` of `s`. -/
def stripBeginning? (pre s : String) : Option String :=
  (after? pre.toList s.toList).map String.ofList

/-- Whether `s` begins with `pre`. -/
def beginsWith (pre s : String) : Bool :=
  (after? pre.toList s.toList).isSome

/-- Whether `c` occurs in `s`. -/
def hasChar (c : Char) (s : String) : Bool :=
  s.toList.contains c

/-- The text with the first occurrence of `pat` made `sub`, if `pat` occurs. -/
def replaceFirst? (pat sub : List Char) : List Char → Option (List Char)
  | [] => (after? pat []).map (sub ++ ·)
  | x :: xs =>
    match after? pat (x :: xs) with
    | some rest => some (sub ++ rest)
    | none => (replaceFirst? pat sub xs).map (x :: ·)

/-! ## Trimming -/

/-- The characters with the Unicode property `White_Space`. -/
def isBlank (c : Char) : Bool :=
  let n := c.toNat
  (9 ≤ n && n ≤ 13) || n == 0x20 || n == 0x85 || n == 0xA0 || n == 0x1680 ||
    (0x2000 ≤ n && n ≤ 0x200A) || n == 0x2028 || n == 0x2029 || n == 0x202F || n == 0x205F ||
    n == 0x3000

/-- Without the characters of class `p` at the end. -/
def dropEndWhile (p : Char → Bool) (cs : List Char) : List Char :=
  (cs.reverse.dropWhile p).reverse

/-- Without the blank characters at both ends. -/
def trimChars (cs : List Char) : List Char :=
  dropEndWhile isBlank (cs.dropWhile isBlank)

/-- Without the blank characters at both ends. -/
def trim (s : String) : String :=
  String.ofList (trimChars s.toList)

/-- Without the characters of class `p` at the end. -/
def trimEnd (p : Char → Bool) (s : String) : String :=
  String.ofList (dropEndWhile p s.toList)

end VirtualClasspath.Text
