import VirtualClasspath.Proofs.Signature.Positions
import VirtualClasspath.Signature.Scan

/-!
# The scanner over the bytes of a text

The scanner of `Signature.Scan` takes characters off a list, and its types say that it ends. Here it
is written the way it runs: a cursor moves over the bytes of the text, a name is cut out of the text
between two positions, and the type arguments around a type are counted. Nothing in these
definitions keeps a position between characters, a level from being left where there is none, or a
loop from running on. A scan that does one of the first two is `broken`. One that does the last is
`none`: a loop may go round as often as it has `rounds`, and a type contains types as deep as it has
`rounds`.

`Progress` shows that none of this happens where there are more rounds than bytes, `Agreement` that
the answers are those of `Signature.Scan`, however many more.
-/

namespace VirtualClasspath.Signature.Bytewise

open ClassFile (Fault)

/-! ## Steps -/

/-- Why a scan ends early. -/
inductive Stop
  /-- The text is refused. -/
  | refused (fault : Fault)
  /-- A piece is to be taken whose ends do not lie between characters, or a level is to be left
  where there is none. -/
  | broken

/-- Where a scan stands. -/
structure Cursor where
  /-- The number of bytes that it has passed. -/
  pos : Nat
  /-- The number of type arguments that it is in. -/
  depth : Nat
  /-- The classes that it has come across. -/
  names : List TypeName

/-- The cursor after some more bytes. -/
def Cursor.passed (c : Cursor) (n : Nat) : Cursor := { c with pos := c.pos + n }

/-- The cursor after one more class. -/
def Cursor.named (c : Cursor) (n : TypeName) : Cursor := { c with names := c.names ++ [n] }

/-- A part of a scan. It is `none` where a loop has used up its rounds. -/
abbrev Scan := StateT Cursor (ExceptT Stop Option)

/-- No round is left. -/
def exhausted {α : Type} : Scan α := fun _ => ExceptT.mk none

/-- Whether a byte is one of some characters of ASCII. -/
def isOneOf (cs : List Char) (b : UInt8) : Bool := cs.any fun c => b = c.toUInt8

/-- The number of bytes passed. -/
def position : Scan Nat := return (← get).pos

/-- The number of type arguments around. -/
def level : Scan Nat := return (← get).depth

/-- Passes a byte. -/
def advance : Scan Unit := modify fun c => c.passed 1

/-- Notes a class. -/
def report (n : TypeName) : Scan Unit := modify fun c => c.named n

/-- Goes into type arguments. -/
def enter : Scan Unit := modify fun c => { c with depth := c.depth + 1 }

/-- Comes out of type arguments. -/
def leave : Scan Unit := do
  match ← level with
  | 0 => throw .broken
  | depth + 1 => modify fun c => { c with depth }

section Text

variable (text : String)

/-- Ends the scan of a text that is malformed. -/
def refuse {α : Type} : Scan α := throw (.refused (.badSignature text))

/-- The next byte. -/
def peek : Scan UInt8 := do
  match (Assembly.textBytes text)[← position]? with
  | some b => return b
  | none => refuse text

/-- Whether all bytes are passed. -/
def atEnd : Scan Bool := return (Assembly.textBytes text).length ≤ (← position)

/-- Passes a byte that has to be the given one. -/
def expect (c : Char) : Scan Unit := do
  if (← peek text) = c.toUInt8 then advance else refuse text

/-- The text between two positions. -/
def slice (start stop : Nat) : Scan String :=
  if h : start ≤ stop ∧ String.Pos.Raw.IsValid text ⟨start⟩ ∧
      String.Pos.Raw.IsValid text ⟨stop⟩ then
    return text.extract ⟨⟨start⟩, h.2.1⟩ ⟨⟨stop⟩, h.2.2⟩
  else throw .broken

/-! ## Names and brackets -/

/-- Passes bytes up to one that `stop` holds for. -/
def skipTo (stop : UInt8 → Bool) : (rounds : Nat) → Scan Unit
  | 0 => exhausted
  | rounds + 1 => do
    if stop (← peek text) then return
    else
      advance
      skipTo stop rounds

/-- The text up to the byte that ends a name. -/
def identifier (rounds : Nat) : Scan String := do
  let start ← position
  skipTo text (isOneOf ['<', '.', ';']) rounds
  let stop ← position
  if stop = start then refuse text else slice text start stop

/-- Passes opening brackets, of which there have been some already. -/
def skipBrackets : (rounds dimensions : Nat) → Scan Unit
  | 0, _ => exhausted
  | rounds + 1, dimensions => do
    if (← peek text) = '['.toUInt8 then
      if maxDimensions < dimensions + 1 then refuse text
      else
        advance
        skipBrackets rounds (dimensions + 1)
    else return

/-- A type variable, after its `T`. -/
def typeVariable (rounds : Nat) : Scan Unit := do
  let start ← position
  skipTo text (isOneOf [';']) rounds
  if (← position) = start then refuse text else advance

/-! ## Types -/

section Types

variable (type : Scan Unit)

/-- Type arguments up to the closing bracket, given how a type is read. -/
def argumentList : (rounds : Nat) → Scan Unit
  | 0 => exhausted
  | rounds + 1 => do
    let b ← peek text
    if b = '>'.toUInt8 then return
    else if b = '*'.toUInt8 then
      advance
      argumentList rounds
    else if isOneOf ['+', '-'] b then
      advance
      type
      argumentList rounds
    else
      type
      argumentList rounds

/-- Type arguments. -/
def typeArguments (rounds : Nat) : Scan Unit := do
  expect text '<'
  if (← peek text) = '>'.toUInt8 ∨ (← level) = maxArgumentDepth then refuse text
  else
    enter
    argumentList text type rounds
    advance
    leave

/-- What follows the name of a class. -/
def suffixes : (rounds : Nat) → TypeName → Scan Unit
  | 0, _ => exhausted
  | rounds + 1, name => do
    let b ← peek text
    if b = '<'.toUInt8 then
      typeArguments text type (rounds + 1)
      suffixes rounds name
    else if b = '.'.toUInt8 then
      advance
      let simple ← identifier text (rounds + 1)
      if simple.toList.contains '/' || !isInternalName simple.toList then refuse text
      else
        report ⟨name.text ++ "$" ++ simple⟩
        suffixes rounds ⟨name.text ++ "$" ++ simple⟩
    else if b = ';'.toUInt8 then advance
    else refuse text

/-- A class type. -/
def classTypeSignature (rounds : Nat) : Scan Unit := do
  expect text 'L'
  let internal ← identifier text rounds
  if isInternalName internal.toList then
    report (.ofInternal internal)
    suffixes text type rounds (.ofInternal internal)
  else refuse text

end Types

/-- A type. The types in its type arguments are read by itself. -/
def typeSignature : (rounds : Nat) → Scan Unit
  | 0 => exhausted
  | rounds + 1 => do
    skipBrackets text (rounds + 1) 0
    let b ← peek text
    if isOneOf ['B', 'C', 'D', 'F', 'I', 'J', 'S', 'Z'] b then advance
    else if b = 'T'.toUInt8 then
      advance
      typeVariable text (rounds + 1)
    else if b = 'L'.toUInt8 then classTypeSignature text (typeSignature rounds) (rounds + 1)
    else refuse text

/-! ## Whole signatures -/

section Whole

variable (type : Scan Unit)

/-- The bounds of a type parameter. -/
def boundList : (rounds : Nat) → Scan Unit
  | 0 => exhausted
  | rounds + 1 => do
    if ← atEnd text then return
    else if (← peek text) = ':'.toUInt8 then
      advance
      if isOneOf ['L', 'T', '['] (← peek text) then
        type
        boundList rounds
      else boundList rounds
    else return

/-- Type parameters up to the closing bracket. -/
def parameterList : (rounds : Nat) → Scan Unit
  | 0 => exhausted
  | rounds + 1 => do
    if (← peek text) = '>'.toUInt8 then return
    else
      let start ← position
      skipTo text (isOneOf [':']) (rounds + 1)
      if (← position) = start then refuse text
      else
        boundList text type (rounds + 1)
        parameterList rounds

/-- The type parameters of a class or a method. -/
def formalTypeParameters (rounds : Nat) : Scan Unit := do
  expect text '<'
  parameterList text type rounds
  advance

/-- The parameter types of a method, up to the closing parenthesis. -/
def methodParameters : (rounds : Nat) → Scan Unit
  | 0 => exhausted
  | rounds + 1 => do
    if (← peek text) = ')'.toUInt8 then return
    else
      type
      methodParameters rounds

/-- The types that a method throws. -/
def thrownList : (rounds : Nat) → Scan Unit
  | 0 => exhausted
  | rounds + 1 => do
    if ← atEnd text then return
    else
      expect text '^'
      type
      thrownList rounds

/-- Types to the end of the text. -/
def typeList : (rounds : Nat) → Scan Unit
  | 0 => exhausted
  | rounds + 1 => do
    if ← atEnd text then return
    else
      type
      typeList rounds

/-- The types of a method, after the opening parenthesis. -/
def methodTypes (rounds : Nat) : Scan Unit := do
  methodParameters text type rounds
  advance
  if (← peek text) = 'V'.toUInt8 then advance else type
  thrownList text type rounds

/-- What follows the type parameters. -/
def types (rounds : Nat) : Scan Unit := do
  if ← atEnd text then refuse text
  else if (← peek text) = '('.toUInt8 then
    advance
    methodTypes text type rounds
  else typeList text type rounds

/-- A whole descriptor or signature. -/
def scan (rounds : Nat) : Scan Unit := do
  if ← atEnd text then refuse text
  else if (← peek text) = '<'.toUInt8 then
    formalTypeParameters text type rounds
    types text type rounds
  else types text type rounds

end Whole

/-- The classes that a descriptor or a signature names. -/
def referencedTypes (rounds : Nat) : Option (Except Stop (List TypeName)) :=
  match scan text (typeSignature text rounds) rounds ⟨0, 0, []⟩ with
  | some (.ok (_, c)) => some (.ok c.names)
  | some (.error stop) => some (.error stop)
  | none => none

/-- The classes that the operand of an instruction names. -/
def operandTypes (rounds : Nat) : Option (Except Stop (List TypeName)) :=
  if Text.beginsWith "[" text then referencedTypes text rounds
  else if isInternalName text.toList then some (.ok [.ofInternal text])
  else some (.error (.refused (.badSignature text)))

end Text

/-! ## One step after the other -/

section Bind

variable {α β : Type} {text : String} {x : Scan α} {f : α → Scan β} {c : Cursor} {a : α}

theorem bind_of_ok {c' : Cursor} (h : x c = some (.ok (a, c'))) : (x >>= f) c = f a c' := by
  change ExceptT.bind (x c) (fun p => f p.1 p.2) = _
  unfold ExceptT.bind ExceptT.mk
  rw [h]
  rfl

theorem bind_of_refused (h : x c = some (.error (.refused (.badSignature text)))) :
    (x >>= f) c = some (.error (.refused (.badSignature text))) := by
  change ExceptT.bind (x c) (fun p => f p.1 p.2) = _
  unfold ExceptT.bind ExceptT.mk
  rw [h]
  rfl

theorem bind_of_none (h : x c = none) : (x >>= f) c = none := by
  change ExceptT.bind (x c) (fun p => f p.1 p.2) = _
  unfold ExceptT.bind ExceptT.mk
  rw [h]
  rfl

theorem peek_of_some {b : UInt8} (h : (Assembly.textBytes text)[c.pos]? = some b) :
    peek text c = some (.ok (b, c)) := by
  change (match (Assembly.textBytes text)[c.pos]? with
    | some b => return b
    | none => refuse text : Scan UInt8) c = _
  rw [h]
  rfl

theorem peek_of_none (h : (Assembly.textBytes text)[c.pos]? = none) :
    peek text c = some (.error (.refused (.badSignature text))) := by
  change (match (Assembly.textBytes text)[c.pos]? with
    | some b => return b
    | none => refuse text : Scan UInt8) c = _
  rw [h]
  rfl

end Bind

end VirtualClasspath.Signature.Bytewise
