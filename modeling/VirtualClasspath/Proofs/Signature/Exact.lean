import VirtualClasspath.Proofs.Signature.Reading

/-!
# The scanner reports exactly the classes of a signature

For a syntax tree, the scanner takes the text of each part as far as the tree says and reports the
names of that part, if the limits hold for it, and else fails (`granted`): `JavaType.found_chars`,
by induction on the types, for whatever text follows and whatever `room` is left for type arguments.
A part of a whole signature is a list of types, and `typeNames_text` puts the parts together.

What may follow matters in two places only. A name ends before `<`, `.` or `;`, which an identifier
cannot contain. The bounds of a type parameter end where no colon follows: the next parameter begins
with an identifier, so it is not taken for another bound.
-/

namespace VirtualClasspath.Signature

/-! ## The limits -/

/-- The limits hold for a part of a signature whose arrays have up to `widest` dimensions and whose
type arguments nest `depth` deep, where there is `room` for arguments. -/
def Fits (room widest depth : Nat) : Prop := widest ≤ maxDimensions ∧ depth ≤ room

instance (room widest depth : Nat) : Decidable (Fits room widest depth) :=
  inferInstanceAs (Decidable (_ ∧ _))

variable {room : Nat}

theorem fits_zero : Fits room 0 0 := ⟨Nat.zero_le _, Nat.zero_le _⟩

theorem fits_max {widest widest' depth depth' : Nat} :
    Fits room (max widest widest') (max depth depth') ↔
      Fits room widest depth ∧ Fits room widest' depth' := by
  unfold Fits
  omega

/-- The names and the rest, if a condition holds. -/
def granted (p : Prop) [Decidable p] (names : List TypeName) (rest : List Char) : Found :=
  if p then some (names, rest) else none

section Granted

variable {p q : Prop} [Decidable p] [Decidable q] {names names' : List TypeName} {s t : List Char}
  {next : List Char → Found}

theorem granted_of (h : p) : granted p names s = some (names, s) := if_pos h

theorem granted_congr (h : p ↔ q) : granted p names s = granted q names s := by
  simp only [granted, h]

theorem if_granted : (if p then granted q names s else none) = granted (p ∧ q) names s := by
  by_cases hp : p <;> simp only [granted, hp, if_true, if_false, true_and, false_and]

theorem after_granted : (granted p names s).after names' = granted p (names' ++ names) s := by
  unfold granted
  split <;> rfl

theorem andThen_granted (h : next s = granted q names' t) :
    (granted p names s).andThen next = granted (p ∧ q) (names ++ names') t := by
  by_cases hp : p
  · rw [granted_of hp]
    simp only [Found.andThen, Option.bind_some, h, after_granted, hp, true_and]
  · simp only [granted, hp, false_and, if_false]
    rfl

end Granted

/-! ## Names of classes -/

namespace Identifier

variable (i : Identifier)

theorem not_mem {c : Char} (hc : c ∈ reserved) : c ∉ i.chars := fun h => i.unreserved c h hc

theorem head?_append {c : Char} (hc : c ∈ reserved) (s : List Char) :
    (i.chars ++ s).head? ≠ some c := by
  cases hi : i.chars with
  | nil => exact absurd hi i.ne_nil
  | cons d cs =>
    rintro ⟨⟩
    exact i.not_mem hc (by rw [hi]; exact List.mem_cons_self)

theorem endsName_of_mem {c : Char} (h : c ∈ i.chars) : endsName c = false := by
  have := i.unreserved c h
  simp only [reserved, List.mem_cons, List.not_mem_nil, or_false, not_or] at this
  simp [endsName, this]

end Identifier

/-- The internal name of a class in a package. -/
def pathChars (package : List Identifier) (name : Identifier) : List Char :=
  packageChars '/' package ++ name.chars

theorem pathChars_cons (i : Identifier) (package : List Identifier) (name : Identifier) :
    pathChars (i :: package) name = i.chars ++ '/' :: pathChars package name := by
  simp [pathChars, packageChars]

theorem pathChars_ne_nil (package : List Identifier) (name : Identifier) :
    pathChars package name ≠ [] := by
  simp [pathChars, name.ne_nil]

theorem mem_pathChars {package : List Identifier} {name : Identifier} {c : Char}
    (h : c ∈ pathChars package name) : c = '/' ∨ c ∉ reserved := by
  induction package with
  | nil => exact Or.inr (name.unreserved c h)
  | cons i package ih =>
    rw [pathChars_cons, List.mem_append, List.mem_cons] at h
    rcases h with h | rfl | h
    · exact Or.inr (i.unreserved c h)
    · exact Or.inl rfl
    · exact ih h

theorem head?_pathChars (package : List Identifier) (name : Identifier) :
    (pathChars package name).head? ≠ some '/' := by
  cases package with
  | nil => simpa [pathChars, packageChars] using name.head?_append (by decide) []
  | cons i package =>
    rw [pathChars_cons]
    exact i.head?_append (by decide) _

theorem getLast?_pathChars (package : List Identifier) (name : Identifier) :
    (pathChars package name).getLast? ≠ some '/' := by
  unfold pathChars
  rw [List.getLast?_append, List.getLast?_eq_some_getLast name.ne_nil, Option.some_or]
  intro h
  refine name.not_mem (c := '/') (by decide) ?_
  rw [← Option.some.inj h]
  exact List.getLast_mem name.ne_nil

theorem noDoubleSlash_append {cs s : List Char} (h : '/' ∉ cs) :
    noDoubleSlash (cs ++ s) = noDoubleSlash s := by
  induction cs with
  | nil => rfl
  | cons c cs ih =>
    rw [List.mem_cons, not_or] at h
    rw [List.cons_append, noDoubleSlash, ih h.2]
    rintro _ rfl
    exact absurd rfl h.1

theorem noDoubleSlash_pathChars (package : List Identifier) (name : Identifier) :
    noDoubleSlash (pathChars package name) = true := by
  induction package with
  | nil =>
    have h := noDoubleSlash_append (s := []) (name.not_mem (c := '/') (by decide))
    rw [List.append_nil] at h
    exact h
  | cons i package ih =>
    rw [pathChars_cons, noDoubleSlash_append (i.not_mem (by decide))]
    have hhead := head?_pathChars package name
    rw [noDoubleSlash, ih]
    intro rest _ h
    rw [h] at hhead
    exact hhead rfl

/-- **The path to a class is an internal name.** -/
theorem isInternalName_pathChars (package : List Identifier) (name : Identifier) :
    isInternalName (pathChars package name) = true := by
  refine isInternalName_iff.mpr ⟨⟨pathChars_ne_nil _ _, head?_pathChars _ _, getLast?_pathChars _ _,
    noDoubleSlash_pathChars _ _⟩, fun c hc hmem => ?_⟩
  rcases mem_pathChars hc with rfl | h
  · exact absurd hmem (by decide)
  · exact h (by simp [reserved] at hmem ⊢; grind)

theorem endsName_of_mem_pathChars {package : List Identifier} {name : Identifier} {c : Char}
    (h : c ∈ pathChars package name) : endsName c = false := by
  rcases mem_pathChars h with rfl | h
  · rfl
  · simp only [reserved, List.mem_cons, List.not_mem_nil, or_false, not_or] at h
    simp [endsName, h]

/-- The dotted name is what the scanner makes of the path. -/
theorem ofInternal_pathChars (package : List Identifier) (name : Identifier) :
    TypeName.ofInternal (String.ofList (pathChars package name)) = dottedName package name := by
  have hname : ∀ i : Identifier, (i.chars.map fun c => if c = '/' then '.' else c) = i.chars := by
    intro i
    refine (List.map_congr_left (g := id) fun c hc => if_neg ?_).trans (List.map_id _)
    rintro rfl
    exact i.not_mem (by decide) hc
  have hpackage : (packageChars '/' package).map (fun c => if c = '/' then '.' else c) =
      packageChars '.' package := by
    simp [packageChars, List.map_flatMap, hname]
  unfold dottedName TypeName.ofInternal Text.exchange
  rw [TypeName.mk.injEq, ← String.toList_inj]
  simp [pathChars, String.toList_map, hname, hpackage]

/-! ## How types begin -/

theorem letter_not_bracket (b : BaseType) : b.letter ≠ '[' := by cases b <;> decide

/-- The first character of a reference type. -/
theorem ReferenceType.chars_eq_cons (r : ReferenceType) :
    ∃ c s, r.chars = c :: s ∧ (c = 'L' ∨ c = 'T' ∨ c = '[') := by
  cases r with
  | ofClass c =>
    obtain ⟨package, outer, inner⟩ := c
    exact ⟨_, _, by rw [ReferenceType.chars, ClassType.chars], Or.inl rfl⟩
  | named name => exact ⟨_, _, by rw [ReferenceType.chars], Or.inr (Or.inl rfl)⟩
  | array element => exact ⟨_, _, by rw [ReferenceType.chars], Or.inr (Or.inr rfl)⟩

/-- The first character of a type. -/
theorem JavaType.chars_eq_cons (t : JavaType) :
    ∃ c s, t.chars = c :: s ∧ c ∈ ['L', 'T', '[', 'B', 'C', 'D', 'F', 'I', 'J', 'S', 'Z'] := by
  cases t with
  | base b => exact ⟨b.letter, [], by rw [JavaType.chars], by cases b <;> decide⟩
  | reference r =>
    obtain ⟨c, s, hr, hc⟩ := r.chars_eq_cons
    refine ⟨c, s, by rw [JavaType.chars, hr], ?_⟩
    rcases hc with rfl | rfl | rfl <;> decide

mutual

/-- The brackets that a type begins with. -/
theorem JavaType.length_takeWhile (t : JavaType) (rest : List Char) :
    ((t.chars ++ rest).takeWhile (· = '[')).length = t.dimensions := by
  cases t with
  | base b =>
    rw [JavaType.chars, List.singleton_append, List.takeWhile_cons_of_neg (by
      simpa using letter_not_bracket b), JavaType.dimensions]
    rfl
  | reference r =>
    rw [JavaType.chars, JavaType.dimensions]
    exact ReferenceType.length_takeWhile r rest

theorem ReferenceType.length_takeWhile (r : ReferenceType) (rest : List Char) :
    ((r.chars ++ rest).takeWhile (· = '[')).length = r.dimensions := by
  cases r with
  | ofClass c =>
    obtain ⟨package, outer, inner⟩ := c
    rw [ReferenceType.chars, ClassType.chars, ReferenceType.dimensions, List.cons_append,
      List.takeWhile_cons_of_neg (by decide)]
    rfl
  | named name =>
    rw [ReferenceType.chars, ReferenceType.dimensions, List.cons_append,
      List.takeWhile_cons_of_neg (by decide)]
    rfl
  | array element =>
    rw [ReferenceType.chars, ReferenceType.dimensions, List.cons_append,
      List.takeWhile_cons_of_pos (by decide), List.length_cons, JavaType.length_takeWhile element]

end

/-! ## Types -/

/-- How type arguments are read where `room` levels of them are left. -/
def argumentsAt : Nat → Scanner
  | 0 => fun _ => none
  | room + 1 => typeArguments (typeSignature room)

theorem typeSignature_eq (room : Nat) : typeSignature room = typeWith (argumentsAt room) := by
  cases room <;> rfl

/-- Type arguments in brackets, or nothing. -/
def bracketed : List TypeArgument → List Char
  | [] => []
  | a :: rest => '<' :: (argumentChars (a :: rest) ++ ['>'])

theorem SimpleClass.chars_mk (name : Identifier) (arguments : List TypeArgument) :
    (SimpleClass.mk name arguments).chars = name.chars ++ bracketed arguments := by
  cases arguments with
  | nil => rw [SimpleClass.chars, bracketed, List.append_nil]
  | cons a rest =>
    rw [SimpleClass.chars, bracketed, argumentChars]
    simp

theorem TypeArgument.head?_chars (a : TypeArgument) (s : List Char) :
    (a.chars ++ s).head? ≠ some '>' := by
  cases a with
  | any => simp [TypeArgument.chars]
  | bounded variance bound =>
    obtain ⟨c, r, hr, hc⟩ := bound.chars_eq_cons
    rw [TypeArgument.chars, hr]
    cases variance <;> rcases hc with rfl | rfl | rfl <;> simp [Variance.chars]

theorem head?_bracketed (arguments : List TypeArgument) (inner : List SimpleClass)
    (rest : List Char) :
    (bracketed arguments ++ (innerChars inner ++ ';' :: rest)).head?.any endsName = true := by
  cases arguments with
  | cons a arguments => rfl
  | nil =>
    cases inner with
    | nil =>
      rw [innerChars]
      rfl
    | cons s inner =>
      rw [innerChars]
      rfl

/-- Type arguments in brackets use up a level. -/
theorem found_bracketed {arguments : List TypeArgument}
    (h : ∀ room rest,
      found (argumentList (typeSignature room) (argumentChars arguments ++ '>' :: rest)) =
        granted (Fits room (widestInArguments arguments) (deepestInArguments arguments))
          (argumentNames arguments) rest)
    (name : Identifier) (room : Nat) (n : TypeName) (s : List Char) :
    found (classSuffix (argumentsAt room) n (bracketed arguments ++ s)) =
      (granted (Fits room (SimpleClass.mk name arguments).widestArray
        (SimpleClass.mk name arguments).argumentDepth) (argumentNames arguments) s).andThen
          fun t => found (classSuffix (argumentsAt room) n t) := by
  cases arguments with
  | nil =>
    rw [SimpleClass.widestArray, SimpleClass.argumentDepth, widestInArguments, argumentNames,
      granted_of fits_zero]
    simp [bracketed, Found.andThen, Found.after]
  | cons a arguments =>
    rw [bracketed, List.cons_append, found_classSuffix_arguments, SimpleClass.widestArray,
      SimpleClass.argumentDepth]
    congr 1
    cases room with
    | zero => exact (if_neg fun hfits => Nat.not_succ_le_zero _ hfits.2).symm
    | succ room =>
      have hfits : ∀ widest depth, Fits (room + 1) widest (depth + 1) ↔ Fits room widest depth :=
        fun widest depth => and_congr_right fun _ => Nat.succ_le_succ_iff
      rw [granted_congr (hfits _ _), argumentsAt, List.append_assoc, found_typeArguments]
      · exact h room s
      · rw [argumentChars, List.append_assoc]
        exact a.head?_chars _

mutual

/-- The scanner takes the text of a type and leaves what follows. -/
theorem JavaType.found_chars (t : JavaType) (room : Nat) (rest : List Char) :
    found (typeSignature room (t.chars ++ rest)) =
      granted (Fits room t.widestArray t.argumentDepth) t.names rest := by
  cases t with
  | base b =>
    rw [JavaType.chars, JavaType.widestArray, JavaType.argumentDepth, JavaType.names,
      granted_of fits_zero, typeSignature_eq, List.singleton_append,
      found_typeWith_element (letter_not_bracket b)]
    cases b <;> rfl
  | reference r =>
    rw [JavaType.chars, JavaType.widestArray, JavaType.argumentDepth, JavaType.names]
    exact ReferenceType.found_chars r room rest

theorem ReferenceType.found_chars (r : ReferenceType) (room : Nat) (rest : List Char) :
    found (typeSignature room (r.chars ++ rest)) =
      granted (Fits room r.widestArray r.argumentDepth) r.names rest := by
  cases r with
  | ofClass c =>
    rw [ReferenceType.chars, ReferenceType.widestArray, ReferenceType.argumentDepth,
      ReferenceType.names]
    exact ClassType.found_chars c room rest
  | named name =>
    rw [ReferenceType.chars, ReferenceType.widestArray, ReferenceType.argumentDepth,
      ReferenceType.names, granted_of fits_zero, typeSignature_eq, List.cons_append,
      found_typeWith_element (by decide), List.append_assoc]
    exact found_typeVariable name.ne_nil (name.not_mem (by decide))
  | array element =>
    have ih := JavaType.found_chars element room rest
    rw [ReferenceType.chars, ReferenceType.widestArray, ReferenceType.argumentDepth,
      ReferenceType.names]
    rw [typeSignature_eq] at ih ⊢
    -- brackets are counted in one run, the outer array's together with those of its element
    rw [List.cons_append, found_typeWith_bracket, JavaType.length_takeWhile, ih, if_granted]
    refine granted_congr ?_
    unfold Fits
    omega

theorem ClassType.found_chars (c : ClassType) (room : Nat) (rest : List Char) :
    found (typeSignature room (c.chars ++ rest)) =
      granted (Fits room c.widestArray c.argumentDepth) c.names rest := by
  obtain ⟨package, ⟨name, arguments⟩, inner⟩ := c
  have harguments := found_bracketed (found_argumentChars arguments) name room
    (dottedName package name) (innerChars inner ++ ';' :: rest)
  have hinner := found_innerChars inner room (dottedName package name) rest
  have htext : (ClassType.mk package (.mk name arguments) inner).chars ++ rest =
      'L' :: (pathChars package name ++ (bracketed arguments ++ (innerChars inner ++ ';' :: rest))) := by
    simp [ClassType.chars, SimpleClass.chars_mk, pathChars]
  rw [ClassType.widestArray, ClassType.argumentDepth, ClassType.names, htext, typeSignature_eq,
    found_typeWith_element (by decide), granted_congr fits_max]
  change found (classType _ _) = _
  rw [found_classType (pathChars_ne_nil package name) (fun c => endsName_of_mem_pathChars)
    (head?_bracketed arguments inner rest) (isInternalName_pathChars package name),
    ofInternal_pathChars, harguments, andThen_granted hinner, after_granted]
  rfl

/-- The classes on the way inward, up to the end of a class type. -/
theorem found_innerChars (inner : List SimpleClass) (room : Nat) (n : TypeName)
    (rest : List Char) :
    found (classSuffix (argumentsAt room) n (innerChars inner ++ ';' :: rest)) =
      granted (Fits room (widestInInner inner) (deepestInInner inner)) (innerNames n inner) rest := by
  cases inner with
  | nil =>
    rw [innerChars, widestInInner, deepestInInner, innerNames, granted_of fits_zero]
    exact found_classSuffix_end
  | cons s inner =>
    obtain ⟨name, arguments⟩ := s
    have harguments := found_bracketed (found_argumentChars arguments) name room
      (nestedName n name) (innerChars inner ++ ';' :: rest)
    have hinner := found_innerChars inner room (nestedName n name) rest
    have htext : innerChars (.mk name arguments :: inner) ++ ';' :: rest =
        '.' :: (name.chars ++ (bracketed arguments ++ (innerChars inner ++ ';' :: rest))) := by
      simp [innerChars, SimpleClass.chars_mk]
    rw [widestInInner, deepestInInner, innerNames, htext, granted_congr fits_max,
      found_classSuffix_nested name.ne_nil (fun c => name.endsName_of_mem)
        (head?_bracketed arguments inner rest) (isInternalName_pathChars [] name)
        (name.not_mem (by decide))]
    change Found.after _ (found (classSuffix _ (nestedName n name) _)) = _
    rw [harguments, andThen_granted hinner, after_granted]
    rfl

/-- Type arguments, up to the closing bracket. -/
theorem found_argumentChars (arguments : List TypeArgument) (room : Nat) (rest : List Char) :
    found (argumentList (typeSignature room) (argumentChars arguments ++ '>' :: rest)) =
      granted (Fits room (widestInArguments arguments) (deepestInArguments arguments))
        (argumentNames arguments) rest := by
  cases arguments with
  | nil =>
    rw [argumentChars, widestInArguments, deepestInArguments, argumentNames, granted_of fits_zero]
    exact found_argumentList_end
  | cons a arguments =>
    rw [argumentChars, widestInArguments, deepestInArguments, argumentNames, List.append_assoc,
      TypeArgument.found_chars a, granted_congr fits_max]
    exact andThen_granted (found_argumentChars arguments room rest)

theorem TypeArgument.found_chars (a : TypeArgument) (room : Nat) (s : List Char) :
    found (argumentList (typeSignature room) (a.chars ++ s)) =
      (granted (Fits room a.widestArray a.argumentDepth) a.names s).andThen fun t =>
        found (argumentList (typeSignature room) t) := by
  cases a with
  | any =>
    rw [TypeArgument.chars, TypeArgument.widestArray, TypeArgument.argumentDepth, TypeArgument.names,
      granted_of fits_zero, List.singleton_append, found_argumentList_any]
    simp [Found.andThen, Found.after]
  | bounded variance bound =>
    have ih := ReferenceType.found_chars bound room s
    rw [TypeArgument.chars, TypeArgument.widestArray, TypeArgument.argumentDepth, TypeArgument.names,
      ← ih]
    cases variance with
    | exact =>
      obtain ⟨c, r, hr, hc⟩ := bound.chars_eq_cons
      rw [Variance.chars, List.nil_append, hr]
      refine found_argumentList_exact ?_
      rcases hc with rfl | rfl | rfl <;> decide
    | below => exact found_argumentList_bounded (Or.inl rfl)
    | above => exact found_argumentList_bounded (Or.inr rfl)

end

/-! ## Whole signatures -/

/-- The limits hold for all types of a list. -/
def AllFit (room : Nat) (l : List JavaType) : Prop :=
  ∀ t ∈ l, Fits room t.widestArray t.argumentDepth

instance (room : Nat) (l : List JavaType) : Decidable (AllFit room l) :=
  inferInstanceAs (Decidable (∀ _ ∈ l, _))

theorem allFit_nil : AllFit room [] := nofun

theorem allFit_cons {t : JavaType} {l : List JavaType} :
    AllFit room (t :: l) ↔ Fits room t.widestArray t.argumentDepth ∧ AllFit room l :=
  List.forall_mem_cons

theorem allFit_append {l l' : List JavaType} :
    AllFit room (l ++ l') ↔ AllFit room l ∧ AllFit room l' :=
  List.forall_mem_append

theorem allFit_reference_cons {r : ReferenceType} {l : List ReferenceType} :
    AllFit room ((r :: l).map .reference) ↔
      Fits room r.widestArray r.argumentDepth ∧ AllFit room (l.map .reference) := by
  rw [List.map_cons, allFit_cons, JavaType.widestArray, JavaType.argumentDepth]

theorem found_parameters (l : List JavaType) (rest : List Char) :
    found (parameters (typeSignature room) (l.flatMap JavaType.chars ++ ')' :: rest)) =
      granted (AllFit room l) (l.flatMap JavaType.names) rest := by
  induction l with
  | nil =>
    rw [granted_of allFit_nil]
    exact found_parameters_end
  | cons t l ih =>
    obtain ⟨c, s, ht, hc⟩ := t.chars_eq_cons
    have hread := t.found_chars room (l.flatMap JavaType.chars ++ ')' :: rest)
    rw [List.flatMap_cons, List.append_assoc, granted_congr allFit_cons]
    rw [ht, List.cons_append] at hread ⊢
    rw [found_parameters_type (by rintro rfl; exact absurd hc (by decide)), hread]
    exact andThen_granted ih

theorem found_resultType (result : Result) (rest : List Char) :
    found (resultType (typeSignature room) (result.chars ++ rest)) =
      granted (AllFit room result.types) (result.types.flatMap JavaType.names) rest := by
  cases result with
  | void =>
    rw [Result.types, granted_of allFit_nil]
    exact found_resultType_void
  | type t =>
    obtain ⟨c, s, ht, hc⟩ := t.chars_eq_cons
    rw [Result.chars, found_resultType_type, t.found_chars, Result.types,
      granted_congr (allFit_cons.trans (and_iff_left allFit_nil)), List.flatMap_singleton]
    rw [ht]
    rintro ⟨⟩
    exact absurd hc (by decide)

/-- The names, if a condition holds. -/
def grantedAll (p : Prop) [Decidable p] (names : List TypeName) : Option (List TypeName) :=
  if p then some names else none

theorem grantedAll_congr {p q : Prop} [Decidable p] [Decidable q] {names : List TypeName}
    (h : p ↔ q) : grantedAll p names = grantedAll q names := by
  simp only [grantedAll, h]

theorem complete_granted {p q : Prop} [Decidable p] [Decidable q] {names names' : List TypeName}
    {s : List Char} {next : List Char → Option (List TypeName)}
    (h : next s = grantedAll q names') :
    (granted p names s).complete next = grantedAll (p ∧ q) (names ++ names') := by
  by_cases hp : p
  · rw [granted_of hp]
    by_cases hq : q <;> simp [Found.complete, h, grantedAll, hp, hq]
  · simp only [granted, grantedAll, hp, false_and, if_false]
    rfl

theorem thrownTypes_references (room : Nat) (l : List ReferenceType) :
    thrownTypes (typeSignature room) (l.flatMap fun r => '^' :: r.chars) =
      grantedAll (AllFit room (l.map .reference)) (l.flatMap ReferenceType.names) := by
  induction l with
  | nil =>
    rw [List.flatMap_nil, thrownTypes]
    exact (if_pos allFit_nil).symm
  | cons r l ih =>
    rw [List.flatMap_cons, List.cons_append, thrownTypes_cons, r.found_chars, complete_granted ih]
    exact grantedAll_congr allFit_reference_cons.symm

theorem types_chars (room : Nat) (l : List JavaType) :
    types (typeSignature room) (l.flatMap JavaType.chars) =
      grantedAll (AllFit room l) (l.flatMap JavaType.names) := by
  induction l with
  | nil =>
    rw [List.flatMap_nil, types]
    exact (if_pos allFit_nil).symm
  | cons t l ih =>
    obtain ⟨c, s, ht, -⟩ := t.chars_eq_cons
    have hread := t.found_chars room (l.flatMap JavaType.chars)
    rw [List.flatMap_cons]
    rw [ht, List.cons_append] at hread ⊢
    rw [types_cons, hread, complete_granted ih]
    exact grantedAll_congr allFit_cons.symm

/-! ### Type parameters -/

theorem found_bounds_reference {l : List ReferenceType} {names : List TypeName}
    {rest : List Char} {p : Prop} [Decidable p] (r : ReferenceType)
    (h : furtherBounds (typeSignature room) (l.flatMap (fun r => ':' :: r.chars) ++ rest) =
      granted p names rest) :
    found (bounds (typeSignature room)
        (r.chars ++ (l.flatMap (fun r => ':' :: r.chars) ++ rest))) =
      granted (Fits room r.widestArray r.argumentDepth ∧ p) (r.names ++ names) rest := by
  obtain ⟨c, s, hr, hc⟩ := r.chars_eq_cons
  have hread := r.found_chars room (l.flatMap (fun r => ':' :: r.chars) ++ rest)
  rw [hr, List.cons_append] at hread ⊢
  rw [found_bounds_type hc, hread]
  exact andThen_granted h

theorem furtherBounds_references (l : List ReferenceType) {rest : List Char}
    (hrest : rest.head? ≠ some ':') :
    furtherBounds (typeSignature room) (l.flatMap (fun r => ':' :: r.chars) ++ rest) =
      granted (AllFit room (l.map .reference)) (l.flatMap ReferenceType.names) rest := by
  induction l with
  | nil =>
    rw [granted_of (by exact allFit_nil), furtherBounds]
    exact if_neg hrest
  | cons r l ih =>
    rw [List.flatMap_cons, List.cons_append, List.cons_append, List.append_assoc, furtherBounds]
    simp only [List.head?_cons, List.tail_cons, if_true]
    rw [found_bounds_reference r ih]
    exact granted_congr allFit_reference_cons.symm

/-- The bounds of a type parameter, after its name and the first colon. -/
theorem found_bounds (p : TypeParameter) {rest : List Char} (hrest : rest.head? ≠ some ':') :
    found (bounds (typeSignature room) (p.classBound.elim [] ReferenceType.chars ++
        (p.interfaceBounds.flatMap (fun r => ':' :: r.chars) ++ rest))) =
      granted (AllFit room (p.bounds.map .reference)) (p.bounds.flatMap ReferenceType.names) rest := by
  obtain ⟨name, classBound, interfaceBounds, hbounded⟩ := p
  cases classBound with
  | some r =>
    rw [Option.elim, found_bounds_reference r (furtherBounds_references interfaceBounds hrest)]
    exact granted_congr allFit_reference_cons.symm
  | none =>
    cases interfaceBounds with
    | nil => simp at hbounded
    | cons r l =>
      rw [Option.elim, List.nil_append, List.flatMap_cons, List.cons_append, List.cons_append,
        List.append_assoc, found_bounds_colon,
        found_bounds_reference r (furtherBounds_references l hrest)]
      exact granted_congr allFit_reference_cons.symm

theorem found_typeParameters (l : List TypeParameter) (rest : List Char) :
    found (typeParameters (typeSignature room) (l.flatMap TypeParameter.chars ++ '>' :: rest)) =
      granted (AllFit room ((l.flatMap TypeParameter.bounds).map .reference))
        ((l.flatMap TypeParameter.bounds).flatMap ReferenceType.names) rest := by
  induction l with
  | nil =>
    rw [granted_of (by exact allFit_nil)]
    exact found_typeParameters_end
  | cons p l ih =>
    have hhead : (l.flatMap TypeParameter.chars ++ '>' :: rest).head? ≠ some ':' := by
      cases l with
      | nil => simp
      | cons q l =>
        rw [List.flatMap_cons, TypeParameter.chars, List.append_assoc, List.append_assoc]
        exact q.name.head?_append (by decide) _
    rw [List.flatMap_cons, TypeParameter.chars, List.append_assoc, List.append_assoc,
      List.cons_append, List.append_assoc,
      found_typeParameters_name p.name.ne_nil (by simpa using p.name.head?_append (by decide) [])
        (p.name.not_mem (by decide)),
      found_bounds p hhead, andThen_granted ih]
    simp [granted, allFit_append]

/-! ### The main theorem -/

/-- Type parameters, if any, before what a signature is a signature of. -/
theorem whole_parameterChars (l : List TypeParameter) {q : Prop} [Decidable q]
    {names : List TypeName} {c : Char} {s : List Char} (hc : c ≠ '<')
    (h : body (typeSignature room) (c :: s) = grantedAll q names) :
    whole (typeSignature room) (parameterChars l ++ c :: s) =
      grantedAll (AllFit room ((l.flatMap TypeParameter.bounds).map .reference) ∧ q)
        ((l.flatMap TypeParameter.bounds).flatMap ReferenceType.names ++ names) := by
  cases l with
  | nil =>
    rw [parameterChars, List.nil_append, whole_body hc, h]
    exact grantedAll_congr (and_iff_right allFit_nil).symm
  | cons p l =>
    have htext : parameterChars (p :: l) ++ c :: s =
        '<' :: ((p :: l).flatMap TypeParameter.chars ++ '>' :: c :: s) := by
      simp [parameterChars]
    rw [htext, whole_parameters, found_typeParameters]
    exact complete_granted h

theorem flatMap_names_reference (l : List ReferenceType) :
    (l.map .reference).flatMap JavaType.names = l.flatMap ReferenceType.names := by
  simp [List.flatMap_map, JavaType.names]

/-- A text is read to its end. -/
theorem whole_chars (t : Tree) :
    whole (typeSignature room) t.chars = grantedAll (AllFit room t.types) t.names := by
  cases t with
  | field type =>
    obtain ⟨c, s, ht, hc⟩ := type.chars_eq_cons
    have hread := types_chars room [type]
    rw [List.flatMap_singleton] at hread
    rw [Tree.chars]
    rw [ht] at hread ⊢
    rw [whole_body (by rintro rfl; exact absurd hc (by decide)),
      body_types (by rintro rfl; exact absurd hc (by decide)), hread]
    rfl
  | method typeParameters parameters result throws =>
    have hthrown := thrownTypes_references room (throws.map Thrown.toReference)
    rw [List.flatMap_map] at hthrown
    have hbody : body (typeSignature room) ('(' :: (parameters.flatMap JavaType.chars ++
          ')' :: (result.chars ++ throws.flatMap fun t => '^' :: t.toReference.chars))) =
        grantedAll (AllFit room parameters ∧ AllFit room result.types ∧
            AllFit room ((throws.map Thrown.toReference).map .reference))
          (parameters.flatMap JavaType.names ++ (result.types.flatMap JavaType.names ++
            (throws.map Thrown.toReference).flatMap ReferenceType.names)) := by
      rw [body_method, found_parameters]
      refine complete_granted ?_
      rw [found_resultType]
      exact complete_granted hthrown
    rw [Tree.chars, whole_parameterChars _ (by decide) hbody, Tree.names, Tree.types,
      List.flatMap_append, List.flatMap_append, List.flatMap_append, flatMap_names_reference,
      flatMap_names_reference]
    refine grantedAll_congr ?_
    rw [allFit_append, allFit_append, allFit_append]
  | ofClass typeParameters superClass interfaces =>
    obtain ⟨c, s, hsuper, hc⟩ := (ReferenceType.ofClass superClass).chars_eq_cons
    have htypes := types_chars room
      (((superClass :: interfaces).map .ofClass).map .reference)
    have htext : (((superClass :: interfaces).map ReferenceType.ofClass).map
        JavaType.reference).flatMap JavaType.chars =
          superClass.chars ++ interfaces.flatMap ClassType.chars := by
      simp [List.flatMap_map, JavaType.chars, ReferenceType.chars]
    rw [ReferenceType.chars] at hsuper
    rw [htext, hsuper, List.cons_append, flatMap_names_reference] at htypes
    rw [Tree.chars, hsuper, List.cons_append, Tree.names, Tree.types, List.flatMap_append,
      flatMap_names_reference, flatMap_names_reference,
      whole_parameterChars _ (by rintro rfl; simp at hc)
        ((body_types (by rintro rfl; simp at hc)).trans htypes)]
    exact grantedAll_congr allFit_append.symm

/-- **A signature is read exactly.** The classes that it names are reported, in the order in which
they are written, exactly if no array has too many dimensions and no type arguments nest too deep. -/
theorem typeNames_text (t : Tree) :
    typeNames t.text =
      if ∀ u ∈ t.types, u.widestArray ≤ maxDimensions ∧ u.argumentDepth ≤ maxArgumentDepth then
        .ok t.names
      else .error (.badSignature t.text) := by
  have hread : whole (typeSignature maxArgumentDepth) t.text.toList =
      grantedAll (AllFit maxArgumentDepth t.types) t.names := by
    rw [Tree.text, String.toList_ofList]
    exact whole_chars t
  unfold typeNames
  rw [hread]
  by_cases hfits : AllFit maxArgumentDepth t.types
  · simp only [grantedAll, if_pos hfits]
    exact (if_pos hfits).symm
  · simp only [grantedAll, if_neg hfits]
    exact (if_neg hfits).symm

end VirtualClasspath.Signature
