import Mathlib.Data.List.Forall2
import Mathlib.Data.List.Induction
import VirtualClasspath.Options
import VirtualClasspath.Proofs.Sorted
import VirtualClasspath.Proofs.Text

/-!
# Normal options

A list of flags is read from left to right as a list of arguments (`Reads`), in one way
(`Reads.unique`): a flag that patches a module takes the next flag as its value, whatever this looks
like. `splitFlags_of_reads` says that `Options.splitFlags` goes through these arguments, and
`lists_or_malformed` what a value comes to. The flags that are kept are read as they are
(`Reads.kept`), so there is nothing left to normalize. `normalized_exact` puts it together.
-/

namespace VirtualClasspath.Options

/-! ## Values -/

/-- The parts of a value: what precedes the first `=`, and the pieces of the rest between colons. -/
structure Cut (value : String) (front : List Char) (pieces : List (List Char)) : Prop where
  eq : value.toList = front ++ '=' :: [':'].intercalate pieces
  first : '=' ∉ front
  pieces_ne_nil : pieces ≠ []
  apart : ∀ p ∈ pieces, ':' ∉ p

/-- The value lists the packages for the module. Blanks around a name do not belong to it. -/
structure Lists (value : String) (module : String) (packages : List String) : Prop where
  parts : ∃ front pieces, Cut value front pieces ∧ Text.Trims front module.toList ∧
    List.Forall₂ (fun p n => Text.Trims p n.toList) pieces packages
  module_ne : module ≠ ""
  packages_ne : "" ∉ packages

/-- The value has no `=`, or its module or one of its packages is blank. -/
def Malformed (value : String) : Prop :=
  '=' ∉ value.toList ∨
    ∃ front pieces, Cut value front pieces ∧ (Text.Blank front ∨ ∃ p ∈ pieces, Text.Blank p)

variable {value : String} {front : List Char} {pieces : List (List Char)}

theorem exists_cut (h : '=' ∈ value.toList) : ∃ front pieces, Cut value front pieces := by
  obtain ⟨front, rest, hvalue, hfirst⟩ := List.eq_append_cons_of_mem h
  refine ⟨front, Text.pieces ':' rest, ?_, hfirst, Text.pieces_ne_nil ':' rest,
    fun p => Text.not_mem_of_mem_pieces⟩
  rw [Text.intercalate_pieces, hvalue]

theorem Cut.unique {front' : List Char} {pieces' : List (List Char)} (h : Cut value front pieces)
    (h' : Cut value front' pieces') : front' = front ∧ pieces' = pieces := by
  have hcut := @Text.cutFirst_append '=' front ([':'].intercalate pieces) h.first
  rw [← h.eq, h'.eq, Text.cutFirst_append h'.first, Option.some.injEq, Prod.mk.injEq] at hcut
  refine ⟨hcut.1, ?_⟩
  rw [← Text.pieces_intercalate h'.pieces_ne_nil h'.apart, hcut.2,
    Text.pieces_intercalate h.pieces_ne_nil h.apart]

theorem parsePatch_of_cut (h : Cut value front pieces) : parsePatch value =
    if (Text.trimChars front).isEmpty || (pieces.map Text.trimChars).any (·.isEmpty) then
      .error (.malformed value)
    else
      .ok (.ofList ((pieces.map Text.trimChars).map fun p =>
        (String.ofList p, String.ofList (Text.trimChars front)))) := by
  unfold parsePatch
  rw [h.eq, Text.cutFirst_append h.first]
  dsimp only
  rw [Text.pieces_intercalate h.pieces_ne_nil h.apart]

theorem blank_iff (front : List Char) (pieces : List (List Char)) :
    ((Text.trimChars front).isEmpty || (pieces.map Text.trimChars).any (·.isEmpty)) = true ↔
      Text.Blank front ∨ ∃ p ∈ pieces, Text.Blank p := by
  rw [Bool.or_eq_true, List.any_map, List.any_eq_true, List.isEmpty_iff, Text.trimChars_eq_nil_iff]
  refine or_congr_right (exists_congr fun p => and_congr_right fun _ => ?_)
  exact List.isEmpty_iff.trans Text.trimChars_eq_nil_iff

theorem parsePatch_of_malformed (h : Malformed value) :
    parsePatch value = .error (.malformed value) := by
  rcases h with hnone | ⟨front, pieces, hcut, hblank⟩
  · unfold parsePatch
    rw [Text.cutFirst_eq_none_iff.mpr hnone]
  · rw [parsePatch_of_cut hcut, if_pos ((blank_iff front pieces).mpr hblank)]

/-- A part of a value, without the blanks around it. -/
def trimmed (l : List Char) : String := String.ofList (Text.trimChars l)

theorem trims_trimmed (l : List Char) : Text.Trims l (trimmed l).toList := by
  unfold trimmed
  rw [String.toList_ofList]
  exact Text.trims_trimChars l

theorem trimmed_ne {l : List Char} (h : ¬ Text.Blank l) : trimmed l ≠ "" :=
  fun he => h (Text.trimChars_eq_nil_iff.mp (String.ofList_injective he))

theorem lists_of_cut (h : Cut value front pieces)
    (hblank : ¬ (Text.Blank front ∨ ∃ p ∈ pieces, Text.Blank p)) :
    Lists value (trimmed front) (pieces.map trimmed) where
  parts := by
    refine ⟨front, pieces, h, trims_trimmed front, ?_⟩
    rw [List.forall₂_map_right_iff, List.forall₂_same]
    exact fun p _ => trims_trimmed p
  module_ne := trimmed_ne (not_or.mp hblank).1
  packages_ne := by
    rintro hmem
    obtain ⟨p, hp, he⟩ := List.mem_map.mp hmem
    exact trimmed_ne (fun hb => (not_or.mp hblank).2 ⟨p, hp, hb⟩) he

/-- A value lists one thing. -/
theorem Lists.unique {module module' : String} {packages packages' : List String}
    (h : Lists value module packages) (h' : Lists value module' packages') :
    module' = module ∧ packages' = packages := by
  have heq : ∀ {p : List Char} {n : String}, Text.Trims p n.toList → trimmed p = n := by
    intro p n ht
    unfold trimmed
    rw [ht.eq_trimChars, String.ofList_toList]
  have hall : ∀ {ps : List (List Char)} {ns : List String},
      List.Forall₂ (fun p n => Text.Trims p n.toList) ps ns → ps.map trimmed = ns := by
    intro ps ns ht
    induction ht with
    | nil => rfl
    | cons ht _ ih => rw [List.map_cons, heq ht, ih]
  obtain ⟨front, pieces, hcut, hmodule, hpackages⟩ := h.parts
  obtain ⟨front', pieces', hcut', hmodule', hpackages'⟩ := h'.parts
  obtain ⟨rfl, rfl⟩ := hcut.unique hcut'
  exact ⟨(heq hmodule').symm.trans (heq hmodule), (hall hpackages').symm.trans (hall hpackages)⟩

/-- Every value that is not malformed lists packages, and these are what is read. -/
theorem lists_or_malformed (value : String) : Malformed value ∨ ∃ module packages map,
    Lists value module packages ∧ parsePatch value = .ok map ∧
      ∀ package, map.find? package = if package ∈ packages then some module else none := by
  by_cases hvalue : '=' ∈ value.toList
  · obtain ⟨front, pieces, hcut⟩ := exists_cut hvalue
    by_cases hblank : Text.Blank front ∨ ∃ p ∈ pieces, Text.Blank p
    · exact Or.inl (Or.inr ⟨front, pieces, hcut, hblank⟩)
    · refine Or.inr ⟨trimmed front, pieces.map trimmed, _, lists_of_cut hcut hblank,
        (parsePatch_of_cut hcut).trans (if_neg (mt (blank_iff front pieces).mp hblank)),
        fun package => ?_⟩
      have hfind := SortedMap.find?_foldl_insert (fun _ => trimmed front) (pieces.map trimmed) ∅
        package
      rw [List.foldl_map, SortedMap.find?_empty] at hfind
      rwa [SortedMap.ofList, List.map_map, List.foldl_map]
  · exact Or.inl (Or.inl hvalue)

/-! ## Arguments -/

/-- One step of reading flags. -/
inductive Argument
  /-- A flag that does not patch a module. -/
  | kept (flag : String)
  /-- The flag that patches a module, followed by its value. -/
  | apart (value : String)
  /-- The flag that patches a module and its value, joined by `=`. -/
  | joined (value : String)
  /-- The flag that patches a module, at the end of the flags. -/
  | bare

namespace Argument

/-- The flag, if it is passed on. -/
def kept? : Argument → Option String
  | kept flag => some flag
  | _ => none

/-- The value, if the flag patches a module and has one. -/
def value? : Argument → Option String
  | apart value => some value
  | joined value => some value
  | _ => none

/-- What makes options with the argument fail. -/
inductive Fails : Argument → OptionsError → Prop
  | bare : Fails bare .missingValue
  | value {a : Argument} {value : String} (h : a.value? = some value) (hm : Malformed value) :
    Fails a (.malformed value)

/-- The map after the argument. -/
def patch (map : SortedMap String String) : Argument → Except OptionsError (SortedMap String String)
  | kept _ => .ok map
  | apart value => parsePatch value
  | joined value => parsePatch value
  | bare => .error .missingValue

variable {a : Argument} {e : OptionsError} {map : SortedMap String String}

theorem patch_of_value (h : a.value? = some value) : a.patch map = parsePatch value := by
  cases a with
  | apart _ => cases h; rfl
  | joined _ => cases h; rfl
  | _ => cases h

theorem patch_of_fails (h : a.Fails e) : a.patch map = .error e := by
  cases h with
  | bare => rfl
  | value h hm => rw [patch_of_value h, parsePatch_of_malformed hm]

end Argument

/-- The arguments that the flags are read as, from left to right. -/
inductive Reads : List Argument → List String → Prop
  | nil : Reads [] []
  | kept {flag : String} {args : List Argument} {flags : List String} (hne : flag ≠ patchFlag)
    (hjoined : ∀ value, flag ≠ patchFlag ++ "=" ++ value) (h : Reads args flags) :
    Reads (.kept flag :: args) (flag :: flags)
  | apart {value : String} {args : List Argument} {flags : List String} (h : Reads args flags) :
    Reads (.apart value :: args) (patchFlag :: value :: flags)
  | joined {value : String} {args : List Argument} {flags : List String} (h : Reads args flags) :
    Reads (.joined value :: args) ((patchFlag ++ "=" ++ value) :: flags)
  | bare : Reads [.bare] [patchFlag]

variable {args args' : List Argument} {flags : List String} {map : SortedMap String String}

theorem joined_ne (value : String) : patchFlag ++ "=" ++ value ≠ patchFlag := by
  intro h
  have := congrArg String.length h
  rw [String.length_append, String.length_append] at this
  have : "=".length = 1 := rfl
  omega

theorem joined_inj {value value' : String}
    (h : patchFlag ++ "=" ++ value = patchFlag ++ "=" ++ value') : value = value' := by
  have hchars := congrArg String.toList h
  simp only [String.toList_append, List.append_cancel_left_eq] at hchars
  exact String.toList_inj.mp hchars

/-- Every list of flags is read. -/
theorem exists_reads : (flags : List String) → ∃ args, Reads args flags
  | [] => ⟨[], .nil⟩
  | [flag] => by
    by_cases hflag : flag = patchFlag
    · exact ⟨[.bare], hflag ▸ .bare⟩
    · by_cases hjoined : ∃ value, flag = patchFlag ++ "=" ++ value
      · obtain ⟨value, rfl⟩ := hjoined
        exact ⟨[.joined value], .joined .nil⟩
      · exact ⟨[.kept flag], .kept hflag (not_exists.mp hjoined) .nil⟩
  | flag :: value :: flags => by
    by_cases hflag : flag = patchFlag
    · obtain ⟨args, h⟩ := exists_reads flags
      exact ⟨.apart value :: args, hflag ▸ .apart h⟩
    · obtain ⟨args, h⟩ := exists_reads (value :: flags)
      by_cases hjoined : ∃ value, flag = patchFlag ++ "=" ++ value
      · obtain ⟨v, rfl⟩ := hjoined
        exact ⟨.joined v :: args, .joined h⟩
      · exact ⟨.kept flag :: args, .kept hflag (not_exists.mp hjoined) h⟩

/-- Flags are read in one way. -/
theorem Reads.unique (h : Reads args flags) (h' : Reads args' flags) : args' = args := by
  induction h generalizing args' with
  | nil => cases h'; rfl
  | @kept flag _ flags hne hjoined _ ih =>
    generalize hl : flag :: flags = l at h'
    cases h' with
    | nil => cases hl
    | kept _ _ h' =>
      obtain ⟨rfl, rfl⟩ := List.cons.inj hl
      rw [ih h']
    | apart h' => exact absurd (List.cons.inj hl).1 hne
    | joined h' => exact absurd (List.cons.inj hl).1 (hjoined _)
    | bare => exact absurd (List.cons.inj hl).1 hne
  | @apart value _ flags _ ih =>
    generalize hl : patchFlag :: value :: flags = l at h'
    cases h' with
    | nil => cases hl
    | kept hne _ h' => exact absurd (List.cons.inj hl).1.symm hne
    | apart h' =>
      obtain ⟨rfl, rfl⟩ := List.cons.inj (List.cons.inj hl).2
      rw [ih h']
    | joined h' => exact absurd (List.cons.inj hl).1.symm (joined_ne _)
    | bare => cases (List.cons.inj hl).2
  | @joined value _ flags _ ih =>
    generalize hl : (patchFlag ++ "=" ++ value) :: flags = l at h'
    cases h' with
    | nil => cases hl
    | kept _ hjoined h' => exact absurd (List.cons.inj hl).1.symm (hjoined _)
    | apart h' => exact absurd (List.cons.inj hl).1 (joined_ne _)
    | joined h' =>
      obtain ⟨hvalue, rfl⟩ := List.cons.inj hl
      rw [ih h', joined_inj hvalue]
    | bare => exact absurd (List.cons.inj hl).1 (joined_ne _)
  | bare =>
    generalize hl : [patchFlag] = l at h'
    cases h' with
    | nil => cases hl
    | kept hne _ _ => exact absurd (List.cons.inj hl).1.symm hne
    | apart h' => cases (List.cons.inj hl).2
    | joined h' => exact absurd (List.cons.inj hl).1.symm (joined_ne _)
    | bare => rfl

/-- The flags that are kept are read as they are. -/
theorem Reads.kept_again (h : Reads args flags) :
    Reads ((args.filterMap Argument.kept?).map .kept) (args.filterMap Argument.kept?) := by
  induction h with
  | nil => exact .nil
  | kept hne hjoined _ ih => exact .kept hne hjoined ih
  | apart _ ih => exact ih
  | joined _ ih => exact ih
  | bare => exact .nil

/-- Splitting goes through the arguments. -/
theorem splitFlags_of_reads (h : Reads args flags) (map : SortedMap String String) :
    splitFlags flags map =
      (args.foldlM Argument.patch map).map (args.filterMap Argument.kept?, ·) := by
  induction h generalizing map with
  | nil => rfl
  | @kept flag args flags hne hjoined _ ih =>
    have hstrip : Text.stripBeginning? (patchFlag ++ "=") flag = none := by
      rw [Text.stripBeginning?_eq_none_iff]
      intro tail he
      exact hjoined (String.ofList tail) (Text.toList_eq_append_iff.mp he)
    have hrun : (Argument.kept flag :: args).foldlM Argument.patch map =
        args.foldlM Argument.patch map := rfl
    rw [splitFlags.eq_def]
    simp only [if_neg hne, hstrip, ih]
    rw [hrun]
    cases args.foldlM Argument.patch map with
    | error e => rfl
    | ok m => rfl
  | @apart value args flags _ ih =>
    have hrun : (Argument.apart value :: args).foldlM Argument.patch map =
        (parsePatch value).bind fun m => args.foldlM Argument.patch m := rfl
    rw [hrun, splitFlags.eq_def]
    simp only [↓reduceIte]
    cases parsePatch value with
    | error e => rfl
    | ok m => exact ih m
  | @joined value args flags _ ih =>
    have hstrip : Text.stripBeginning? (patchFlag ++ "=") (patchFlag ++ "=" ++ value) =
        some value := by
      rw [Text.stripBeginning?_eq_some_iff, String.toList_append]
    have hrun : (Argument.joined value :: args).foldlM Argument.patch map =
        (parsePatch value).bind fun m => args.foldlM Argument.patch m := rfl
    rw [hrun, splitFlags.eq_def]
    simp only [if_neg (joined_ne value), hstrip]
    cases parsePatch value with
    | error e => rfl
    | ok m => exact ih m
  | bare => rfl

/-! ## Runs through arguments -/

/-- Arguments that do not fail leave the map of the last value. -/
theorem foldlM_patch_of_ok (h : ∀ a ∈ args, ∀ e, ¬ a.Fails e) (map : SortedMap String String) :
    ∃ map', args.foldlM Argument.patch map = .ok map' ∧
      ((args.filterMap Argument.value?).getLast? = none → map' = map) ∧
      ∀ value, (args.filterMap Argument.value?).getLast? = some value →
        parsePatch value = .ok map' := by
  induction args using List.reverseRecOn with
  | nil => exact ⟨map, rfl, fun _ => rfl, fun value h => absurd h (Option.some_ne_none value).symm⟩
  | append_singleton args a ih =>
    obtain ⟨map₁, hrun, hnone, hsome⟩ := ih fun b hb => h b (List.mem_append_left [a] hb)
    have ha := h a (List.mem_append_right args List.mem_cons_self)
    have hlast : (args ++ [a]).foldlM Argument.patch map = a.patch map₁ := by
      rw [List.foldlM_append, hrun]
      change (a.patch map₁).bind pure = a.patch map₁
      cases a.patch map₁ with
      | error e => rfl
      | ok m => rfl
    rw [hlast, List.filterMap_append]
    cases hv : a.value? with
    | none =>
      rw [List.filterMap_cons_none hv, List.filterMap_nil, List.append_nil]
      cases a with
      | kept flag => exact ⟨map₁, rfl, hnone, hsome⟩
      | bare => exact absurd .bare (ha .missingValue)
      | _ => cases hv
    | some value =>
      rw [List.filterMap_cons_some hv, List.filterMap_nil, List.getLast?_concat,
        Argument.patch_of_value hv]
      rcases lists_or_malformed value with hm | ⟨_, _, map', _, hok, _⟩
      · exact absurd (.value hv hm) (ha (.malformed value))
      · refine ⟨map', hok, fun h => absurd h (Option.some_ne_none value), fun v h => ?_⟩
        cases h
        exact hok

/-- The first argument that fails ends the run. -/
theorem foldlM_patch_of_fails {before after : List Argument} {a : Argument} {e : OptionsError}
    (hbefore : ∀ b ∈ before, ∀ e, ¬ b.Fails e) (ha : a.Fails e) :
    (before ++ a :: after).foldlM Argument.patch map = .error e := by
  obtain ⟨map', hrun, -⟩ := foldlM_patch_of_ok hbefore map
  rw [List.foldlM_append, hrun]
  change (a.patch map').bind (fun m => after.foldlM Argument.patch m) = .error e
  rw [Argument.patch_of_fails ha]
  rfl

theorem none_fails_or_first (args : List Argument) : (∀ a ∈ args, ∀ e, ¬ a.Fails e) ∨
    ∃ before a after e, args = before ++ a :: after ∧ (∀ b ∈ before, ∀ e, ¬ b.Fails e) ∧
      a.Fails e := by
  induction args with
  | nil => exact Or.inl fun a ha => absurd ha List.not_mem_nil
  | cons a args ih =>
    by_cases ha : ∃ e, a.Fails e
    · obtain ⟨e, ha⟩ := ha
      exact Or.inr ⟨[], a, args, e, rfl, fun b hb => absurd hb List.not_mem_nil, ha⟩
    · rcases ih with hnone | ⟨before, b, after, e, rfl, hbefore, hb⟩
      · exact Or.inl (List.forall_mem_cons.mpr ⟨not_exists.mp ha, hnone⟩)
      · exact Or.inr ⟨a :: before, b, after, e, rfl,
          List.forall_mem_cons.mpr ⟨not_exists.mp ha, hbefore⟩, hb⟩

/-! ## Normalizing -/

/-- The map `new` with what `old` says of the packages that it does not name. -/
def overlaid (new old : SortedMap String String) : SortedMap String String :=
  old.toList.foldl (fun m e => m.insertNew e.1 e.2) new

theorem find?_overlaid (new old : SortedMap String String) (package : String) :
    (overlaid new old).find? package = (new.find? package).or (old.find? package) :=
  SortedMap.find?_foldl_newEntries old.toList new package

theorem overlaid_self (m : SortedMap String String) : overlaid m m = m := by
  refine SortedMap.ext fun package => ?_
  rw [find?_overlaid, Option.or_self]

theorem normalized_of_reads {o : Options} (h : Reads args o.backendFlags) : o.normalized =
    (args.foldlM Argument.patch o.patchMap).map fun map =>
      { o with
        backendFlags := args.filterMap Argument.kept?
        patchMap := overlaid map o.patchMap } := by
  unfold normalized withBackendFlags
  rw [splitFlags_of_reads h]
  cases args.foldlM Argument.patch o.patchMap with
  | error e => rfl
  | ok map => rfl

/-- Options whose flags are all kept are normal. -/
theorem normalized_of_kept {o : Options} (h : Reads (o.backendFlags.map .kept) o.backendFlags) :
    o.normalized = .ok o := by
  have hrun : ∀ (flags : List String) (map : SortedMap String String),
      (flags.map Argument.kept).foldlM Argument.patch map = .ok map := by
    intro flags map
    induction flags with
    | nil => rfl
    | cons flag flags ih => exact ih
  have hkept : (o.backendFlags.map Argument.kept).filterMap Argument.kept? = o.backendFlags := by
    rw [List.filterMap_map]
    exact List.filterMap_some
  rw [normalized_of_reads h, hrun, hkept]
  change Except.ok { o with patchMap := overlaid o.patchMap o.patchMap } = Except.ok o
  rw [overlaid_self]

/-- **Normal options.** The flags of every options are read as arguments in one way. Normalizing
fails if an argument lacks its value or has a malformed one, and the first of these is reported.
Otherwise it comes to the flags that are kept, in their order, and to the map that has what the last
value lists, and for every other package what it had before; nothing else changes, and normalizing
once more changes nothing at all. -/
theorem normalized_exact (o : Options) : ∃ args, Reads args o.backendFlags ∧
    (∀ args', Reads args' o.backendFlags → args' = args) ∧
    (∀ o', o.normalized = .ok o' →
      o'.normalized = .ok o' ∧
      o'.backendFlags = args.filterMap Argument.kept? ∧
      (∀ value, (args.filterMap Argument.value?).getLast? = some value →
        (∃ module packages, Lists value module packages) ∧
        ∀ module packages, Lists value module packages → ∀ package, o'.patchMap.find? package =
          if package ∈ packages then some module else o.patchMap.find? package) ∧
      (args.filterMap Argument.value? = [] → o'.patchMap = o.patchMap) ∧
      o' = { o with backendFlags := o'.backendFlags, patchMap := o'.patchMap }) ∧
    ((∃ e, o.normalized = .error e) ↔ ∃ a ∈ args, ∃ e, a.Fails e) ∧
    ∀ e, o.normalized = .error e ↔ ∃ before a after,
      args = before ++ a :: after ∧ (∀ b ∈ before, ∀ e, ¬ b.Fails e) ∧ a.Fails e := by
  obtain ⟨args, h⟩ := exists_reads o.backendFlags
  refine ⟨args, h, fun args' h' => h.unique h', ?_⟩
  rw [normalized_of_reads h]
  rcases none_fails_or_first args with hok | ⟨before, a, after, e, rfl, hbefore, ha⟩
  · obtain ⟨map, hrun, hnone, hsome⟩ := foldlM_patch_of_ok hok o.patchMap
    rw [hrun]
    refine ⟨fun o' ho' => ?_, ⟨fun ⟨e, he⟩ => ?_, fun ⟨a, ha, e, he⟩ => ?_⟩,
      fun e => ⟨fun he => ?_, ?_⟩⟩
    · obtain rfl := Except.ok.inj ho'
      refine ⟨normalized_of_kept h.kept_again, rfl, fun value hvalue => ?_, fun hvalues => ?_, rfl⟩
      · have hmap := hsome value hvalue
        rcases lists_or_malformed value with hm | ⟨module, packages, map', hlists, hok, hfind⟩
        · rw [parsePatch_of_malformed hm] at hmap
          cases hmap
        · rw [hok] at hmap
          cases hmap
          refine ⟨⟨module, packages, hlists⟩, fun module' packages' hlists' package => ?_⟩
          obtain ⟨rfl, rfl⟩ := hlists.unique hlists'
          rw [find?_overlaid, hfind]
          split
          · rfl
          · rfl
      · change overlaid map o.patchMap = o.patchMap
        rw [hnone (List.getLast?_eq_none_iff.mpr hvalues), overlaid_self]
    · cases he
    · exact absurd he (hok a ha e)
    · cases he
    · rintro ⟨before, a, after, rfl, -, ha⟩
      exact absurd ha (hok a (List.mem_append_right before List.mem_cons_self) e)
  · rw [foldlM_patch_of_fails hbefore ha]
    refine ⟨fun o' ho' => ?_, iff_of_true ⟨e, rfl⟩ ⟨a, ?_, e, ha⟩, fun e' => ⟨fun he => ?_, ?_⟩⟩
    · cases ho'
    · exact List.mem_append_right before List.mem_cons_self
    · cases he
      exact ⟨before, a, after, rfl, hbefore, ha⟩
    · rintro ⟨before', a', after', hargs, hbefore', ha'⟩
      have hfirst : (before ++ a :: after).foldlM Argument.patch o.patchMap = .error e' :=
        hargs ▸ foldlM_patch_of_fails hbefore' ha'
      rw [foldlM_patch_of_fails hbefore ha] at hfirst
      cases hfirst
      rfl

/-- A flag that is taken as a value is not read as one that patches a module. -/
example : (withBackendFlags {} ["-g", "--patch-module", "--patch-module=p", "-parameters"]).map
      (fun o => (o.backendFlags, o.patchMap.toList)) =
    .ok (["-g", "-parameters"], [("p", "--patch-module")]) := by
  decide +kernel

end VirtualClasspath.Options
