import VirtualClasspath.Proofs.Provider
import VirtualClasspath.Proofs.Sorted
import VirtualClasspath.Proofs.Text
import VirtualClasspath.View

/-!
# What a listing of a package shows

The names that begin with one text lie next to each other in the order of names
(`Text.begins_of_between`), so the scan that a listing is made by comes by all of them before it stops
(`front_listFrom`). One induction along the scan (`scan_run`) gives what it shows, which is each entry
of the package and nothing else (`select_fst`, `mem_select`), and what it says (`messages_select`).
`mem_merge` is about a listing that types of the host are added to. Both are in order, and so show a
name once (`filter_name_eq`).
-/

namespace VirtualClasspath

namespace Text

theorem not_append_lt (pre rest : List Char) : ¬ pre ++ rest < pre := by
  induction pre with
  | nil => exact List.not_lt_nil _
  | cons c pre ih =>
    rw [List.cons_append, List.cons_lt_cons_iff]
    rintro (hc | ⟨-, h⟩)
    · exact absurd hc (Std.lt_irrefl)
    · exact ih h

/-- What lies between `pre` and a text that begins with it begins with it too. -/
theorem begins_of_between {pre rest l : List Char} (h : ¬ l < pre) (h' : l < pre ++ rest) :
    ∃ tail, l = pre ++ tail := by
  induction pre generalizing l with
  | nil => exact ⟨l, rfl⟩
  | cons c pre ih =>
    cases l with
    | nil => exact absurd (List.nil_lt_cons c pre) h
    | cons d l =>
      rw [List.cons_lt_cons_iff, not_or] at h
      rw [List.cons_append, List.cons_lt_cons_iff] at h'
      rcases h' with hlt | ⟨rfl, h'⟩
      · exact absurd hlt h.1
      · obtain ⟨tail, rfl⟩ := ih (fun hl => h.2 ⟨rfl, hl⟩) h'
        exact ⟨tail, rfl⟩

end Text

namespace View

variable {logging : LogSettings} {package pre : String} {recursive : Bool} {n : TypeName}
  {j : Journal}

/-! ## Entries of a package -/

/-- Names that begin with `pre`, and have no dot after it unless `recursive`. -/
def Shows (pre : String) (recursive : Bool) (n : TypeName) : Prop :=
  ∃ tail, n.text.toList = pre.toList ++ tail ∧ (recursive = true ∨ '.' ∉ tail)

/-- The name is the package and a dot, with no simple name after it. -/
def Trails (package : String) (n : TypeName) : Prop := package ≠ "" ∧ n.text = package ++ "."

instance : Decidable (Trails package n) := inferInstanceAs (Decidable (_ ∧ _))

theorem packageBeginning_of_ne (h : package ≠ "") : packageBeginning package = package ++ "." :=
  if_neg h

/-- **A type lies in a package** if it is shown in the listing of it and has a simple name. -/
theorem inPackage_iff :
    n.inPackage package recursive = true ↔
      Shows (packageBeginning package) recursive n ∧ ¬ Trails package n := by
  unfold TypeName.inPackage Shows Trails
  by_cases hp : package = ""
  · subst hp
    rw [if_pos rfl, Bool.or_eq_true, Bool.not_eq_true', Text.hasChar_eq_false_iff]
    constructor
    · exact fun h => ⟨⟨n.text.toList, rfl, h⟩, fun ht => ht.1 rfl⟩
    · rintro ⟨⟨tail, ht, h⟩, -⟩
      exact ht ▸ h
  · rw [if_neg hp, packageBeginning_of_ne hp, String.toList_append]
    cases ha : Text.after? (package.toList ++ ['.']) n.text.toList with
    | none =>
      refine iff_of_false Bool.false_ne_true ?_
      rintro ⟨⟨tail, ht, -⟩, -⟩
      exact Text.after?_eq_none_iff.mp ha tail ht
    | some rest =>
      have hrest := Text.after?_eq_some_iff.mp ha
      have htrails : n.text = package ++ "." ↔ rest = [] := by
        rw [← String.toList_inj, hrest, String.toList_append]
        exact List.append_right_eq_self
      rw [Bool.and_eq_true, Bool.or_eq_true, Bool.not_eq_true', Bool.not_eq_true',
        List.contains_eq_mem, decide_eq_false_iff_not, List.isEmpty_eq_false_iff]
      constructor
      · rintro ⟨hne, h⟩
        exact ⟨⟨rest, hrest, h⟩, fun ht => hne (htrails.mp ht.2)⟩
      · rintro ⟨⟨tail, ht, h⟩, hno⟩
        obtain rfl := List.append_cancel_left (hrest.symm.trans ht)
        exact ⟨fun he => hno ⟨hp, htrails.mpr he⟩, h⟩

/-- What a listing shows begins as the scan requires. -/
theorem Shows.beginsWith (h : Shows pre recursive n) : Text.beginsWith pre n.text = true :=
  Text.beginsWith_iff.mpr (h.imp fun _ ht => ht.1)

/-- The test that a scan makes of what follows the beginning. -/
theorem shows_iff_of_append {tail : String} (h : n.text.toList = pre.toList ++ tail.toList) :
    Shows pre recursive n ↔ (!recursive && Text.hasChar '.' tail) = false := by
  rw [Bool.and_eq_false_iff, Bool.not_eq_false', Text.hasChar_eq_false_iff]
  constructor
  · rintro ⟨tail', ht, hs⟩
    rw [h, List.append_cancel_left_eq] at ht
    exact ht ▸ hs
  · exact fun hs => ⟨tail.toList, h, hs⟩

instance : Decidable (Shows pre recursive n) :=
  match h : Text.stripBeginning? pre n.text with
  | some _ => decidable_of_iff _ (shows_iff_of_append (Text.stripBeginning?_eq_some_iff.mp h)).symm
  | none => isFalse fun ⟨tail, ht, _⟩ => Text.stripBeginning?_eq_none_iff.mp h tail ht

/-! ## Along a scan -/

/-- The entries that a scan comes by before it stops. -/
def front (pre : String) (l : List (TypeName × Origin)) : List (TypeName × Origin) :=
  l.takeWhile fun p => Text.beginsWith pre p.1.text

/-- What is said of an entry that a scan comes by. -/
def remark (package pre : String) (recursive : Bool) (n : TypeName) : Message :=
  if Shows pre recursive n then exposedMessage n else passedMessage package n

section Steps

variable {origin : Origin} {l : List (TypeName × Origin)}

theorem scan_cons_of_end (h : ¬ Text.beginsWith pre n.text = true) :
    scan logging package pre recursive ((n, origin) :: l) = pure [] := by
  have hs : Text.stripBeginning? pre n.text = none := by
    rw [Text.stripBeginning?_eq_none_iff]
    exact fun tail ht => h (Text.beginsWith_iff.mpr ⟨tail, ht⟩)
  rw [scan, hs]

/-- An entry that the scan comes by is announced, and then shown if it is one of the listing. -/
theorem scan_cons_of_begins (h : Text.beginsWith pre n.text = true) :
    scan logging package pre recursive ((n, origin) :: l) = (do
      report logging (remark package pre recursive n)
      let rest ← scan logging package pre recursive l
      return if Shows pre recursive n then ⟨n, origin⟩ :: rest else rest) := by
  obtain ⟨tail, ht⟩ := Text.beginsWith_iff.mp h
  rw [← String.toList_ofList (l := tail)] at ht
  rw [scan, Text.stripBeginning?_eq_some_iff.mpr ht, remark]
  by_cases hs : Shows pre recursive n
  · simp only [(shows_iff_of_append ht).mp hs, hs, if_true, Bool.false_eq_true, if_false]
  · have hskip := mt (shows_iff_of_append ht).mpr hs
    simp only [Bool.not_eq_false] at hskip
    simp only [hskip, hs, if_true, if_false]
    rfl

end Steps

/-- **What a scan shows and says.** -/
theorem scan_run (logging : LogSettings) (package pre : String) (recursive : Bool)
    (l : List (TypeName × Origin)) (j : Journal) :
    (scan logging package pre recursive l j).1 =
      ((front pre l).filter fun p => Shows pre recursive p.1).map (fun p => ⟨p.1, p.2⟩) ∧
    (scan logging package pre recursive l j).2.messages.toList = j.messages.toList ++
      ((front pre l).map fun p => remark package pre recursive p.1).filter
        fun m => logging.enables m.category := by
  induction l generalizing j with
  | nil => exact ⟨rfl, (List.append_nil _).symm⟩
  | cons p l ih =>
    obtain ⟨n, origin⟩ := p
    by_cases hb : Text.beginsWith pre n.text = true
    · have hfront : front pre ((n, origin) :: l) = (n, origin) :: front pre l :=
        List.takeWhile_cons_of_pos hb
      obtain ⟨hlist, hsent⟩ := ih (report logging (remark package pre recursive n) j).2
      rw [scan_cons_of_begins hb, hfront, bind_run, bind_run]
      constructor
      · change (if _ then _ else _) = _
        rw [hlist]
        by_cases hs : Shows pre recursive n
        · rw [if_pos hs, List.filter_cons_of_pos (by simpa using hs), List.map_cons]
        · rw [if_neg hs, List.filter_cons_of_neg (by simpa using hs)]
      · refine hsent.trans ?_
        rw [messages_report, List.append_assoc, ← List.filter_append, List.singleton_append,
          List.map_cons]
    · have hfront : front pre ((n, origin) :: l) = [] := List.takeWhile_cons_of_neg hb
      rw [scan_cons_of_end hb, hfront]
      exact ⟨rfl, (List.append_nil _).symm⟩

/-! ## From the first name to the last -/

theorem not_lt_of_begins (h : Text.beginsWith pre n.text = true) : ¬ n < ⟨pre⟩ := by
  obtain ⟨tail, ht⟩ := Text.beginsWith_iff.mp h
  intro hlt
  have hlt : n.text.toList < pre.toList := hlt
  rw [ht] at hlt
  exact Text.not_append_lt _ _ hlt

/-- **A scan from the beginning of the names comes by all entries that begin so.** -/
theorem front_listFrom (m : SortedMap TypeName Origin) (pre : String) :
    front pre (m.listFrom ⟨pre⟩) = m.toList.filter fun p => Text.beginsWith pre p.1.text := by
  rw [SortedMap.listFrom_eq_filter]
  refine (takeWhile_eq_filter ((m.ascending.filter _).imp_of_mem ?_)).trans ?_
  · rintro ⟨n, origin⟩ q hn - hlt hq
    obtain ⟨tail, ht⟩ := Text.beginsWith_iff.mp hq
    have hfrom : ¬ n < ⟨pre⟩ := of_decide_eq_true (List.mem_filter.mp hn).2
    -- the name lies between the beginning and a name that begins so
    have hlt : n.text.toList < pre.toList ++ tail := ht ▸ hlt
    exact Text.beginsWith_iff.mpr (Text.begins_of_between hfrom hlt)
  · rw [List.filter_filter]
    refine List.filter_congr fun p _ => ?_
    rw [Bool.and_eq_left_iff_imp, decide_eq_true_iff]
    exact not_lt_of_begins

variable {v : View}

/-- **A listing is the whole map, filtered.** -/
theorem select_fst (v : View) (package : String) (recursive : Bool) (j : Journal) :
    (v.select package recursive j).1 =
      (v.entries.toList.filter fun p => Shows (packageBeginning package) recursive p.1).map
        fun p => ⟨p.1, p.2⟩ := by
  refine (scan_run _ _ _ _ _ j).1.trans ?_
  rw [front_listFrom, List.filter_filter]
  congr 1
  refine List.filter_congr fun p _ => ?_
  rw [Bool.and_eq_left_iff_imp, decide_eq_true_iff]
  exact Shows.beginsWith

/-- What is said while a package is listed, as far as it is wanted. -/
theorem messages_select (v : View) (package : String) (recursive : Bool) (j : Journal) :
    (v.select package recursive j).2.messages.toList = j.messages.toList ++
      ((v.entries.keys.filter fun n => Text.beginsWith (packageBeginning package) n.text).map
        (remark package (packageBeginning package) recursive)).filter
          fun m => v.options.logging.enables m.category := by
  refine (scan_run _ _ _ _ _ j).2.trans ?_
  have hnames : ∀ l : List (TypeName × Origin),
      l.map (fun p => remark package (packageBeginning package) recursive p.1) =
        (l.map Prod.fst).map (remark package (packageBeginning package) recursive) := by
    intro l
    rw [List.map_map]
    rfl
  rw [front_listFrom, hnames, SortedMap.keys, List.filter_map (f := Prod.fst)]
  rfl

/-- **A listing shows the entries of the package.** -/
theorem mem_select {e : Entry} :
    e ∈ (v.select package recursive j).1 ↔
      v.entries.find? e.name = some e.origin ∧
        Shows (packageBeginning package) recursive e.name := by
  rw [select_fst, List.mem_map, ← SortedMap.mem_toList_iff]
  constructor
  · rintro ⟨p, hp, rfl⟩
    rwa [List.mem_filter, decide_eq_true_iff] at hp
  · rintro ⟨he, hs⟩
    exact ⟨(e.name, e.origin), List.mem_filter.mpr ⟨he, decide_eq_true hs⟩, rfl⟩

theorem pairwise_select (v : View) (package : String) (recursive : Bool) (j : Journal) :
    (v.select package recursive j).1.Pairwise fun e f => e.name < f.name := by
  rw [select_fst]
  exact List.pairwise_map.mpr (v.entries.ascending.filter _)

/-! ## Entries and types of the host -/

theorem mem_entriesOf {m : SortedMap TypeName Origin} {e : Entry} :
    e ∈ entriesOf m ↔ m.find? e.name = some e.origin := by
  unfold entriesOf
  rw [List.mem_map, ← SortedMap.mem_toList_iff]
  constructor
  · rintro ⟨p, hp, rfl⟩
    exact hp
  · exact fun h => ⟨(e.name, e.origin), h, rfl⟩

theorem pairwise_entriesOf (m : SortedMap TypeName Origin) :
    (entriesOf m).Pairwise fun e f => e.name < f.name :=
  List.pairwise_map.mpr m.ascending

/-- **A merged listing** shows what was selected, and the types of the host that were not. -/
theorem mem_merge {o : Options} {selected : List Entry} {names : List TypeName}
    (h : selected.Pairwise fun e f => e.name < f.name) {e : Entry} :
    e ∈ merge o selected names ↔ e ∈ selected ∨
      (∀ f ∈ selected, f.name ≠ e.name) ∧ e.name ∈ names ∧ e.origin = hostOrigin o e.name := by
  have hown : (selected.map fun f => (f.name, f.origin)).Pairwise fun p q => p.1 < q.1 :=
    List.pairwise_map.mpr h
  unfold merge
  rw [mem_entriesOf, SortedMap.find?_foldl_insertNew, SortedMap.ofList_of_ascending hown]
  generalize hm : (⟨_, hown⟩ : SortedMap TypeName Origin) = own
  have hmem : ∀ n origin, own.find? n = some origin ↔ (⟨n, origin⟩ : Entry) ∈ selected := by
    intro n origin
    rw [← SortedMap.mem_toList_iff, ← hm, List.mem_map]
    constructor
    · rintro ⟨f, hf, he⟩
      cases he
      exact hf
    · exact fun hf => ⟨_, hf, rfl⟩
  cases hfind : own.find? e.name with
  | some origin =>
    have hsel := (hmem _ _).mp hfind
    have hno : ¬ ∀ f ∈ selected, f.name ≠ e.name := fun hall => hall _ hsel rfl
    simp only [Option.getD_some, ite_self, hno, false_and, or_false]
    rw [← hfind]
    exact hmem e.name e.origin
  | none =>
    have hno : ∀ f ∈ selected, f.name ≠ e.name := fun f hf hn => by
      have := (hmem f.name f.origin).mpr hf
      rw [hn, hfind] at this
      cases this
    have hnot : e ∉ selected := fun he => hno e he rfl
    rw [Option.getD_none, or_iff_right hnot]
    by_cases hn : e.name ∈ names
    · rw [if_pos hn, Option.some.injEq]
      exact ⟨fun he => ⟨hno, hn, he.symm⟩, fun he => he.2.2.symm⟩
    · rw [if_neg hn]
      exact ⟨fun he => absurd he (Option.some_ne_none _).symm, fun he => absurd he.2.1 hn⟩

theorem pairwise_merge (o : Options) (selected : List Entry) (names : List TypeName) :
    (merge o selected names).Pairwise fun e f => e.name < f.name :=
  pairwise_entriesOf _

/-- A listing in order shows the name of an entry in it once. -/
theorem filter_name_eq {l : List Entry} (h : l.Pairwise fun e f => e.name < f.name) {e : Entry}
    (he : e ∈ l) : l.filter (fun f => f.name = e.name) = [e] := by
  induction l with
  | nil => exact absurd he List.not_mem_nil
  | cons f l ih =>
    obtain ⟨hf, hl⟩ := List.pairwise_cons.mp h
    rw [List.filter_cons]
    rcases List.mem_cons.mp he with rfl | he
    · rw [if_pos (by simp), List.filter_eq_nil_iff.mpr]
      intro g hg hn
      exact Std.ne_of_lt (hf g hg) (of_decide_eq_true hn).symm
    · rw [if_neg (by simpa using Std.ne_of_lt (hf e he)), ih hl he]

end View

end VirtualClasspath
