import Mathlib.Data.List.Count
import Mathlib.Data.List.Nodup
import VirtualClasspath.Proofs.Logging.Discreet
import VirtualClasspath.Proofs.View.Listing

/-!
# The scan of a package is a look at every entry

A listing starts at the first name that can lie in the package and stops at the first that cannot.
`Belongs` says which names a listing is to have, and `Below` which ones it has to say something
about, both by the text of the name alone. `list_exact` compares the scan with them: it lists the
names that belong to the package, out of all entries, and reports each entry below the package once,
as shown or as passed over.
-/

namespace VirtualClasspath.View

variable {package pre : String} {recursive : Bool} {n m : TypeName} {v : View} {j : Journal}

/-! ## The members of a listing -/

/-- Whether the name begins with the package and a dot. All names do for the unnamed package. -/
def Below (package : String) (n : TypeName) : Prop :=
  package = "" ∨ ∃ rest, n.text = package ++ "." ++ rest

/-- Whether a listing of the package has the name. A name of the unnamed package has no dot; in any
other package a name is the package, a dot, and a rest without a dot. When the listing is recursive,
more dots do not matter. -/
def Belongs (package : String) (recursive : Bool) (n : TypeName) : Prop :=
  if package = "" then recursive = true ∨ '.' ∉ n.text.toList
  else ∃ rest, n.text = package ++ "." ++ rest ∧ (recursive = true ∨ '.' ∉ rest.toList)

theorem below_iff_beginsWith :
    Below package n ↔ Text.beginsWith (packageBeginning package) n.text = true := by
  unfold Below
  rw [Text.beginsWith_iff]
  by_cases hp : package = ""
  · subst hp
    exact iff_of_true (Or.inl rfl) ⟨n.text.toList, rfl⟩
  · rw [packageBeginning_of_ne hp, or_iff_right hp]
    constructor
    · rintro ⟨rest, hr⟩
      exact ⟨rest.toList, by rw [hr, String.toList_append]⟩
    · rintro ⟨tail, ht⟩
      exact ⟨String.ofList tail, Text.toList_eq_append_iff.mp ht⟩

theorem belongs_iff_shows :
    Belongs package recursive n ↔ Shows (packageBeginning package) recursive n := by
  unfold Belongs Shows
  by_cases hp : package = ""
  · subst hp
    rw [if_pos rfl]
    constructor
    · exact fun h => ⟨n.text.toList, rfl, h⟩
    · rintro ⟨tail, ht, h⟩
      exact ht ▸ h
  · rw [packageBeginning_of_ne hp, if_neg hp]
    constructor
    · rintro ⟨rest, hr, h⟩
      exact ⟨rest.toList, by rw [hr, String.toList_append], h⟩
    · rintro ⟨tail, ht, h⟩
      exact ⟨String.ofList tail, Text.toList_eq_append_iff.mp ht, by rwa [String.toList_ofList]⟩

instance : Decidable (Below package n) := decidable_of_iff _ below_iff_beginsWith.symm

instance : Decidable (Belongs package recursive n) := decidable_of_iff _ belongs_iff_shows.symm

/-- **A listing has the names that belong to the package**, out of all entries. -/
theorem list_fst (v : View) (package : String) (recursive : Bool) (j : Journal) :
    (v.list package recursive j).1 =
      v.entries.keys.filter fun n => Belongs package recursive n := by
  change (v.select package recursive _).1.map (·.name) = _
  rw [select_fst, List.map_map, SortedMap.keys, List.filter_map]
  refine congrArg _ (List.filter_congr fun p _ => ?_)
  exact decide_eq_decide.mpr belongs_iff_shows.symm

theorem mem_list :
    n ∈ (v.list package recursive j).1 ↔ v.contains n = true ∧ Belongs package recursive n := by
  rw [list_fst, List.mem_filter, decide_eq_true_iff, SortedMap.mem_keys_iff]
  rfl

/-! ## What is said -/

theorem exposedMessage_inj : exposedMessage n = exposedMessage m ↔ n = m := by
  refine ⟨fun h => ?_, congrArg _⟩
  have ht := congrArg (fun k : Message => k.text.toList) h
  simp only [exposedMessage, String.toList_append, List.append_cancel_left_eq,
    List.append_cancel_right_eq, String.toList_inj] at ht
  exact TypeName.text_inj.mp ht

theorem passedMessage_inj : passedMessage package n = passedMessage package m ↔ n = m := by
  refine ⟨fun h => ?_, congrArg _⟩
  have ht := congrArg (fun k : Message => k.text.toList) h
  simp only [passedMessage, String.toList_append, List.append_cancel_left_eq,
    List.append_cancel_right_eq, String.toList_inj] at ht
  exact TypeName.text_inj.mp ht

theorem exposedMessage_ne_passedMessage : exposedMessage n ≠ passedMessage package m := by
  intro h
  have hcategory : Category.exposingClass = .skippingSubpackage := congrArg Message.category h
  cases hcategory

theorem remark_eq_exposedMessage_iff :
    remark package pre recursive m = exposedMessage n ↔ m = n ∧ Shows pre recursive n := by
  unfold remark
  split
  · rename_i hs
    rw [exposedMessage_inj]
    exact ⟨fun h => ⟨h, h ▸ hs⟩, And.left⟩
  · rename_i hs
    refine iff_of_false exposedMessage_ne_passedMessage.symm ?_
    rintro ⟨rfl, h⟩
    exact hs h

theorem remark_eq_passedMessage_iff :
    remark package pre recursive m = passedMessage package n ↔ m = n ∧ ¬ Shows pre recursive n := by
  unfold remark
  split
  · rename_i hs
    refine iff_of_false exposedMessage_ne_passedMessage ?_
    rintro ⟨rfl, h⟩
    exact h hs
  · rename_i hs
    rw [passedMessage_inj]
    exact ⟨fun h => ⟨h, h ▸ hs⟩, And.left⟩

/-- Of two names, not the same is said. -/
theorem remark_injective : Function.Injective (remark package pre recursive) := by
  intro n m h
  by_cases hs : Shows pre recursive m
  · rw [remark_eq_exposedMessage_iff.mpr ⟨rfl, hs⟩] at h
    exact (remark_eq_exposedMessage_iff.mp h).1
  · rw [remark_eq_passedMessage_iff.mpr ⟨rfl, hs⟩] at h
    exact (remark_eq_passedMessage_iff.mp h).1

/-- Among remarks on different names, there is one on each of them. -/
theorem count_remarks {l : List TypeName} (hl : l.Nodup) (hn : n ∈ l) :
    (l.map (remark package pre recursive)).count (exposedMessage n) =
        (if Shows pre recursive n then 1 else 0) ∧
      (l.map (remark package pre recursive)).count (passedMessage package n) =
        if Shows pre recursive n then 0 else 1 := by
  have hone : (l.map (remark package pre recursive)).count (remark package pre recursive n) = 1 := by
    rw [List.count_map_of_injective _ _ remark_injective, List.count_eq_one_of_mem hl hn]
  by_cases hs : Shows pre recursive n
  · rw [remark_eq_exposedMessage_iff.mpr ⟨rfl, hs⟩] at hone
    rw [if_pos hs, if_pos hs]
    refine ⟨hone, List.count_eq_zero.mpr fun h => ?_⟩
    obtain ⟨m, -, hm⟩ := List.mem_map.mp h
    exact (remark_eq_passedMessage_iff.mp hm).2 hs
  · rw [remark_eq_passedMessage_iff.mpr ⟨rfl, hs⟩] at hone
    rw [if_neg hs, if_neg hs]
    refine ⟨List.count_eq_zero.mpr fun h => ?_, hone⟩
    obtain ⟨m, -, hm⟩ := List.mem_map.mp h
    exact hs (remark_eq_exposedMessage_iff.mp hm).2

/-- What a listing says, when both kinds of messages are wanted. -/
theorem messages_list (hexposing : v.options.logging.enables .exposingClass = true)
    (hskipping : v.options.logging.enables .skippingSubpackage = true) :
    (v.list package recursive j).2.messages.toList = j.messages.toList ++
      (v.entries.keys.filter fun n => Below package n).map
        (remark package (packageBeginning package) recursive) := by
  change (v.select package recursive (traceCall _ _ j).2).2.messages.toList = _
  have hbelow : (fun n => decide (Below package n)) =
      fun n => Text.beginsWith (packageBeginning package) n.text := by
    funext n
    rw [Bool.eq_iff_iff, decide_eq_true_iff, below_iff_beginsWith]
  rw [messages_select, messages_traceCall, hbelow, List.filter_eq_self.mpr]
  intro m hm
  obtain ⟨n, -, rfl⟩ := List.mem_map.mp hm
  unfold remark
  split
  · exact hexposing
  · exact hskipping

/-- **The range scan is the full scan.** Whatever the entries of a view are, a listing of a package
has exactly those that belong to it, in the order of the code points, each once. When both are
wanted, the messages sent by the listing are one for each entry below the package, in the same
order: that the entry is shown if it is listed, that it is passed over if not. -/
theorem list_exact (v : View) (package : String) (recursive : Bool) (j : Journal) :
    let answer := v.list package recursive j
    answer.1 = v.entries.keys.filter (fun n => Belongs package recursive n) ∧
    answer.1.Pairwise (· < ·) ∧
    (v.options.logging.enables .exposingClass = true →
      v.options.logging.enables .skippingSubpackage = true →
      ∃ told, answer.2.messages.toList = j.messages.toList ++ told ∧
        told = (v.entries.keys.filter fun n => Below package n).map (fun n =>
          if n ∈ answer.1 then exposedMessage n else passedMessage package n) ∧
        ∀ n ∈ v.entries.keys, Below package n →
          told.count (exposedMessage n) = (if n ∈ answer.1 then 1 else 0) ∧
          told.count (passedMessage package n) = if n ∈ answer.1 then 0 else 1) := by
  intro answer
  have hfst : answer.1 = v.entries.keys.filter fun n => Belongs package recursive n :=
    list_fst v package recursive j
  have hlisted : ∀ n ∈ v.entries.keys,
      (n ∈ answer.1 ↔ Shows (packageBeginning package) recursive n) := by
    intro n hn
    rw [hfst, List.mem_filter, decide_eq_true_iff, belongs_iff_shows, and_iff_right hn]
  refine ⟨hfst, hfst ▸ v.entries.pairwise_keys.filter _, fun hexposing hskipping => ?_⟩
  refine ⟨_, messages_list hexposing hskipping, List.map_congr_left fun n hn => ?_, fun n hn hb => ?_⟩
  · exact if_congr (hlisted n (List.mem_of_mem_filter hn)).symm rfl rfl
  · have hnodup : (v.entries.keys.filter fun n => Below package n).Nodup :=
      (v.entries.pairwise_keys.imp Std.ne_of_lt).filter _
    rw [if_congr (hlisted n hn) rfl rfl, if_congr (hlisted n hn) rfl rfl]
    exact count_remarks hnodup (List.mem_filter.mpr ⟨hn, decide_eq_true hb⟩)

/-- Names that lie next to a package: in a package below it, in packages and classes whose names go
on with a character before and after the dot, and in the package around it. -/
theorem list_exact_neighbours :
    let v : View := (make (.ofList [⟨"a.b.C"⟩, ⟨"a.b.c.D"⟩, ⟨"a.bc.E"⟩, ⟨"a.b$X"⟩, ⟨"a.A"⟩])
      ["a.b.Ç", "a.b/c", "a.b-c.F"] .none { logging := .verbose } {}).1
    v.options.logging.enables .exposingClass = true ∧
    v.options.logging.enables .skippingSubpackage = true ∧
    (v.list "a.b" false {}).1 = [⟨"a.b.C"⟩, ⟨"a.b.Ç"⟩] ∧
    ∃ told, (v.list "a.b" false {}).2.messages.toList = [] ++ told ∧
      told.count (exposedMessage ⟨"a.b.Ç"⟩) = 1 ∧
      told.count (passedMessage "a.b" ⟨"a.b.c.D"⟩) = 1 := by
  intro v
  obtain ⟨-, -, hsaid⟩ := list_exact v "a.b" false {}
  have hlist : (v.list "a.b" false {}).1 = [⟨"a.b.C"⟩, ⟨"a.b.Ç"⟩] := by decide +kernel
  obtain ⟨told, hmessages, -, hcount⟩ := hsaid (by decide +kernel) (by decide +kernel)
  refine ⟨by decide +kernel, by decide +kernel, hlist, told, hmessages, ?_, ?_⟩
  · rw [(hcount ⟨"a.b.Ç"⟩ (by decide +kernel) (by decide +kernel)).1, hlist]
    decide
  · rw [(hcount ⟨"a.b.c.D"⟩ (by decide +kernel) (by decide +kernel)).2, hlist]
    decide

end VirtualClasspath.View
