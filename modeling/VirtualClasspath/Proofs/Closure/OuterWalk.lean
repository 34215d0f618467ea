import Mathlib.Data.List.Induction
import Mathlib.Data.List.Nodup
import Mathlib.Order.Bounds.Defs
import VirtualClasspath.Assembly.Write
import VirtualClasspath.Proofs.Closure.Accounts
import VirtualClasspath.Proofs.Logging.Discreet

/-!
# What the walk outward asks for

The third phase of a closure goes from the references to the classes around them, and from those to
the classes around them. `Stage` is where it stands between two rounds of its loop, and `Stage.next`
is one round, with no word about when the loop ends. It ends all the same (`walk_ends`), though
names go back to what is pending: those of classes that a provider does not have add nothing, and
from each of the finitely many others the walk goes on once.

A round asks for one class at most, and a `Visit` is such a request with what was found. The visits
say everything about a walk: which name was `Due` at any time, and what was added (`Underway`). Each
visit is to the largest name that was due (`Follows`), and at the end no name is. So a second walk,
if it finds the same classes, visits no name that the first has not visited (`Trail.subset`), and
has nothing to add. A provider may have more classes by then; a second walk that finds them has more
to add (`outerChainPhase_tardy`).
-/

namespace VirtualClasspath.Closure

open Draft

/-! ## Moves that add nothing -/

/-- The counters stand still when no name is added. -/
theorem Moves.added_eq {logging : LogSettings} {x y : Draft × Journal} (hm : Moves logging x y)
    (h : ∀ n ∈ y.1.closure, n ∈ x.1.closure) : y.1.added = x.1.added := by
  induction hm with
  | refl => rfl
  | @tail y z hm hmove ih =>
    have hy : ∀ n ∈ y.1.closure, n ∈ x.1.closure := fun n hn => h n (hmove.grows.closure n hn)
    rw [← ih hy]
    cases hmove with
    | @add _ _ _ n hn =>
      -- A name that was added now would have been a member at the beginning already.
      obtain ⟨hadm, hnew⟩ := ClosureSet.admits_iff.mp hn
      have hx : n ∈ x.1.closure := h n (ClosureSet.mem_insert.mpr (Or.inr ⟨rfl, hadm⟩))
      exact absurd (Moves.grows hm |>.closure n hx) hnew
    | refer hn => rfl
    | skip n e => rfl
    | source n =>
      change (Draft.withSource _ n).added = _
      unfold Draft.withSource
      split <;> rfl
    | ask hj => rfl

/-! ## Rounds -/

/-- Where a walk outward stands. -/
inductive Stage
  | walking (d : Draft) (pending walked : SortedSet TypeName)
  | ended (d : Draft)

namespace Stage

variable {s : Setting} {j : Journal}

/-- A walk outward begins with the references. -/
def start (d : Draft) : Stage := walking d d.referenced ∅

/-- One round of the loop. -/
def next (s : Setting) : Stage → Session Stage
  | walking d pending walked =>
    match pending.max? with
    | none => return ended d
    | some n =>
      if n ∈ walked then return walking d (pending.erase n) walked
      else if n ∈ s.alwaysAvailable then return walking d (pending.erase n) (walked.insert n)
      else do
        let blobs ← s.provider.fetch n
        let t ← blobs.foldlM (addOuter s n) (d, pending.erase n)
        return walking t.1 t.2 (walked.insert n)
  | ended d => return ended d

/-- A number of rounds. -/
def after (s : Setting) : Nat → Stage → Session Stage
  | 0, stage => return stage
  | k + 1, stage => do after s k (← stage.next s)

theorem after_succ (k : Nat) (stage : Stage) :
    stage.after s (k + 1) j = (stage.next s j).1.after s k (stage.next s j).2 := rfl

/-- **The walk ends**, with the draft that it is for. -/
theorem walk_ends (d : Draft) (pending walked : SortedSet TypeName) (j : Journal) :
    ∃ rounds, (walking d pending walked).after s rounds j =
      (ended (walk s d pending walked j).1, (walk s d pending walked j).2) := by
  fun_induction walk s d pending walked j with
  | case1 d pending walked j hp => exact ⟨1, by simp only [after_succ, next, hp]; rfl⟩
  | case2 d pending walked j n hp hw ih =>
    obtain ⟨rounds, hrounds⟩ := ih
    refine ⟨rounds + 1, ?_⟩
    simp only [after_succ, next, hp, if_pos hw]
    exact hrounds
  | case3 d pending walked j n hp hw ha ih =>
    obtain ⟨rounds, hrounds⟩ := ih
    refine ⟨rounds + 1, ?_⟩
    simp only [after_succ, next, hp, if_neg hw, if_pos ha]
    exact hrounds
  | case4 d pending walked j n hp hw ha j₁ hf ih =>
    obtain ⟨rounds, hrounds⟩ := ih
    refine ⟨rounds + 1, ?_⟩
    simp only [after_succ, next, hp, if_neg hw, if_neg ha, bind_run, hf]
    exact hrounds
  | case5 d pending walked j n hp hw ha b bs j₁ hf e rest j₂ hfold ih =>
    obtain ⟨rounds, hrounds⟩ := ih
    refine ⟨rounds + 1, ?_⟩
    simp only [after_succ, next, hp, if_neg hw, if_neg ha, bind_run, hf, hfold]
    exact hrounds

end Stage

/-! ## Visits -/

/-- A request for a class on a walk outward, and the classes that were found. -/
structure Visit where
  name : TypeName
  found : List Blob

section Visits

variable {s : Setting} {R : SortedSet TypeName} {before : Journal} {visits : List Visit}
  {v : Visit} {n : TypeName}

/-- `n` encloses a class that was found. -/
def Surrounds (visits : List Visit) (n : TypeName) : Prop :=
  ∃ v ∈ visits, ∃ b ∈ v.found, Encloses b n

/-- What a walk outward from `R` has come to: a reference, or a class around one that was found. -/
def Met (R : SortedSet TypeName) (visits : List Visit) (n : TypeName) : Prop :=
  n ∈ R ∨ Surrounds visits n

/-- A walk outward from `R` has come to `n`, and still has to ask for it. -/
structure Due (s : Setting) (R : SortedSet TypeName) (visits : List Visit) (n : TypeName) :
    Prop where
  met : Met R visits n
  needed : n ∉ s.alwaysAvailable
  unvisited : ∀ v ∈ visits, v.name ≠ n

/-- The requests before a walk, and those of its visits. -/
def requestsAfter (before : Journal) (visits : List Visit) : Array (List TypeName) :=
  before.requests ++ visits.map fun v => [v.name]

/-- The visit `v` comes next after those of `past`: it is to the largest name that is due, and finds
what the provider has under that name by then. -/
structure Follows (s : Setting) (R : SortedSet TypeName) (before : Journal) (past : List Visit)
    (v : Visit) : Prop where
  greatest : IsGreatest {n | Due s R past n} v.name
  found : v.found =
    (s.provider.fetch v.name { before with requests := requestsAfter before past }).1

/-- Each of the visits comes next after those before it. -/
def Trail (s : Setting) (R : SortedSet TypeName) (before : Journal) (visits : List Visit) : Prop :=
  ∀ past v later, visits = past ++ v :: later → Follows s R before past v

theorem surrounds_concat :
    Surrounds (visits ++ [v]) n ↔ Surrounds visits n ∨ ∃ b ∈ v.found, Encloses b n := by
  simp [Surrounds, or_and_right, exists_or]

theorem met_concat :
    Met R (visits ++ [v]) n ↔ Met R visits n ∨ ∃ b ∈ v.found, Encloses b n := by
  unfold Met
  rw [surrounds_concat, or_assoc]

theorem Met.mono {more : List Visit} (h : Met R visits n) (hsub : ∀ v ∈ visits, v ∈ more) :
    Met R more n :=
  h.imp_right fun ⟨v, hv, hb⟩ => ⟨v, hsub v hv, hb⟩

namespace Trail

theorem nil : Trail s R before [] := by
  intro past v later h
  simp at h

theorem concat (h : Trail s R before visits) (hv : Follows s R before visits v) :
    Trail s R before (visits ++ [v]) := by
  intro past w later he
  rcases List.eq_nil_or_concat later with rfl | ⟨later, u, rfl⟩
  · obtain ⟨rfl, hw⟩ := List.append_inj' he rfl
    cases hw
    exact hv
  · rw [List.concat_eq_append, ← List.cons_append, ← List.append_assoc] at he
    obtain ⟨rfl, -⟩ := List.append_inj' he rfl
    exact h past w later rfl

theorem init (h : Trail s R before (visits ++ [v])) : Trail s R before visits := by
  intro past w later he
  exact h past w (later ++ [v]) (by rw [he, List.append_assoc, List.cons_append])

theorem last (h : Trail s R before (visits ++ [v])) : Follows s R before visits v :=
  h visits v [] rfl

/-- No name is asked for twice. -/
theorem nodup (h : Trail s R before visits) : (visits.map (·.name)).Nodup := by
  induction visits using List.reverseRecOn with
  | nil => exact List.nodup_nil
  | append_singleton visits v ih =>
    rw [List.map_append, List.map_singleton, List.nodup_append]
    refine ⟨ih h.init, List.nodup_singleton _, fun n hn m hm => ?_⟩
    obtain ⟨w, hw, rfl⟩ := List.mem_map.mp hn
    rw [List.mem_singleton.mp hm]
    exact h.last.greatest.1.unvisited w hw

theorem needed (h : Trail s R before visits) (hv : v ∈ visits) : v.name ∉ s.alwaysAvailable := by
  obtain ⟨past, later, he⟩ := List.append_of_mem hv
  exact (h past v later he).greatest.1.needed

/-- A name is met before it is visited. -/
theorem met (h : Trail s R before visits) (hv : v ∈ visits) : Met R visits v.name := by
  obtain ⟨past, later, he⟩ := List.append_of_mem hv
  refine (h past v later he).greatest.1.met.mono fun w hw => ?_
  rw [he]
  exact List.mem_append_left _ hw

end Trail

/-! ## The state of a walk -/

/-- A walk outward that began as `start` has come to `d` by the visits of a trail: they are all that
was asked for, and the classes around what they found are all that was added. -/
structure Travelled (s : Setting) (start : Draft) (before : Journal) (d : Draft) (j : Journal)
    (visits : List Visit) : Prop where
  requests : j.requests = requestsAfter before visits
  trail : Trail s start.referenced before visits
  closure : ∀ m, m ∈ d.closure ↔
    m ∈ start.closure ∨ Surrounds visits m ∧ m.isAdmissible = true
  referenced : d.referenced = start.referenced

/-- Between two rounds, what was met is pending or was walked from, and that is what was visited and
what need not be. -/
structure Underway (s : Setting) (start : Draft) (before : Journal) (d : Draft)
    (pending walked : SortedSet TypeName) (j : Journal) (visits : List Visit) : Prop
    extends Travelled s start before d j visits where
  pending_met : ∀ n ∈ pending, Met start.referenced visits n
  met : ∀ n, Met start.referenced visits n → n ∈ pending ∨ n ∈ walked
  visited : ∀ v ∈ visits, v.name ∈ walked
  walked : ∀ n ∈ walked, n ∈ s.alwaysAvailable ∨ ∃ v ∈ visits, v.name = n

section Steps

variable {start d : Draft} {pending walked : SortedSet TypeName} {j : Journal} {b : Blob}

theorem requests_add {logging : LogSettings} {phase : Phase} :
    (d.add logging phase n j).2.requests = j.requests := by
  unfold Draft.add
  split
  · exact requests_report _ _ _
  · rfl

theorem frame_addOuter (t : Draft × SortedSet TypeName) :
    (addOuter s n t b j).1.1.referenced = t.1.referenced ∧
      (addOuter s n t b j).2.requests = j.requests := by
  cases hb : ClassFile.parse b.bytes with
  | error fault =>
    simp only [addOuter, hb]
    exact ⟨rfl, requests_report _ _ _⟩
  | ok c =>
    cases hc : c.outerOf with
    | none =>
      simp only [addOuter, hb, hc]
      exact ⟨rfl, rfl⟩
    | some outer =>
      simp only [addOuter, hb, hc]
      exact ⟨referenced_add, requests_add⟩

/-- Looking for the classes around those that were found asks for nothing. -/
theorem frame_foldlM_addOuter (blobs : List Blob) (t : Draft × SortedSet TypeName) :
    (blobs.foldlM (addOuter s n) t j).1.1.referenced = t.1.referenced ∧
      (blobs.foldlM (addOuter s n) t j).2.requests = j.requests := by
  induction blobs generalizing t j with
  | nil => exact ⟨rfl, rfl⟩
  | cons b blobs ih =>
    rw [foldlM_cons_run]
    obtain ⟨hr, hq⟩ := frame_addOuter (s := s) (n := n) (b := b) (j := j) t
    obtain ⟨hr', hq'⟩ := ih (addOuter s n t b j).1 (j := (addOuter s n t b j).2)
    exact ⟨hr'.trans hr, hq'.trans hq⟩

namespace Underway

/-- A name that was walked from before is taken off. -/
theorem drop (h : Underway s start before d pending walked j visits) (hn : n ∈ walked) :
    Underway s start before d (pending.erase n) walked j visits where
  toTravelled := h.toTravelled
  pending_met m hm := h.pending_met m (SortedSet.mem_erase.mp hm).2
  met m hm := by
    by_cases he : m = n
    · exact Or.inr (he ▸ hn)
    · exact (h.met m hm).imp_left fun hp => SortedSet.mem_erase.mpr ⟨he, hp⟩
  visited := h.visited
  walked := h.walked

/-- The backend has the name anyway. -/
theorem pass (h : Underway s start before d pending walked j visits) (ha : n ∈ s.alwaysAvailable) :
    Underway s start before d pending (walked.insert n) j visits where
  toTravelled := h.toTravelled
  pending_met := h.pending_met
  met m hm := (h.met m hm).imp_right fun hw => SortedSet.mem_insert.mpr (Or.inr hw)
  visited v hv := SortedSet.mem_insert.mpr (Or.inr (h.visited v hv))
  walked m hm := by
    rcases SortedSet.mem_insert.mp hm with rfl | hm
    · exact Or.inl ha
    · exact h.walked m hm

/-- What is due is pending. -/
theorem pending_of_due (h : Underway s start before d pending walked j visits)
    (hn : Due s start.referenced visits n) : n ∈ pending := by
  refine (h.met n hn.met).resolve_right fun hw => ?_
  rcases h.walked n hw with ha | ⟨v, hv, he⟩
  · exact hn.needed ha
  · exact hn.unvisited v hv he

/-- The largest pending name is the largest that is due, if it is due at all. -/
theorem follows (h : Underway s start before d pending walked j visits)
    (hp : pending.max? = some n) (hw : n ∉ walked) (ha : n ∉ s.alwaysAvailable) :
    Follows s start.referenced before visits ⟨n, (s.provider.fetch n j).1⟩ where
  greatest := by
    refine ⟨⟨h.pending_met n (SortedSet.mem_of_max?_eq_some hp), ha, ?_⟩, ?_⟩
    · rintro v hv rfl
      exact hw (h.visited v hv)
    · exact fun m hm => SortedSet.le_of_max?_eq_some hp (h.pending_of_due hm)
  found := by
    unfold Provider.fetch
    rw [h.requests]

/-- The largest pending name is asked for. -/
theorem visit (h : Underway s start before d pending walked j visits)
    (hp : pending.max? = some n) (hw : n ∉ walked) (ha : n ∉ s.alwaysAvailable) :
    let found := (s.provider.fetch n j).1
    let t := found.foldlM (addOuter s n) (d, pending.erase n) (s.provider.fetch n j).2
    Underway s start before t.1.1 t.1.2 (walked.insert n) t.2 (visits ++ [⟨n, found⟩]) := by
  intro found t
  obtain ⟨hclosure, hpending, -⟩ :=
    foldlM_addOuter_spec s n d (pending.erase n) found (s.provider.fetch n j).2
  obtain ⟨hreferenced, hrequests⟩ := frame_foldlM_addOuter (s := s) (n := n)
    (j := (s.provider.fetch n j).2) found (d, pending.erase n)
  refine ⟨⟨?_, h.trail.concat (h.follows hp hw ha), fun m => ?_, hreferenced.trans h.referenced⟩,
    fun m hm => ?_, fun m hm => ?_, fun v hv => ?_, fun m hm => ?_⟩
  · rw [hrequests]
    change j.requests.push [n] = _
    rw [h.requests, ← Array.toList_inj]
    simp [requestsAfter]
  · rw [hclosure, h.closure, surrounds_concat, or_assoc, ← or_and_right]
  · rw [met_concat]
    exact ((hpending m).mp hm).imp_left fun hm => h.pending_met m (SortedSet.mem_erase.mp hm).2
  · rw [hpending, SortedSet.mem_erase, SortedSet.mem_insert]
    rcases met_concat.mp hm with hm | hm
    · by_cases he : m = n
      · exact Or.inr (Or.inl he)
      · exact (h.met m hm).imp (fun hm => Or.inl ⟨he, hm⟩) Or.inr
    · exact Or.inl (Or.inr hm)
  · rcases List.mem_append.mp hv with hv | hv
    · exact SortedSet.mem_insert.mpr (Or.inr (h.visited v hv))
    · rw [List.mem_singleton.mp hv]
      exact SortedSet.mem_insert.mpr (Or.inl rfl)
  · rcases SortedSet.mem_insert.mp hm with rfl | hm
    · exact Or.inr ⟨_, List.mem_append_right _ List.mem_cons_self, rfl⟩
    · exact (h.walked m hm).imp_right fun ⟨v, hv, he⟩ => ⟨v, List.mem_append_left _ hv, he⟩

end Underway

end Steps

/-- What holds of a walk outward wherever it stands. -/
def Stage.Holds (s : Setting) (start : Draft) (before : Journal) :
    Stage → Journal → List Visit → Prop
  | .walking d pending walked, j, visits => Underway s start before d pending walked j visits
  | .ended d, j, visits =>
    Travelled s start before d j visits ∧ ∀ n, ¬ Due s start.referenced visits n

namespace Stage.Holds

variable {start : Draft} {stage : Stage} {j : Journal}

theorem begin (s : Setting) (d : Draft) (j : Journal) : (Stage.start d).Holds s d j j [] where
  requests := by simp [requestsAfter]
  trail := .nil
  closure m := by simp [Surrounds]
  referenced := rfl
  pending_met _ hm := Or.inl hm
  met _ hm := hm.elim Or.inl fun ⟨_, hv, _⟩ => absurd hv List.not_mem_nil
  visited _ hv := absurd hv List.not_mem_nil
  walked _ hm := absurd hm SortedSet.not_mem_empty

/-- **A round goes on with the trail.** -/
theorem next (h : stage.Holds s start before j visits) :
    ∃ more, (stage.next s j).1.Holds s start before (stage.next s j).2 (visits ++ more) := by
  cases stage with
  | ended d => exact ⟨[], by rwa [List.append_nil]⟩
  | walking d pending walked =>
    replace h : Underway s start before d pending walked j visits := h
    cases hp : pending.max? with
    | none =>
      refine ⟨[], ?_⟩
      simp only [Stage.next, hp, List.append_nil]
      refine ⟨h.toTravelled, fun n hn => ?_⟩
      have hpending := h.pending_of_due hn
      rw [SortedSet.eq_of_max?_eq_none hp] at hpending
      exact SortedSet.not_mem_empty hpending
    | some n =>
      by_cases hw : n ∈ walked
      · refine ⟨[], ?_⟩
        simp only [Stage.next, hp, if_pos hw, List.append_nil]
        exact h.drop hw
      · by_cases ha : n ∈ s.alwaysAvailable
        · refine ⟨[], ?_⟩
          simp only [Stage.next, hp, if_neg hw, if_pos ha, List.append_nil]
          exact (h.pass ha).drop (SortedSet.mem_insert.mpr (Or.inl rfl))
        · refine ⟨[⟨n, (s.provider.fetch n j).1⟩], ?_⟩
          simp only [Stage.next, hp, if_neg hw, if_neg ha, bind_run]
          exact h.visit hp hw ha

/-- So does any number of rounds. -/
theorem after (h : stage.Holds s start before j visits) (k : Nat) :
    ∃ more, (stage.after s k j).1.Holds s start before (stage.after s k j).2 (visits ++ more) := by
  induction k generalizing stage j visits with
  | zero => exact ⟨[], by rwa [List.append_nil]⟩
  | succ k ih =>
    obtain ⟨more, hmore⟩ := h.next
    obtain ⟨rest, hrest⟩ := ih hmore
    exact ⟨more ++ rest, by rwa [← List.append_assoc]⟩

end Stage.Holds

/-- The third phase goes along a trail to its end. -/
theorem travelled_outerChainPhase (s : Setting) (d : Draft) (j : Journal) :
    ∃ visits, Travelled s d j (outerChainPhase s d j).1 (outerChainPhase s d j).2 visits ∧
      ∀ n, ¬ Due s d.referenced visits n := by
  obtain ⟨rounds, hrounds⟩ := Stage.walk_ends (s := s) d d.referenced ∅ j
  obtain ⟨visits, hvisits⟩ := (Stage.Holds.begin s d j).after rounds
  unfold Stage.start at hvisits
  rw [hrounds, List.nil_append] at hvisits
  exact ⟨visits, hvisits⟩

/-! ## A second walk -/

/-- From `later` on, the provider has under the names that were visited what was found there. -/
def StillFinds (s : Setting) (later : Journal) (visits : List Visit) : Prop :=
  ∀ v ∈ visits, ∀ j : Journal, later.requests.toList <+: j.requests.toList →
    (s.provider.fetch v.name j).1 = v.found

/-- A steady provider always does. -/
theorem Trail.stillFinds (h : Trail s R before visits) (hs : s.provider.Steady) (later : Journal) :
    StillFinds s later visits := by
  intro v hv j _
  obtain ⟨past, rest, he⟩ := List.append_of_mem hv
  rw [(h past v rest he).found, hs.fetch_fst, hs.fetch_fst]

/-- **A second walk visits nothing new**, if the first left nothing due and the provider still has
what the first has found. -/
theorem Trail.subset {later : Journal} {again : List Visit}
    (hdue : ∀ n, ¬ Due s R visits n) (hfinds : StillFinds s later visits)
    (h : Trail s R later again) : ∀ v ∈ again, v ∈ visits := by
  induction again using List.reverseRecOn with
  | nil => exact fun _ hv => absurd hv List.not_mem_nil
  | append_singleton again v ih =>
    have hsub := ih h.init
    have hlast := h.last
    -- The first walk has met the name as well, so it has visited it.
    have hvisited : ∃ w ∈ visits, w.name = v.name := by
      by_contra hno
      exact hdue v.name ⟨hlast.greatest.1.met.mono hsub, hlast.greatest.1.needed,
        fun w hw he => hno ⟨w, hw, he⟩⟩
    obtain ⟨w, hw, hname⟩ := hvisited
    have hfound : v.found = w.found := by
      rw [hlast.found, ← hname]
      exact hfinds w hw _ (by simp [requestsAfter])
    have hvw : v = w := by
      obtain ⟨name, found⟩ := v
      obtain ⟨name', found'⟩ := w
      cases hname
      cases hfound
      rfl
    intro u hu
    rcases List.mem_append.mp hu with hu | hu
    · exact hsub u hu
    · rw [List.mem_singleton.mp hu, hvw]
      exact hw

/-- **The walk outward is finite, frugal and idempotent.** Whatever a provider has, and whatever its
classes say about what lies in what, a finite number of rounds leads from the references to the end
of the third phase. The requests on the way are for one name each, all of them for different names
that the backend does not have, and each for a reference or for a class around one that was found
before: the largest of all those that are due, until none is. If the provider still has what was
found under these names, as a steady one always does (`Trail.stillFinds`), the phase can be called
again and neither the closure nor the references nor the counters of added names change. -/
theorem outerChainPhase_frugal (s : Setting) (d : Draft) (j : Journal) :
    let reached := outerChainPhase s d j
    (∃ rounds, (Stage.start d).after s rounds j = (.ended reached.1, reached.2)) ∧
    ∃ visits : List Visit,
      reached.2.requests = requestsAfter j visits ∧
      (visits.map (·.name)).Nodup ∧
      (∀ v ∈ visits, v.name ∉ s.alwaysAvailable ∧ Met d.referenced visits v.name) ∧
      Trail s d.referenced j visits ∧
      (∀ n, ¬ Due s d.referenced visits n) ∧
      ∀ later : Journal, StillFinds s later visits →
        let again := outerChainPhase s reached.1 later
        again.1.closure = reached.1.closure ∧ again.1.referenced = reached.1.referenced ∧
          again.1.added = reached.1.added := by
  intro reached
  obtain ⟨visits, htravelled, hdue⟩ := travelled_outerChainPhase s d j
  refine ⟨Stage.walk_ends d d.referenced ∅ j, visits, htravelled.requests, htravelled.trail.nodup,
    fun v hv => ⟨htravelled.trail.needed hv, htravelled.trail.met hv⟩, htravelled.trail, hdue,
    fun later hfinds => ?_⟩
  intro again
  obtain ⟨more, hagain, -⟩ := travelled_outerChainPhase s reached.1 later
  have htrail := hagain.trail
  rw [htravelled.referenced] at htrail
  have hsub := htrail.subset hdue hfinds
  have hclosure : ∀ n, n ∈ again.1.closure ↔ n ∈ reached.1.closure := by
    intro n
    rw [hagain.closure]
    refine or_iff_left_of_imp fun ⟨⟨v, hv, hb⟩, ha⟩ => (htravelled.closure n).mpr (Or.inr ⟨?_, ha⟩)
    exact ⟨v, hsub v hv, hb⟩
  exact ⟨ClosureSet.ext hclosure, hagain.referenced,
    moves_outerChainPhase.added_eq fun n hn => (hclosure n).mp hn⟩

/-- A class that lies in `outer`. -/
def classIn (outer name : String) : Blob :=
  ⟨⟨name⟩, (({ name } : Assembly.ClassSpec).memberOf outer).bytes⟩

theorem classIn_parsed :
    ∃ c, ClassFile.parse (classIn "B" "A").bytes = .ok c ∧ c.outerOf = some ⟨"B"⟩ := by
  have houter : (ClassFile.parse (classIn "B" "A").bytes).map ClassFile.outerOf =
      .ok (some ⟨"B"⟩) := by decide +kernel
  exact exists_of_map_eq_ok houter

/-- Two classes, each of which says that it lies in the other. -/
def entwined : Setting where
  provider := .ofMap (.ofBlobs [classIn "B" "A", classIn "A" "B"])
  logging := {}
  alwaysAvailable := defaultAvailable

/-- A closure with a reference to one of them. -/
def refersToA : Draft := { referenced := .ofList [⟨"A"⟩] }

theorem encloses_entwined : ∃ b ∈ entwined.provider.served ⟨"A"⟩, Encloses b ⟨"B"⟩ := by
  have hfind : (ClassMap.ofBlobs [classIn "B" "A", classIn "A" "B"]).classes.find? ⟨"A"⟩ =
      some (classIn "B" "A").bytes := by decide +kernel
  exact ⟨classIn "B" "A", Provider.mem_served_ofMap.mpr ⟨rfl, hfind⟩, classIn_parsed⟩

/-- The walk comes from `A` to `B` and back, and a second one to nothing new. -/
theorem outerChainPhase_frugal_entwined :
    let reached := outerChainPhase entwined refersToA {}
    let again := outerChainPhase entwined reached.1 reached.2
    ⟨"B"⟩ ∈ reached.1.closure ∧ again.1.closure = reached.1.closure ∧
      again.1.referenced = reached.1.referenced ∧ again.1.added = reached.1.added := by
  intro reached again
  have hsteady : entwined.provider.Steady := Provider.steady_ofMap _
  obtain ⟨-, visits, -, -, -, htrail, -, hagain⟩ :=
    outerChainPhase_frugal entwined refersToA {}
  refine ⟨?_, hagain reached.2 (htrail.stillFinds hsteady reached.2)⟩
  refine ((outerChainPhase_spec hsteady).1 _).mpr (Or.inr ⟨⟨⟨"A"⟩, .start ?_, ?_, ?_⟩, by decide⟩)
  · decide
  · decide
  · exact encloses_entwined

/-! ### A provider that changes its answers -/

/-- No class is served to the first request, and `A`, which lies in `B`, to those after it. -/
def tardy : Setting where
  provider := {
    answer := fun past names =>
      if past.isEmpty then [] else [classIn "B" "A"].filter fun b => b.name ∈ names
    listing := []
    supply := [⟨"A"⟩]
    name_mem_supply := fun past names b hb => by
      split at hb
      · exact absurd hb List.not_mem_nil
      · rw [List.mem_singleton.mp (List.mem_filter.mp hb).1]
        exact List.mem_singleton_self _ }
  logging := {}
  alwaysAvailable := defaultAvailable

/-- The journal after a number of requests for one class each. -/
def afterRequests (names : List TypeName) : Journal :=
  { requests := (names.map fun n => [n]).toArray }

/-- What is found around the class `A` is `B`. -/
theorem addOuter_classIn (d : Draft) (pending : SortedSet TypeName) (j : Journal) :
    addOuter s n (d, pending) (classIn "B" "A") j =
      (((d.add s.logging .outerChain ⟨"B"⟩ j).1, pending.insert ⟨"B"⟩),
        (d.add s.logging .outerChain ⟨"B"⟩ j).2) := by
  obtain ⟨c, hc, ho⟩ := classIn_parsed
  simp only [addOuter, hc, ho]
  rfl

/-- The first walk asks for `A` in vain. -/
theorem outerChainPhase_tardy_first :
    outerChainPhase tardy refersToA {} = (refersToA, afterRequests [⟨"A"⟩]) := by
  have hnothing : tardy.provider.fetch ⟨"A"⟩ {} = ([], afterRequests [⟨"A"⟩]) := rfl
  unfold outerChainPhase
  rw [walk_of_found (by decide) (by decide) (by decide) hnothing]
  exact walk_of_none (by decide)

/-- The second walk finds `A`, and asks for the class around it as well. -/
theorem outerChainPhase_tardy_second :
    (outerChainPhase tardy refersToA (afterRequests [⟨"A"⟩])).1 =
      { refersToA with closure := .ofList [⟨"B"⟩], added := { outerChain := 1 } } := by
  have hfound : tardy.provider.fetch ⟨"A"⟩ (afterRequests [⟨"A"⟩]) =
      ([classIn "B" "A"], afterRequests [⟨"A"⟩, ⟨"A"⟩]) := rfl
  have hnothing : tardy.provider.fetch ⟨"B"⟩ (afterRequests [⟨"A"⟩, ⟨"A"⟩]) =
      ([], afterRequests [⟨"A"⟩, ⟨"A"⟩, ⟨"B"⟩]) := rfl
  unfold outerChainPhase
  rw [walk_of_found (by decide) (by decide) (by decide) hfound, foldlM_cons_run, addOuter_classIn]
  refine (congrArg Prod.fst
    (walk_of_found (by decide) (by decide) (by decide) hnothing)).trans ?_
  exact congrArg Prod.fst (walk_of_none (by decide))

/-- **A second walk can add a name** when the provider answers otherwise than before, though nothing
happens between the two walks and only one class is ever served. -/
theorem outerChainPhase_tardy :
    let first := outerChainPhase tardy refersToA {}
    let second := outerChainPhase tardy first.1 first.2
    (first.1.closure = ∅ ∧ first.1.added = {}) ∧
      (second.1.closure = .ofList [⟨"B"⟩] ∧ second.1.added = { outerChain := 1 }) ∧
      second.1.closure ≠ first.1.closure ∧ second.1.added ≠ first.1.added := by
  intro first second
  have hfirst : first = (refersToA, afterRequests [⟨"A"⟩]) := outerChainPhase_tardy_first
  have hsecond : second.1 =
      { refersToA with closure := .ofList [⟨"B"⟩], added := { outerChain := 1 } } := by
    change (outerChainPhase tardy first.1 first.2).1 = _
    rw [hfirst]
    exact outerChainPhase_tardy_second
  rw [hfirst, hsecond]
  exact ⟨⟨rfl, rfl⟩, ⟨rfl, rfl⟩, by decide, by decide⟩

end Visits

end VirtualClasspath.Closure
