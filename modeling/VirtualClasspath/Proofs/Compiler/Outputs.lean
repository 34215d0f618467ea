import VirtualClasspath.Backend
import VirtualClasspath.Proofs.Provider

/-!
# What an attempt writes

The output cells at the end of an attempt are a function of the operations that the backend performed
(`Exchange.operations`): each holds a class, one for each creation, in the order of the creations,
with everything that was written to its number afterwards (`written`). `outputs_run` says so of an
attempt that starts with cells of any classes; one that starts with none ends with those of
`written operations 0`. When the cells are turned into classes, these classes are what comes out:
nothing is asked for, and there is no error (`Cell.toBlobs_holding`).
-/

namespace VirtualClasspath

/-! ## Output cells -/

/-- The output cell that holds a class. -/
def Cell.holding (b : Blob) : Cell := ⟨b.name, .output b.bytes⟩

/-- **Output cells become the classes that they hold.** -/
theorem Cell.toBlobs_holding (p : Provider) (logging : LogSettings) (bs : List Blob) (j : Journal) :
    toBlobs p logging (bs.map holding) j = (.ok bs, j) := by
  induction bs with
  | nil => rfl
  | cons b bs ih =>
    have hread : (holding b).toBlob p logging j = (.ok b, j) := rfl
    rw [List.map_cons, toBlobs, bind_run, hread]
    dsimp only
    rw [bind_run, ih]
    rfl

/-! ## The operations of a run -/

/-- The operations that a computation performs, in order. -/
def Exchange.operations {α : Type} (s : Services) : Exchange α → Attempt → Journal → List Operation
  | .done _, _, _ => []
  | .ask op next, a, j =>
    let ((answer, a), j) := a.perform s op j
    op :: (next answer).operations s a j

namespace Exchange

variable {α : Type} (s : Services) (op : Operation) (next : op.Answer → Exchange α) (a : Attempt)
  (j : Journal)

theorem run_ask : (ask op next).run s a j =
    (next (a.perform s op j).1.1).run s (a.perform s op j).1.2 (a.perform s op j).2 := rfl

theorem operations_ask : (ask op next).operations s a j =
    op :: (next (a.perform s op j).1.1).operations s (a.perform s op j).1.2
      (a.perform s op j).2 := rfl

end Exchange

namespace Operation

/-- The bytes that an operation adds to the class of number `i`. -/
def addedTo (i : Nat) : Operation → Bytes
  | write k bytes => if k = i then bytes else []
  | _ => []

/-- The class that an operation creates. -/
def created? : Operation → Option TypeName
  | createOutput n => some n
  | _ => none

end Operation

/-- The bytes that operations add to the class of number `i`. -/
def bytesFor (i : Nat) (ops : List Operation) : Bytes := ops.flatMap (Operation.addedTo i)

/-- The classes that operations create, numbered from `first` on: each with the bytes that the
operations after its creation add to its number. -/
def written : List Operation → (first : Nat) → List Blob
  | [], _ => []
  | op :: rest, first =>
    match op.created? with
    | some n => ⟨n, bytesFor first rest⟩ :: written rest (first + 1)
    | none => written rest first

/-- The classes `bs`, numbered from 0 on, with the bytes that operations add to them. -/
def extended (ops : List Operation) (bs : List Blob) : List Blob :=
  bs.mapIdx fun i b => { b with bytes := b.bytes ++ bytesFor i ops }

theorem extended_of_bytesFor_eq_nil {ops : List Operation} (h : ∀ i, bytesFor i ops = [])
    (bs : List Blob) : extended ops bs = bs := by
  unfold extended
  refine List.ext_getElem? fun i => ?_
  rw [List.getElem?_mapIdx, h, Option.map_congr (g := id)]
  · exact Option.map_id_apply
  · intro b _
    rw [List.append_nil]
    rfl

/-! ## One operation -/

/-- Nothing but a creation and a write changes the cells. -/
theorem outputs_perform (s : Services) (a : Attempt) (op : Operation) (j : Journal)
    {bs : List Blob} (h : a.outputs = bs.map Cell.holding) :
    (a.perform s op j).1.2.outputs =
      (extended [op] bs ++ written [op] bs.length).map Cell.holding := by
  have hsame : ∀ op : Operation, (∀ i, op.addedTo i = []) → extended [op] bs = bs :=
    fun op h => extended_of_bytesFor_eq_nil (fun i => by simp [bytesFor, h]) _
  cases op with
  | write k bytes =>
    change a.outputs.modify k _ = (extended [.write k bytes] bs ++ []).map Cell.holding
    rw [h, List.append_nil]
    refine List.ext_getElem? fun i => ?_
    unfold extended
    rw [List.getElem?_modify, List.getElem?_map, List.getElem?_map, List.getElem?_mapIdx]
    cases bs[i]? with
    | none => simp
    | some b =>
      by_cases hk : k = i
      · simp [bytesFor, Operation.addedTo, hk, Cell.holding, Cell.write, Except.toOption]
      · simp [bytesFor, Operation.addedTo, hk]
  | createOutput n =>
    rw [hsame _ fun _ => rfl, List.map_append, ← h]
    rfl
  | reportCritical text =>
    rw [hsame _ fun _ => rfl]
    -- what is reported must stay closed: opening it never ends
    simp only [Attempt.perform, bind_run]
    generalize reportCritical s.logging text j = r
    exact h.trans (congrArg _ (List.append_nil _).symm)
  | _ =>
    rw [hsame _ fun _ => rfl]
    exact h.trans (congrArg _ (List.append_nil _).symm)

/-! ## All operations -/

theorem length_extended (ops : List Operation) (bs : List Blob) :
    (extended ops bs).length = bs.length :=
  List.length_mapIdx

theorem extended_append (ops ops' : List Operation) (bs : List Blob) :
    extended (ops ++ ops') bs = extended ops' (extended ops bs) := by
  unfold extended
  rw [List.mapIdx_mapIdx]
  simp [bytesFor, Function.comp_def]

/-- The classes that an operation creates take the numbers after `bs`. -/
theorem extended_append_written (op : Operation) (rest : List Operation) (bs : List Blob) :
    extended rest (bs ++ written [op] bs.length) ++
        written rest (bs.length + (written [op] bs.length).length) =
      extended rest bs ++ written (op :: rest) bs.length := by
  cases h : op.created? with
  | none => simp [written, h]
  | some n => simp [written, h, extended, bytesFor, List.mapIdx_append]

/-- **The cells at the end of a run** hold the classes from before, extended, and then those that
the operations create. -/
theorem outputs_run {α : Type} (s : Services) (x : Exchange α) (a : Attempt) (j : Journal)
    {bs : List Blob} (h : a.outputs = bs.map Cell.holding) :
    (x.run s a j).1.2.outputs =
      (extended (x.operations s a j) bs ++ written (x.operations s a j) bs.length).map
        Cell.holding := by
  induction x generalizing a j bs with
  | done result =>
    change a.outputs = (extended [] bs ++ []).map Cell.holding
    rw [List.append_nil, extended_of_bytesFor_eq_nil fun _ => rfl, h]
  | ask op next ih =>
    rw [Exchange.run_ask, Exchange.operations_ask, ih _ _ _ (outputs_perform s a op j h),
      List.length_append, length_extended, ← length_extended [op] bs, extended_append_written,
      ← extended_append, length_extended]
    rfl

end VirtualClasspath
