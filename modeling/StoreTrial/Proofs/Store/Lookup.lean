import StoreTrial.Store

/-!
# A store through its look-ups

All that an operation needs to know of a store is what is found under its own key. `answer` is its
outcome and `effect` is what is found there afterwards (`apply_fst`, `get?_apply_self`); look-ups of
other keys stay as they are (`get?_apply_of_ne`). So a run, which answers the first operations and
then the others (`run_append`), answers each operation from the look-up of its key in the store that
the operations before it left (`run_fst_eq_mapIdx`).
-/

namespace StoreTrial

namespace Operation

/-- The outcome of an operation where `found` is found under its key. -/
def answer (found : Option String) : Operation → Outcome
  | read _ => found.elim .notFound .value
  | write _ _ => .success
  | delete _ => found.elim .notFound fun _ => .success

/-- What is found under the key of an operation after it, where `found` is found before. -/
def effect (found : Option String) : Operation → Option String
  | read _ => found
  | write _ value => some value
  | delete _ => none

end Operation

namespace Store

/-- A new store has no keys. -/
@[simp]
theorem get?_empty (key : String) : empty.get? key = none := Std.HashMap.getElem?_empty

/-- The keys of the mapping are those under which something is found. -/
theorem mem_entries_iff {store : Store} {key : String} :
    key ∈ store.entries ↔ (store.get? key).isSome = true :=
  Std.HashMap.mem_iff_isSome_getElem?

/-- A deletion of a key that is there removes it. -/
theorem apply_delete_of_found {store : Store} {key value : String}
    (h : store.get? key = some value) :
    apply (.delete key) store = (.success, ⟨store.entries.erase key, store.applied + 1⟩) := by
  have hmem : key ∈ store.entries := mem_entries_iff.mpr (Option.isSome_of_eq_some h)
  simp only [apply, if_pos hmem]

/-- A deletion of a key that is not there leaves the mapping as it is. -/
theorem apply_delete_of_absent {store : Store} {key : String} (h : store.get? key = none) :
    apply (.delete key) store = (.notFound, ⟨store.entries, store.applied + 1⟩) := by
  have hmem : key ∉ store.entries := by
    rw [mem_entries_iff, h]
    exact Bool.false_ne_true
  simp only [apply, if_neg hmem]

/-- A read answers with what is found and leaves the mapping as it is. -/
theorem apply_read (store : Store) (key : String) :
    apply (.read key) store =
      ((store.get? key).elim .notFound .value, ⟨store.entries, store.applied + 1⟩) := by
  simp only [apply, get?]
  cases store.entries[key]? <;> rfl

/-- An operation is answered from the look-up of its key. -/
theorem apply_fst (operation : Operation) (store : Store) :
    (apply operation store).1 = operation.answer (store.get? operation.key) := by
  cases operation with
  | read key =>
    rw [apply_read]
    rfl
  | write key value => rfl
  | delete key =>
    cases hkey : store.get? key with
    | none =>
      rw [apply_delete_of_absent hkey, Operation.key, hkey]
      rfl
    | some value =>
      rw [apply_delete_of_found hkey, Operation.key, hkey]
      rfl

/-- An operation has its effect on the look-up of its key. -/
theorem get?_apply_self (operation : Operation) (store : Store) :
    (apply operation store).2.get? operation.key =
      operation.effect (store.get? operation.key) := by
  cases operation with
  | read key =>
    rw [apply_read]
    rfl
  | write key value => exact Std.HashMap.getElem?_insert_self
  | delete key =>
    cases hkey : store.get? key with
    | none =>
      rw [apply_delete_of_absent hkey]
      exact hkey
    | some value =>
      rw [apply_delete_of_found hkey]
      exact Std.HashMap.getElem?_erase_self

/-- An operation has no effect on the look-up of another key. -/
theorem get?_apply_of_ne {operation : Operation} {key : String} (h : operation.key ≠ key)
    (store : Store) : (apply operation store).2.get? key = store.get? key := by
  cases operation with
  | read key' =>
    rw [apply_read]
    rfl
  | write key' value =>
    exact Std.HashMap.getElem?_insert.trans (if_neg fun hkey => h (eq_of_beq hkey))
  | delete key' =>
    cases hkey : store.get? key' with
    | none =>
      rw [apply_delete_of_absent hkey]
      rfl
    | some value =>
      rw [apply_delete_of_found hkey]
      exact Std.HashMap.getElem?_erase.trans (if_neg fun hkey => h (eq_of_beq hkey))

/-- A run has one outcome for each operation. -/
@[simp]
theorem length_run (operations : List Operation) (store : Store) :
    (run operations store).1.length = operations.length := by
  induction operations generalizing store with
  | nil => rfl
  | cons operation operations ih => simp [ih]

/-- A run answers the first operations and then the others. -/
theorem run_append (first others : List Operation) (store : Store) :
    run (first ++ others) store =
      ((run first store).1 ++ (run others (run first store).2).1,
        (run others (run first store).2).2) := by
  induction first generalizing store with
  | nil => rfl
  | cons operation first ih => simp only [List.cons_append, run_cons, ih]

/-- A run answers the last operation in the store that the others left. -/
theorem run_concat (operations : List Operation) (operation : Operation) (store : Store) :
    run (operations ++ [operation]) store =
      ((run operations store).1 ++ [(apply operation (run operations store).2).1],
        (apply operation (run operations store).2).2) := by
  rw [run_append, run_cons, run_nil]

/-- A run answers each operation from the look-up of its key in the store that the operations
before it left. -/
theorem run_fst_eq_mapIdx (operations : List Operation) (store : Store) :
    (run operations store).1 = operations.mapIdx fun i operation =>
      operation.answer ((run (operations.take i) store).2.get? operation.key) := by
  induction operations generalizing store with
  | nil => rfl
  | cons operation operations ih =>
    -- The later operations are those of a run that starts after the first one.
    simp only [run_cons, List.mapIdx_cons, apply_fst, ih, List.take_zero, List.take_succ_cons,
      run_nil]

/-- A run answers the operation at a position from the look-up of its key in the store that the
operations before it left. -/
theorem getElem?_run {operations : List Operation} {operation : Operation} {i : Nat}
    (h : operations[i]? = some operation) (store : Store) :
    (run operations store).1[i]? =
      some (operation.answer ((run (operations.take i) store).2.get? operation.key)) := by
  rw [run_fst_eq_mapIdx, List.getElem?_mapIdx, h]
  rfl

end Store

end StoreTrial
