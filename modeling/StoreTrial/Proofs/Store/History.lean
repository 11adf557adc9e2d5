import StoreTrial.Proofs.Store.Lookup

/-!
# A store as the history of its keys

What a store answers can be told from the operations before, without a store: all that counts for a
key is the last write or deletion of that key. One operation decides the look-up of a key if it
changes that key, and leaves it alone otherwise (`get?_apply_of_changes`,
`get?_apply_of_not_changes`), so after a run the last change of the key decides (`get?_run`).
`replay_eq_history` is the statement for a new store.
-/

namespace StoreTrial

namespace Operation

/-- `changes key` is true of the writes and deletions of `key`. -/
def changes (key : String) : Operation → Bool
  | read _ => false
  | write key' _ => key' == key
  | delete key' => key' == key

/-- The outcome of an operation if `last?` is the last change of its key before it. -/
def outcomeAfter (last? : Option Operation) : Operation → Outcome
  | read _ =>
    match last? with
    | some (write _ value) => .value value
    | _ => .notFound
  | write _ _ => .success
  | delete _ =>
    match last? with
    | some (write _ _) => .success
    | _ => .notFound

/-- The last change of a key decides the outcome by what it leaves under the key. -/
theorem outcomeAfter_eq_answer (last? : Option Operation) (operation : Operation) :
    operation.outcomeAfter last? = operation.answer (last?.elim none (effect none)) := by
  cases operation with
  | write key value => rfl
  | read key | delete key =>
    cases last? with
    | none => rfl
    | some last => cases last <;> rfl

/-- An operation that changes a key is about that key. -/
theorem key_of_changes {key : String} {operation : Operation}
    (h : operation.changes key = true) : operation.key = key := by
  cases operation with
  | read key' => contradiction
  | write key' value => exact eq_of_beq h
  | delete key' => exact eq_of_beq h

end Operation

/-- The last write or deletion of a key among operations, if there is one. -/
def lastChange? (key : String) (operations : List Operation) : Option Operation :=
  (operations.filter (Operation.changes key)).getLast?

/-- A change that another change of the key follows is not the last. -/
theorem lastChange?_cons (key : String) (operation : Operation) (operations : List Operation) :
    lastChange? key (operation :: operations) =
      (lastChange? key operations).or (if operation.changes key then some operation else none) := by
  unfold lastChange?
  rw [List.filter_cons]
  split
  · rw [List.getLast?_cons]
    cases (operations.filter (Operation.changes key)).getLast? <;> rfl
  · rw [Option.or_none]

/-- The last change of a key is one of the operations, and it changes the key. -/
theorem mem_of_lastChange? {key : String} {operations : List Operation} {operation : Operation}
    (h : lastChange? key operations = some operation) :
    operation ∈ operations ∧ operation.changes key = true :=
  List.mem_filter.mp (List.mem_of_getLast? h)

namespace Store

/-- A change of a key decides what is found under it. -/
theorem get?_apply_of_changes {key : String} {operation : Operation}
    (h : operation.changes key = true) (store : Store) :
    (apply operation store).2.get? key = operation.effect none := by
  have hself := get?_apply_self operation store
  rw [Operation.key_of_changes h] at hself
  rw [hself]
  cases operation with
  | read key' => contradiction
  | write key' value => rfl
  | delete key' => rfl

/-- An operation that does not change a key leaves what is found under it. -/
theorem get?_apply_of_not_changes {key : String} {operation : Operation}
    (h : operation.changes key = false) (store : Store) :
    (apply operation store).2.get? key = store.get? key := by
  by_cases hkey : operation.key = key
  · cases operation with
    | read key' =>
      rw [← hkey]
      exact get?_apply_self (.read key') store
    | write key' value =>
      rw [Operation.changes, beq_eq_false_iff_ne] at h
      contradiction
    | delete key' =>
      rw [Operation.changes, beq_eq_false_iff_ne] at h
      contradiction
  · exact get?_apply_of_ne hkey store

/-- After a run, the last change of a key decides what is found under it. Without one, what was
found before is still there. -/
theorem get?_run (operations : List Operation) (store : Store) (key : String) :
    (run operations store).2.get? key =
      (lastChange? key operations).elim (store.get? key) (Operation.effect none) := by
  induction operations generalizing store with
  | nil => rfl
  | cons operation operations ih =>
    rw [run_cons, ih, lastChange?_cons]
    cases lastChange? key operations with
    | some last => rfl
    | none =>
      -- Nothing changes the key any more, so it is as the first operation left it.
      rw [Option.none_or]
      cases hchanges : operation.changes key with
      | true => exact get?_apply_of_changes hchanges store
      | false => exact get?_apply_of_not_changes hchanges store

/-- After a run of a new store, a value is found under a key exactly when the last change of the key
wrote that value. -/
theorem get?_run_empty_eq_some_iff {operations : List Operation} {key value : String} :
    (empty.run operations).2.get? key = some value ↔
      lastChange? key operations = some (.write key value) := by
  rw [get?_run, get?_empty]
  cases hlast : lastChange? key operations with
  | none => simp
  | some last =>
    have hkey := Operation.key_of_changes (mem_of_lastChange? hlast).2
    cases last with
    | read key' => exact absurd (mem_of_lastChange? hlast).2 (by simp [Operation.changes])
    | write key' value' =>
      rw [Operation.key] at hkey
      simp [Operation.effect, hkey]
    | delete key' => simp [Operation.effect]

/-- A run of a new store answers each operation by the last change of its key before it. -/
theorem run_empty_fst_eq_mapIdx (operations : List Operation) :
    (empty.run operations).1 = operations.mapIdx fun i operation =>
      operation.outcomeAfter (lastChange? operation.key (operations.take i)) := by
  rw [run_fst_eq_mapIdx]
  simp only [get?_run, get?_empty, Operation.outcomeAfter_eq_answer]

end Store

/-- A replay answers a write with success. Each read or deletion it answers by the last write or
deletion of exactly its key among the operations before: a read of a key that was last written has
the value that was written, a deletion of it succeeds, and a key that was deleted last or never
written is not found. Likewise, after any operations a new store holds a value under a key exactly
when the last of them that wrote or deleted the key wrote that value. -/
theorem replay_eq_history (operations : List Operation) :
    (replay operations).value = operations.mapIdx (fun i operation =>
      operation.outcomeAfter (lastChange? operation.key (operations.take i))) ∧
    ∀ key value, (Store.empty.run operations).2.get? key = some value ↔
      lastChange? key operations = some (.write key value) :=
  ⟨Store.run_empty_fst_eq_mapIdx operations, fun _ _ => Store.get?_run_empty_eq_some_iff⟩

end StoreTrial
