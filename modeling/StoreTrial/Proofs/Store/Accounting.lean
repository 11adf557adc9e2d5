import StoreTrial.Proofs.Store.LiveKeys
import StoreTrial.Proofs.Store.Pulls

/-!
# The number of keys is accounted for

A write adds a key if the key is not there, and a deletion removes one if it succeeds; no other
operation changes the number of keys (`Store.size_apply`). A run is its operations one by one, so
after any number of them the keys are those of the start and the added ones, less the removed ones
(`Store.size_run_add_removals`). `size_accounted` says so for whole runs from any store.
-/

namespace StoreTrial

namespace Store

/-- The operation writes a key that the store does not have. -/
def Adds (operation : Operation) (store : Store) : Prop :=
  operation.kind = .write ∧ store.get? operation.key = none

instance (operation : Operation) (store : Store) : Decidable (Adds operation store) :=
  inferInstanceAs (Decidable (_ ∧ _))

/-- The number of writes in a run whose key is not there at that moment. -/
def additions (operations : List Operation) (store : Store) : Nat :=
  operations.zipIdx.countP fun numbered =>
    Adds numbered.1 (run (operations.take numbered.2) store).2

/-- The number of deletions in a run that are answered with success. -/
def removals (operations : List Operation) (store : Store) : Nat :=
  (operations.zip (run operations store).1).countP fun answered =>
    answered.1.kind = .delete ∧ answered.2 = .success

/-- A store is empty exactly if nothing is found under any key. -/
theorem isEmpty_iff (store : Store) : store.isEmpty = true ↔ ∀ key, store.get? key = none := by
  unfold isEmpty
  rw [Std.HashMap.isEmpty_iff_forall_not_mem]
  refine forall_congr' fun key => ?_
  rw [mem_entries_iff, Option.not_isSome_iff_eq_none]

/-- A store in which something is found has a key. -/
theorem size_pos_of_get? {store : Store} {key value : String} (h : store.get? key = some value) :
    0 < store.size := by
  refine Nat.pos_of_ne_zero fun hzero => ?_
  have hempty : store.isEmpty = true :=
    Std.HashMap.isEmpty_eq_size_eq_zero.trans (beq_iff_eq.mpr hzero)
  rw [(isEmpty_iff store).mp hempty key] at h
  contradiction

/-! ## One operation -/

/-- A write adds its key if the key is not there. -/
theorem size_apply_write (store : Store) (key value : String) :
    (apply (.write key value) store).2.size =
      store.size + if store.get? key = none then 1 else 0 := by
  have hsize : (apply (.write key value) store).2.size =
      if key ∈ store.entries then store.size else store.size + 1 := Std.HashMap.size_insert
  rw [hsize]
  cases hkey : store.get? key with
  | none =>
    have hmem : key ∉ store.entries := by simp [mem_entries_iff, hkey]
    rw [if_neg hmem, if_pos rfl]
  | some value' =>
    have hmem : key ∈ store.entries := by simp [mem_entries_iff, hkey]
    rw [if_pos hmem, if_neg (Option.some_ne_none _), Nat.add_zero]

/-- A deletion removes its key if it succeeds. -/
theorem size_apply_delete (store : Store) (key : String) :
    (apply (.delete key) store).2.size +
      (if (apply (.delete key) store).1 = .success then 1 else 0) = store.size := by
  cases hkey : store.get? key with
  | none =>
    rw [apply_delete_of_absent hkey, if_neg Outcome.noConfusion]
    rfl
  | some value =>
    have hmem : key ∈ store.entries := by simp [mem_entries_iff, hkey]
    have hpos : 0 < store.entries.size := size_pos_of_get? hkey
    rw [apply_delete_of_found hkey, if_pos rfl]
    unfold size
    rw [Std.HashMap.size_erase, if_pos hmem]
    omega

/-- An operation changes the number of keys only by the key that it adds or removes. -/
theorem size_apply (operation : Operation) (store : Store) :
    (apply operation store).2.size +
        (if operation.kind = .delete ∧ (apply operation store).1 = .success then 1 else 0) =
      store.size + if Adds operation store then 1 else 0 := by
  unfold Adds
  cases operation with
  | read key =>
    rw [apply_read]
    simp [Operation.kind, size]
  | write key value =>
    simpa [Operation.kind, Operation.key] using size_apply_write store key value
  | delete key =>
    simpa [Operation.kind] using size_apply_delete store key

/-! ## Runs -/

section

variable (operations : List Operation) (operation : Operation) (store : Store)

/-- One more operation is one more addition if it adds a key to the store that the others left. -/
theorem additions_concat :
    additions (operations ++ [operation]) store = additions operations store +
      if Adds operation (run operations store).2 then 1 else 0 := by
  unfold additions
  rw [countP_zipIdx_concat fun before operation => Adds operation (run before store).2]

/-- One more operation is one more removal if it is a deletion that succeeds. -/
theorem removals_concat :
    removals (operations ++ [operation]) store = removals operations store +
      if operation.kind = .delete ∧
        (apply operation (run operations store).2).1 = .success then 1 else 0 := by
  unfold removals
  rw [run_concat, List.zip_append (length_run operations store).symm, List.countP_append]
  simp only [List.zip_cons_cons, List.zip_nil_right, List.countP_singleton, decide_eq_true_eq]

/-- The keys after a run and the removed ones are those at its start and the added ones. -/
theorem size_run_add_removals :
    (run operations store).2.size + removals operations store =
      store.size + additions operations store := by
  induction operations using List.reverseRecOn with
  | nil => rfl
  | append_singleton operations operation ih =>
    have hstep := size_apply operation (run operations store).2
    rw [removals_concat, additions_concat, run_concat]
    dsimp only
    omega

end

end Store

/-- From any store and for any operations, the number of keys at the end is that at the start and
the number of writes whose key was not there at that moment, less the number of deletions that were
answered with success. At no point of the run were there more such deletions than keys at the start
and such writes until then. A store is empty if and only if nothing is found under any key, and it
counts each operation of the run as applied, also those that miss. -/
theorem size_accounted (operations : List Operation) (store : Store) :
    (store.run operations).2.size =
      store.size + Store.additions operations store - Store.removals operations store ∧
    (∀ count, Store.removals (operations.take count) store ≤
      store.size + Store.additions (operations.take count) store) ∧
    ((store.run operations).2.isEmpty = true ↔
      ∀ key, (store.run operations).2.get? key = none) ∧
    (store.run operations).2.applied = store.applied + operations.length := by
  refine ⟨?_, fun count => ?_, Store.isEmpty_iff _, Store.applied_run operations store⟩
  · have hsize := Store.size_run_add_removals operations store
    omega
  · have hsize := Store.size_run_add_removals (operations.take count) store
    omega

end StoreTrial
