import Mathlib.Data.Finset.Card
import StoreTrial.Proofs.Store.History

/-!
# Keys that are written and keys that live

Of the keys that operations write, some are written for the first time and the others again, so the
distinct keys and the rewrites are together all writes (`distinctKeys_add_rewrites`). A store that
starts empty has a key only if it was written, and so at no time more keys than were written until
then (`size_run_le`).
-/

namespace StoreTrial

/-- The number of operations of a kind. -/
def countKind (kind : Kind) (operations : List Operation) : Nat :=
  operations.countP fun operation => operation.kind = kind

/-- The keys that operations write, in order and with repetitions. -/
def writtenKeys (operations : List Operation) : List String :=
  (operations.filter fun operation => operation.kind = .write).map Operation.key

/-- The number of distinct keys that operations write. -/
def distinctKeys (operations : List Operation) : Nat := (writtenKeys operations).toFinset.card

/-- The number of writes of a key that an earlier one of the operations writes. -/
def rewrites (operations : List Operation) : Nat :=
  operations.zipIdx.countP fun numbered =>
    numbered.1.kind = .write ∧ numbered.1.key ∈ writtenKeys (operations.take numbered.2)

/-- A key is written again in the third of these operations, and not in the last one. -/
example :
    rewrites [.write "A" "x", .delete "A", .write "A" "y", .read "A", .write "B" "x"] = 1 := by
  decide

/-! ## One more operation -/

/-- If entries are counted by what comes before them, one more entry makes no difference to the
others. -/
theorem countP_zipIdx_concat {α : Type} (p : List α → α → Prop) [∀ before a, Decidable (p before a)]
    (l : List α) (a : α) :
    ((l ++ [a]).zipIdx.countP fun numbered => p ((l ++ [a]).take numbered.2) numbered.1) =
      (l.zipIdx.countP fun numbered => p (l.take numbered.2) numbered.1) +
        if p l a then 1 else 0 := by
  -- At the positions before the last one, what comes before is the same.
  have hbefore : ∀ numbered ∈ l.zipIdx, (l ++ [a]).take numbered.2 = l.take numbered.2 := by
    intro numbered hnumbered
    have hlt : numbered.2 < l.length := List.snd_lt_of_mem_zipIdx hnumbered
    rw [List.take_append_of_le_length (Nat.le_of_lt hlt)]
  rw [List.zipIdx_append, List.countP_append, List.zipIdx_singleton, List.countP_singleton,
    Nat.zero_add, List.take_left]
  congr 1
  · refine List.countP_congr fun numbered hnumbered => ?_
    rw [hbefore numbered hnumbered]
  · simp only [decide_eq_true_eq]

section

variable (operations : List Operation) (operation : Operation)

/-- One more operation is one more of its kind. -/
theorem countKind_concat (kind : Kind) :
    countKind kind (operations ++ [operation]) =
      countKind kind operations + if operation.kind = kind then 1 else 0 := by
  unfold countKind
  rw [List.countP_append, List.countP_singleton]
  simp only [decide_eq_true_eq]

/-- One more operation writes its key if it is a write. -/
theorem writtenKeys_concat :
    writtenKeys (operations ++ [operation]) =
      writtenKeys operations ++ if operation.kind = .write then [operation.key] else [] := by
  unfold writtenKeys
  rw [List.filter_append, List.map_append, List.filter_singleton]
  by_cases hkind : operation.kind = .write
  · simp [hkind]
  · simp [hkind]

/-- One more operation writes a new key if it is a write of a key that was not written before. -/
theorem distinctKeys_concat :
    distinctKeys (operations ++ [operation]) = distinctKeys operations +
      if operation.kind = .write ∧ operation.key ∉ writtenKeys operations then 1 else 0 := by
  unfold distinctKeys
  rw [writtenKeys_concat, List.toFinset_append]
  by_cases hkind : operation.kind = .write
  · have hinsert : (writtenKeys operations).toFinset ∪ [operation.key].toFinset =
        insert operation.key (writtenKeys operations).toFinset := by
      rw [Finset.union_comm]
      rfl
    rw [if_pos hkind, hinsert]
    by_cases hkey : operation.key ∈ writtenKeys operations
    · rw [Finset.insert_eq_of_mem (List.mem_toFinset.mpr hkey), if_neg fun h => h.2 hkey,
        Nat.add_zero]
    · rw [Finset.card_insert_of_notMem (mt List.mem_toFinset.mp hkey), if_pos ⟨hkind, hkey⟩]
  · rw [if_neg hkind, if_neg fun h => hkind h.1, List.toFinset_nil, Finset.union_empty,
      Nat.add_zero]

/-- One more operation is a rewrite if it is a write of a key that was written before. -/
theorem rewrites_concat :
    rewrites (operations ++ [operation]) = rewrites operations +
      if operation.kind = .write ∧ operation.key ∈ writtenKeys operations then 1 else 0 := by
  unfold rewrites
  have hcount := countP_zipIdx_concat
    (fun before operation => operation.kind = .write ∧ operation.key ∈ writtenKeys before)
    operations operation
  rw [hcount]

end

/-! ## All operations -/

section

variable (operations : List Operation)

/-- Each operation is of one of the three kinds. -/
theorem countKind_add_countKind_add_countKind :
    countKind .read operations + countKind .write operations + countKind .delete operations =
      operations.length := by
  induction operations using List.reverseRecOn with
  | nil => rfl
  | append_singleton operations operation ih =>
    rw [countKind_concat, countKind_concat, countKind_concat, List.length_append,
      List.length_singleton, ← ih]
    -- The new operation counts for exactly one of the three.
    cases operation.kind with
    | read | write | delete =>
      simp only [reduceCtorEq, if_true, if_false]
      omega

/-- Each write is the first one of its key or a rewrite. -/
theorem distinctKeys_add_rewrites :
    distinctKeys operations + rewrites operations = countKind .write operations := by
  induction operations using List.reverseRecOn with
  | nil => rfl
  | append_singleton operations operation ih =>
    rw [distinctKeys_concat, rewrites_concat, countKind_concat, ← ih]
    by_cases hkind : operation.kind = .write
    · by_cases hkey : operation.key ∈ writtenKeys operations
      · rw [if_neg fun hnew => hnew.2 hkey, if_pos ⟨hkind, hkey⟩, if_pos hkind]
        omega
      · rw [if_pos ⟨hkind, hkey⟩, if_neg fun hold => hkey hold.2, if_pos hkind]
        omega
    · rw [if_neg fun hnew => hkind hnew.1, if_neg fun hold => hkind hold.1, if_neg hkind]
      rfl

/-- A key is written if there is a write of it. -/
theorem mem_writtenKeys_of_mem {operations : List Operation} {key value : String}
    (h : .write key value ∈ operations) : key ∈ writtenKeys operations :=
  List.mem_map.mpr ⟨.write key value, List.mem_filter.mpr ⟨h, rfl⟩, rfl⟩

/-- The first operations write no more keys than all of them. -/
theorem distinctKeys_take_le (count : Nat) :
    distinctKeys (operations.take count) ≤ distinctKeys operations := by
  have hsublist : (writtenKeys (operations.take count)).Sublist (writtenKeys operations) :=
    ((List.take_sublist count operations).filter _).map _
  exact Finset.card_le_card fun key hkey =>
    List.mem_toFinset.mpr (hsublist.mem (List.mem_toFinset.mp hkey))

/-- A store that starts empty has no more keys than were written. -/
theorem size_run_le : (Store.empty.run operations).2.size ≤ distinctKeys operations := by
  let entries := (Store.empty.run operations).2.entries
  have hnodup : entries.keys.Nodup := Std.HashMap.nodup_keys
  have hwritten : ∀ key ∈ entries.keys, key ∈ writtenKeys operations := by
    intro key hkey
    have hsome : ((Store.empty.run operations).2.get? key).isSome :=
      Store.mem_entries_iff.mp (Std.HashMap.mem_keys.mp hkey)
    obtain ⟨value, hvalue⟩ := Option.isSome_iff_exists.mp hsome
    -- What is found was written by the last change of the key, which is one of the operations.
    have hlast := Store.get?_run_empty_eq_some_iff.mp hvalue
    exact mem_writtenKeys_of_mem (mem_of_lastChange? hlast).1
  calc (Store.empty.run operations).2.size
      = entries.keys.length := Std.HashMap.length_keys.symm
    _ = entries.keys.toFinset.card := (List.toFinset_card_of_nodup hnodup).symm
    _ ≤ distinctKeys operations := Finset.card_le_card fun key hkey =>
        List.mem_toFinset.mpr (hwritten key (List.mem_toFinset.mp hkey))

end

end StoreTrial
