import StoreTrial.Proofs.Store.Lookup

/-!
# What a miss goes back to

A read or a deletion misses when its key is not found, and a key is not found when it was never
written or when a deletion took it away. `Removed` is the second of these, told by operations and
their outcomes alone: an earlier deletion of the key succeeded, and the key was not written since.
One operation takes a key away only as a deletion that succeeds (`eq_delete_of_get?_apply`), and
brings it back only as a write (`get?_apply_of_absent`). So, position by position, a key that was
written before is not found exactly if it was removed (`get?_storeAt_eq_none_iff`), and where each
key is written before it is read or deleted, the misses are the reads and deletions of removed keys
(`missed_iff_removed`).
-/

namespace StoreTrial

/-! ## One operation -/

namespace Store

variable {key value : String} {operation : Operation} {store : Store}

/-- An operation after which a key is not found does not write the key. -/
theorem ne_write_of_get?_apply (h : (apply operation store).2.get? key = none) (value : String) :
    operation ≠ .write key value := by
  rintro rfl
  have hfound := get?_apply_self (.write key value) store
  have hnone : (apply (.write key value) store).2.get? (Operation.write key value).key = none := h
  rw [hfound] at hnone
  contradiction

/-- A key that is not found is brought back only by a write. -/
theorem get?_apply_of_absent (h : store.get? key = none)
    (hwrite : ∀ value, operation ≠ .write key value) :
    (apply operation store).2.get? key = none := by
  by_cases hkey : operation.key = key
  · subst hkey
    rw [get?_apply_self, h]
    cases operation with
    | write key value => exact absurd rfl (hwrite value)
    | read key | delete key => rfl
  · rw [get?_apply_of_ne hkey, h]

/-- A key that is found is taken away only by a deletion, which succeeds. -/
theorem eq_delete_of_get?_apply (h : store.get? key = some value)
    (hgone : (apply operation store).2.get? key = none) :
    operation = .delete key ∧ (apply operation store).1 = .success := by
  have hkey : operation.key = key := by
    refine Decidable.byContradiction fun hne => ?_
    rw [get?_apply_of_ne hne, h] at hgone
    contradiction
  subst hkey
  have heffect : operation.effect (store.get? operation.key) = none := by
    rw [← get?_apply_self, hgone]
  rw [apply_fst, h]
  rw [h] at heffect
  cases operation with
  | read key | write key value => contradiction
  | delete key => exact ⟨rfl, rfl⟩

end Store

/-! ## Positions of a replay -/

/-- The store that the first `count` operations leave. -/
def storeAt (operations : List Operation) (count : Nat) : Store :=
  (Store.empty.run (operations.take count)).2

/-- Before position `i`, the key was written. -/
def Written (operations : List Operation) (key : String) (i : Nat) : Prop :=
  ∃ j < i, ∃ value, operations[j]? = some (.write key value)

/-- Before position `i`, a deletion of the key succeeded, and the key was not written since. -/
def Removed (operations : List Operation) (key : String) (i : Nat) : Prop :=
  ∃ j < i, operations[j]? = some (.delete key) ∧
    (replay operations).value[j]? = some .success ∧
    ∀ m, j < m → m < i → ∀ value, operations[m]? ≠ some (.write key value)

section

variable {operations : List Operation} {operation : Operation} {key : String} {i : Nat}

/-- The operation at a position is applied to the store that those before it leave. -/
theorem storeAt_succ (h : operations[i]? = some operation) :
    storeAt operations (i + 1) = (Store.apply operation (storeAt operations i)).2 := by
  unfold storeAt
  rw [List.take_add_one, h, Option.toList_some, Store.run_concat]

/-- The outcome at a position is that of its operation in the store that those before it leave. -/
theorem getElem?_replay (h : operations[i]? = some operation) :
    (replay operations).value[i]? = some (Store.apply operation (storeAt operations i)).1 := by
  rw [Store.apply_fst]
  exact Store.getElem?_run h Store.empty

/-- A key that was removed stays so until it is written. -/
theorem Removed.succ (h : Removed operations key i)
    (hwrite : ∀ value, operations[i]? ≠ some (.write key value)) :
    Removed operations key (i + 1) := by
  obtain ⟨j, hj, hdelete, hsuccess, hsince⟩ := h
  refine ⟨j, Nat.lt_succ_of_lt hj, hdelete, hsuccess, fun m hjm hmi => ?_⟩
  rcases Nat.lt_succ_iff_lt_or_eq.mp hmi with hlt | rfl
  · exact hsince m hjm hlt
  · exact hwrite

/-- A key that was removed is not found. -/
theorem Removed.get?_eq_none (h : Removed operations key i) (hi : i ≤ operations.length) :
    (storeAt operations i).get? key = none := by
  induction i with
  | zero =>
    obtain ⟨j, hj, -⟩ := h
    contradiction
  | succ i ih =>
    obtain ⟨j, hj, hdelete, hsuccess, hsince⟩ := h
    have hoperation : operations[i]? = some operations[i] := List.getElem?_eq_getElem hi
    rw [storeAt_succ hoperation]
    rcases Nat.lt_succ_iff_lt_or_eq.mp hj with hlt | rfl
    · -- The deletion came earlier, and the operation at position `i` is no write of the key.
      have hbefore : Removed operations key i :=
        ⟨j, hlt, hdelete, hsuccess, fun m hjm hmi => hsince m hjm (Nat.lt_succ_of_lt hmi)⟩
      refine Store.get?_apply_of_absent (ih hbefore (Nat.le_of_lt hi)) fun value hvalue => ?_
      exact hsince i hlt (Nat.lt_succ_self i) value (hoperation.trans (congrArg some hvalue))
    · rw [hoperation] at hdelete
      rw [Option.some.inj hdelete]
      exact Store.get?_apply_self (.delete key) _

/-- A key that was written and is not found was removed. -/
theorem removed_of_get?_eq_none (hwritten : Written operations key i) (hi : i ≤ operations.length)
    (h : (storeAt operations i).get? key = none) : Removed operations key i := by
  induction i with
  | zero =>
    obtain ⟨j, hj, -⟩ := hwritten
    contradiction
  | succ i ih =>
    have hoperation : operations[i]? = some operations[i] := List.getElem?_eq_getElem hi
    rw [storeAt_succ hoperation] at h
    cases hfound : (storeAt operations i).get? key with
    | some value =>
      -- The key was found before position `i`, so the deletion to be named is the one there.
      obtain ⟨hdelete, hsuccess⟩ := Store.eq_delete_of_get?_apply hfound h
      refine ⟨i, Nat.lt_succ_self i, hoperation.trans (congrArg some hdelete), ?_, ?_⟩
      · rw [getElem?_replay hoperation, hsuccess]
      · intro m him hmi
        omega
    | none =>
      -- The key was gone before position `i`, and so the write came before that position, too.
      have hwrite : ∀ value, operations[i]? ≠ some (.write key value) := by
        intro value hvalue
        rw [hoperation] at hvalue
        exact Store.ne_write_of_get?_apply h value (Option.some.inj hvalue)
      obtain ⟨j, hj, value, hvalue⟩ := hwritten
      have hlt : j < i := by
        rcases Nat.lt_succ_iff_lt_or_eq.mp hj with hlt | rfl
        · exact hlt
        · exact absurd hvalue (hwrite value)
      exact (ih ⟨j, hlt, value, hvalue⟩ (Nat.le_of_lt hi) hfound).succ hwrite

/-- A key that was written is not found exactly if it was removed. -/
theorem get?_storeAt_eq_none_iff (hwritten : Written operations key i)
    (hi : i ≤ operations.length) :
    (storeAt operations i).get? key = none ↔ Removed operations key i :=
  ⟨removed_of_get?_eq_none hwritten hi, fun hremoved => hremoved.get?_eq_none hi⟩

/-- An operation misses exactly if it is a read or a deletion and its key is not found. -/
theorem answer_eq_notFound_iff {found : Option String} :
    operation.answer found = .notFound ↔
      (operation = .read operation.key ∨ operation = .delete operation.key) ∧ found = none := by
  cases operation <;> cases found <;> simp [Operation.answer, Operation.key]

/-- Where each key is written before it is read or deleted, the operation at a position misses
exactly if it is a read or a deletion of a key that was removed. -/
theorem missed_iff_removed
    (hwritten : ∀ (j : Nat) key, operations[j]? = some (.read key) ∨
      operations[j]? = some (.delete key) → Written operations key j) (i : Nat) :
    (replay operations).value[i]? = some .notFound ↔
      ∃ key, (operations[i]? = some (.read key) ∨ operations[i]? = some (.delete key)) ∧
        Removed operations key i := by
  rcases Nat.lt_or_ge i operations.length with hi | hi
  · have hoperation : operations[i]? = some operations[i] := List.getElem?_eq_getElem hi
    rw [getElem?_replay hoperation, Option.some.injEq, Store.apply_fst, answer_eq_notFound_iff]
    constructor
    · rintro ⟨hkind, hnone⟩
      have hasks : operations[i]? = some (.read operations[i].key) ∨
          operations[i]? = some (.delete operations[i].key) :=
        hkind.imp (fun hread => hoperation.trans (congrArg some hread))
          fun hdelete => hoperation.trans (congrArg some hdelete)
      refine ⟨operations[i].key, hasks, ?_⟩
      exact (get?_storeAt_eq_none_iff (hwritten i _ hasks) (Nat.le_of_lt hi)).mp hnone
    · rintro ⟨key, hasks, hremoved⟩
      have hnone := (get?_storeAt_eq_none_iff (hwritten i key hasks) (Nat.le_of_lt hi)).mpr hremoved
      rw [hoperation, Option.some.injEq, Option.some.injEq] at hasks
      rcases hasks with hread | hdelete
      · rw [hread]
        exact ⟨.inl rfl, hnone⟩
      · rw [hdelete]
        exact ⟨.inr rfl, hnone⟩
  · -- There is neither an operation nor an outcome.
    have hreplay : (replay operations).value[i]? = none := by
      refine List.getElem?_eq_none ?_
      exact (Store.length_run operations Store.empty).symm ▸ hi
    rw [hreplay, List.getElem?_eq_none hi]
    simp

end

end StoreTrial
