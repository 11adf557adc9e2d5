import StoreTrial.Proofs.Store.History
import StoreTrial.Proofs.Store.Pulls

/-!
# Operations on different keys commute

Operations may be put in another order, as long as those on one key keep theirs (`Rearranged`). All
that a run does to a key, and all that it answers about it, comes from the operations on that key
(`onKey`), and these are the same list before and after (`Rearranged.onKey_eq`). So what is found
under each key is the same after both runs (`get?_run_of_onKey_eq`), and so is the answer to
operations that are in step, that is, as many operations into the operations on one key
(`getElem?_run_of_inStep`). `run_rearranged` puts this together.
-/

namespace StoreTrial

/-- The operations on `key`, in order. -/
def onKey (key : String) (operations : List Operation) : List Operation :=
  operations.filter fun operation => operation.key == key

/-- The key of the operation at position `i`, if there is one. -/
def keyAt? (operations : List Operation) (i : Nat) : Option String :=
  operations[i]?.map Operation.key

/-- `second` has the operations of `first` in another order, in which no two operations on one key
change places. The list `order` are the positions in `first` of the operations of `second`. -/
def Rearranged (first second : List Operation) : Prop :=
  ∃ order : List Nat, order.Perm (List.range first.length) ∧
    second.map some = order.map (first[·]?) ∧
    order.Pairwise fun i j => keyAt? first i = keyAt? first j → i < j

/-- The operations at position `i` of `first` and at position `j` of `second` are on one key, with
as many operations on that key before them. -/
def InStep (first : List Operation) (i : Nat) (second : List Operation) (j : Nat) : Prop :=
  ∃ key, keyAt? first i = some key ∧ keyAt? second j = some key ∧
    (onKey key (first.take i)).length = (onKey key (second.take j)).length

/-! ## The operations on one key -/

/-- The operations on a key in two lists are those of the one and then those of the other. -/
theorem onKey_append (key : String) (before after : List Operation) :
    onKey key (before ++ after) = onKey key before ++ onKey key after := List.filter_append ..

/-- An operation on a key is one of the operations on that key. -/
theorem onKey_cons_of_eq {key : String} {operation : Operation} (h : operation.key = key)
    (operations : List Operation) :
    onKey key (operation :: operations) = operation :: onKey key operations :=
  List.filter_cons_of_pos (beq_iff_eq.mpr h)

/-- An operation on another key is none of the operations on a key. -/
theorem onKey_cons_of_ne {key : String} {operation : Operation} (h : operation.key ≠ key)
    (operations : List Operation) :
    onKey key (operation :: operations) = onKey key operations :=
  List.filter_cons_of_neg (by rwa [beq_iff_eq])

/-- A list is its entries at all of its positions. -/
theorem map_getElem?_range {α : Type} (l : List α) :
    (List.range l.length).map (l[·]?) = l.map some := by
  apply List.ext_getElem?
  intro i
  rw [List.getElem?_map, List.getElem?_map]
  rcases Nat.lt_or_ge i l.length with hi | hi
  · rw [List.getElem?_range hi, List.getElem?_eq_getElem hi]
    exact congrArg some (List.getElem?_eq_getElem hi)
  · rw [List.getElem?_eq_none hi, List.getElem?_eq_none (by rwa [List.length_range])]
    rfl

/-- The operations on a key are those at the positions with that key. -/
theorem map_some_onKey {operations chosen : List Operation} {order : List Nat}
    (h : chosen.map some = order.map (operations[·]?)) (key : String) :
    (onKey key chosen).map some =
      (order.filter fun i => keyAt? operations i == some key).map (operations[·]?) := by
  calc (onKey key chosen).map some
      = (chosen.map some).filter fun found => found.map Operation.key == some key := by
        rw [List.filter_map]
        rfl
    _ = (order.filter fun i => keyAt? operations i == some key).map (operations[·]?) := by
        rw [h, List.filter_map]
        rfl

/-- Positions that stand in ascending order are determined by what they are. -/
theorem eq_of_perm_of_ascending {first second : List Nat} (h : first.Perm second)
    (hfirst : first.Pairwise (· < ·)) (hsecond : second.Pairwise (· < ·)) : first = second :=
  h.eq_of_pairwise (fun _ _ _ _ hlt hgt => absurd hgt (Nat.lt_asymm hlt)) hfirst hsecond

/-- A rearrangement has as many operations. -/
theorem Rearranged.length_eq {first second : List Operation} (h : Rearranged first second) :
    first.length = second.length := by
  obtain ⟨order, hperm, hsecond, -⟩ := h
  have hlength := congrArg List.length hsecond
  rw [List.length_map, List.length_map, hperm.length_eq, List.length_range] at hlength
  exact hlength.symm

/-- A rearrangement has the same operations on each key, in the same order. -/
theorem Rearranged.onKey_eq {first second : List Operation} (h : Rearranged first second)
    (key : String) : onKey key first = onKey key second := by
  obtain ⟨order, hperm, hsecond, hascending⟩ := h
  have hrange := map_some_onKey (map_getElem?_range first).symm key
  have horder := map_some_onKey hsecond key
  -- Among the positions with the key, the order is ascending on both sides.
  have hkey : ((List.range first.length).filter fun i => keyAt? first i == some key) =
      order.filter fun i => keyAt? first i == some key := by
    refine eq_of_perm_of_ascending (hperm.symm.filter _) (List.pairwise_lt_range.filter _) ?_
    refine List.pairwise_filter.mpr (hascending.imp fun hlt hi hj => hlt ?_)
    rw [eq_of_beq hi, eq_of_beq hj]
  rw [hkey, ← horder] at hrange
  exact (List.map_inj_right fun _ _ heq => Option.some.inj heq).mp hrange

/-- The operations on a key before a position are the first of the operations on it. -/
theorem onKey_take (key : String) (operations : List Operation) (i : Nat) :
    onKey key (operations.take i) =
      (onKey key operations).take (onKey key (operations.take i)).length :=
  List.prefix_iff_eq_take.mp ((List.take_prefix i operations).filter _)

/-- An operation is among those on its key as many places on as there are such operations before
it. -/
theorem getElem?_onKey {operations : List Operation} {operation : Operation} {i : Nat}
    (h : operations[i]? = some operation) :
    (onKey operation.key operations)[(onKey operation.key (operations.take i)).length]? =
      some operation := by
  obtain ⟨hi, hoperation⟩ := List.getElem?_eq_some_iff.mp h
  have hsplit : operations = operations.take i ++ operation :: operations.drop (i + 1) := by
    rw [← hoperation, ← List.drop_eq_getElem_cons hi, List.take_append_drop]
  have honKey : onKey operation.key operations = onKey operation.key (operations.take i) ++
      operation :: onKey operation.key (operations.drop (i + 1)) := by
    refine (congrArg (onKey operation.key) hsplit).trans ?_
    rw [onKey_append, onKey_cons_of_eq rfl]
  rw [honKey, List.getElem?_append_right (Nat.le_refl _), Nat.sub_self, List.getElem?_cons_zero]

/-- Each of the operations on a key stands at some position, with the earlier ones before it. -/
theorem exists_position {key : String} {operations : List Operation} {operation : Operation}
    {rank : Nat} (h : (onKey key operations)[rank]? = some operation) :
    ∃ i, operations[i]? = some operation ∧ (onKey key (operations.take i)).length = rank := by
  induction operations generalizing rank with
  | nil => simp [onKey] at h
  | cons first operations ih =>
    by_cases hkey : first.key = key
    · rw [onKey_cons_of_eq hkey] at h
      cases rank with
      | zero => exact ⟨0, h, rfl⟩
      | succ rank =>
        obtain ⟨i, hi, hrank⟩ := ih h
        refine ⟨i + 1, hi, ?_⟩
        rw [List.take_succ_cons, onKey_cons_of_eq hkey, List.length_cons, hrank]
    · rw [onKey_cons_of_ne hkey] at h
      obtain ⟨i, hi, hrank⟩ := ih h
      refine ⟨i + 1, hi, ?_⟩
      rw [List.take_succ_cons, onKey_cons_of_ne hkey, hrank]

/-! ## Runs -/

/-- The last change of a key is the last change of it among the operations on it. -/
theorem lastChange?_onKey (key : String) (operations : List Operation) :
    lastChange? key (onKey key operations) = lastChange? key operations := by
  have hchanges : ∀ operation : Operation,
      (operation.changes key && operation.key == key) = operation.changes key := by
    intro operation
    cases hchanges : operation.changes key with
    | false => rfl
    | true => rw [Operation.key_of_changes hchanges, beq_self_eq_true, Bool.true_and]
  unfold lastChange? onKey
  rw [List.filter_filter, List.filter_congr fun operation _ => hchanges operation]

namespace Store

/-- Runs with the same operations on a key leave the same under it. -/
theorem get?_run_of_onKey_eq {key : String} {first second : List Operation}
    (h : onKey key first = onKey key second) (store : Store) :
    (run first store).2.get? key = (run second store).2.get? key := by
  rw [get?_run, get?_run, ← lastChange?_onKey, h, lastChange?_onKey]

/-- Stores in which the same is found under each key have as many keys. -/
theorem size_eq_of_get?_eq {first second : Store} (h : ∀ key, first.get? key = second.get? key) :
    first.size = second.size ∧ first.isEmpty = second.isEmpty := by
  have hequiv : first.entries.Equiv second.entries := Std.HashMap.Equiv.of_forall_getElem?_eq h
  exact ⟨hequiv.size_eq, hequiv.isEmpty_eq⟩

end Store

section

variable {first second : List Operation} {i j : Nat}

/-- Being in step goes both ways. -/
theorem InStep.symm (h : InStep first i second j) : InStep second j first i := by
  obtain ⟨key, hfirst, hsecond, hrank⟩ := h
  exact ⟨key, hsecond, hfirst, hrank.symm⟩

/-- Where the operations on each key are the same, operations that are in step are the same. -/
theorem InStep.getElem?_eq (hstep : InStep first i second j)
    (h : ∀ key, onKey key first = onKey key second) : first[i]? = second[j]? := by
  obtain ⟨key, hfirst, hsecond, hrank⟩ := hstep
  obtain ⟨operation, hoperation, rfl⟩ := Option.map_eq_some_iff.mp hfirst
  obtain ⟨operation', hoperation', hkey⟩ := Option.map_eq_some_iff.mp hsecond
  have hat := getElem?_onKey hoperation
  have hat' := getElem?_onKey hoperation'
  rw [hkey] at hat'
  rw [h, hrank, hat'] at hat
  rw [hoperation, hoperation', hat]

/-- Where the operations on each key are the same, operations that are in step have the same
answer. -/
theorem getElem?_run_of_inStep (hstep : InStep first i second j)
    (h : ∀ key, onKey key first = onKey key second) (store : Store) :
    (store.run first).1[i]? = (store.run second).1[j]? := by
  have hsame := hstep.getElem?_eq h
  obtain ⟨key, hfirst, hsecond, hrank⟩ := hstep
  obtain ⟨operation, hoperation, rfl⟩ := Option.map_eq_some_iff.mp hfirst
  have hbefore : onKey operation.key (first.take i) = onKey operation.key (second.take j) := by
    rw [onKey_take, hrank, h, ← onKey_take]
  rw [Store.getElem?_run hoperation, Store.getElem?_run (hsame ▸ hoperation),
    Store.get?_run_of_onKey_eq hbefore]

/-- Where the operations on each key are the same, each operation is in step with another. -/
theorem exists_inStep (h : ∀ key, onKey key first = onKey key second) (hi : i < first.length) :
    ∃ j < second.length, InStep first i second j := by
  have hoperation : first[i]? = some first[i] := List.getElem?_eq_getElem hi
  have hat := getElem?_onKey hoperation
  rw [h] at hat
  obtain ⟨j, hj, hrank⟩ := exists_position hat
  obtain ⟨hlt, -⟩ := List.getElem?_eq_some_iff.mp hj
  refine ⟨j, hlt, first[i].key, ?_, ?_, hrank.symm⟩
  · rw [keyAt?, hoperation, Option.map_some]
  · rw [keyAt?, hj, Option.map_some]

end

/-- If operations are put in another order in which those on each key keep theirs, each operation
is in step with one of the others, operations in step are the same and have the same answer,
whatever the store holds at the start, and at the end the same is found under each key, with as many
keys and as many operations answered. -/
theorem run_rearranged {first second : List Operation} (h : Rearranged first second)
    (store : Store) :
    (∀ i < first.length, ∃ j < second.length, InStep first i second j) ∧
    (∀ j < second.length, ∃ i < first.length, InStep first i second j) ∧
    (∀ i j, InStep first i second j → first[i]? = second[j]? ∧
      (store.run first).1[i]? = (store.run second).1[j]?) ∧
    (∀ key, (store.run first).2.get? key = (store.run second).2.get? key) ∧
    (store.run first).2.size = (store.run second).2.size ∧
    (store.run first).2.isEmpty = (store.run second).2.isEmpty ∧
    (store.run first).2.applied = (store.run second).2.applied := by
  have honKey := h.onKey_eq
  have hget : ∀ key, (store.run first).2.get? key = (store.run second).2.get? key :=
    fun key => Store.get?_run_of_onKey_eq (honKey key) store
  obtain ⟨hsize, hempty⟩ := Store.size_eq_of_get?_eq hget
  refine ⟨fun i hi => exists_inStep honKey hi, fun j hj => ?_, fun i j hstep => ?_, hget, hsize,
    hempty, ?_⟩
  · obtain ⟨i, hi, hstep⟩ := exists_inStep (fun key => (honKey key).symm) hj
    exact ⟨i, hi, hstep.symm⟩
  · exact ⟨hstep.getElem?_eq honKey, getElem?_run_of_inStep hstep honKey store⟩
  · rw [Store.applied_run, Store.applied_run, h.length_eq]

/-- Operations on one key move past those on another, and the deletion still succeeds. -/
theorem run_rearranged_of_two_keys :
    Rearranged [.write "A" "x", .write "B" "y", .read "A", .delete "B"]
      [.write "B" "y", .delete "B", .write "A" "x", .read "A"] ∧
    InStep [.write "A" "x", .write "B" "y", .read "A", .delete "B"] 3
      [.write "B" "y", .delete "B", .write "A" "x", .read "A"] 1 ∧
    (Store.empty.run [.write "A" "x", .write "B" "y", .read "A", .delete "B"]).1[3]? =
      (Store.empty.run [.write "B" "y", .delete "B", .write "A" "x", .read "A"]).1[1]? ∧
    (Store.empty.run [.write "A" "x", .write "B" "y", .read "A", .delete "B"]).2.size =
      (Store.empty.run [.write "B" "y", .delete "B", .write "A" "x", .read "A"]).2.size := by
  have h : Rearranged [.write "A" "x", .write "B" "y", .read "A", .delete "B"]
      [.write "B" "y", .delete "B", .write "A" "x", .read "A"] :=
    ⟨[1, 3, 0, 2], by decide, by decide, by decide⟩
  have hstep : InStep [.write "A" "x", .write "B" "y", .read "A", .delete "B"] 3
      [.write "B" "y", .delete "B", .write "A" "x", .read "A"] 1 :=
    ⟨"B", by decide, by decide, by decide⟩
  obtain ⟨-, -, hanswers, -, hsize, -⟩ := run_rearranged h Store.empty
  exact ⟨h, hstep, (hanswers 3 1 hstep).2, hsize⟩

end StoreTrial
