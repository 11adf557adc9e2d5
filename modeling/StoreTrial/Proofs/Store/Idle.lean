import Mathlib.Data.Finset.Card
import StoreTrial.Proofs.Store.Misses
import StoreTrial.Proofs.Store.Rearrangement

/-!
# Operations without effect can be left out

A read leaves what is found under each key as it is, and so does a deletion that finds nothing
(`Store.get?_apply_of_idle`). If some of these are left out of a run, the run with them and the run
without them go through stores that differ in nothing but the number of operations: in both, the
same is found under each key. That is all that the other operations depend on, so they have the same
answers (`Store.run_without`). `run_without_idle` says what else is the same at the end.
-/

namespace StoreTrial

/-- The entries of a list without those at the positions. -/
def without {α : Type} (positions : Finset Nat) (l : List α) : List α :=
  (l.zipIdx.filter fun numbered => numbered.2 ∉ positions).map Prod.fst

/-- The operation at position `i` of a run has no effect: it is a read, or it is a deletion that is
answered as not found. -/
def Idle (operations : List Operation) (store : Store) (i : Nat) : Prop :=
  ∃ operation, operations[i]? = some operation ∧
    (operation.kind = .read ∨
      operation.kind = .delete ∧ (store.run operations).1[i]? = some .notFound)

/-! ## Entries that are left out -/

section

variable {α : Type} {positions : Finset Nat}

/-- The last entry is left out if its position is one of those. -/
theorem without_concat (positions : Finset Nat) (l : List α) (a : α) :
    without positions (l ++ [a]) =
      without positions l ++ if l.length ∈ positions then [] else [a] := by
  unfold without
  rw [List.zipIdx_append, List.filter_append, List.map_append, List.zipIdx_singleton, Nat.zero_add,
    List.filter_singleton]
  by_cases hmem : l.length ∈ positions
  · simp [hmem]
  · simp [hmem]

/-- The entries that are not left out are as many as the other positions. -/
theorem length_without (positions : Finset Nat) (l : List α) :
    (without positions l).length = (List.range l.length).countP fun i => i ∉ positions := by
  rw [without, List.length_map, ← List.countP_eq_length_filter, List.range_eq_range',
    ← List.zipIdx_map_snd 0 l, List.countP_map]
  rfl

/-- Positions below a bound can be counted off. -/
theorem card_eq_countP_range {n : Nat} (h : ∀ i ∈ positions, i < n) :
    positions.card = (List.range n).countP fun i => i ∈ positions := by
  let counted := (List.range n).filter fun i => i ∈ positions
  have hnodup : counted.Nodup := List.nodup_range.filter _
  have hcounted : counted.toFinset = positions := by
    ext i
    simp only [counted, List.mem_toFinset, List.mem_filter, List.mem_range, decide_eq_true_eq]
    exact ⟨And.right, fun hi => ⟨h i hi, hi⟩⟩
  calc positions.card
      = counted.toFinset.card := by rw [hcounted]
    _ = counted.length := List.toFinset_card_of_nodup hnodup
    _ = (List.range n).countP fun i => i ∈ positions := List.countP_eq_length_filter.symm

/-- The entries that are left out are as many as the positions, if there is an entry at each. -/
theorem length_without_add_card {l : List α} (h : ∀ i ∈ positions, i < l.length) :
    (without positions l).length + positions.card = l.length := by
  have hall := List.length_eq_countP_add_countP (l := List.range l.length) fun i => i ∈ positions
  simp only [List.length_range, decide_eq_true_eq] at hall
  calc (without positions l).length + positions.card
      = (List.range l.length).countP (fun i => i ∉ positions) +
          (List.range l.length).countP (fun i => i ∈ positions) := by
        rw [length_without, ← card_eq_countP_range h]
    _ = l.length := by rw [Nat.add_comm, ← hall]

end

/-! ## One operation -/

namespace Store

/-- An operation without effect leaves what is found under each key. -/
theorem get?_apply_of_idle {operation : Operation} {store : Store}
    (h : operation.kind = .read ∨
      operation.kind = .delete ∧ (apply operation store).1 = .notFound) (key : String) :
    (apply operation store).2.get? key = store.get? key := by
  cases operation with
  | read key' =>
    rw [apply_read]
    rfl
  | write key' value => simp [Operation.kind] at h
  | delete key' =>
    have hmiss : (apply (.delete key') store).1 = .notFound := by simpa [Operation.kind] using h
    rw [apply_fst] at hmiss
    have habsent : store.get? key' = none := (answer_eq_notFound_iff.mp hmiss).2
    rw [apply_delete_of_absent habsent]
    rfl

/-- What an operation is answered depends only on what is found under its key. -/
theorem apply_fst_congr {first second : Store} (h : ∀ key, first.get? key = second.get? key)
    (operation : Operation) : (apply operation first).1 = (apply operation second).1 := by
  rw [apply_fst, apply_fst, h]

/-- What is found under each key after an operation depends only on what is found before it. -/
theorem get?_apply_congr {first second : Store} (h : ∀ key, first.get? key = second.get? key)
    (operation : Operation) (key : String) :
    (apply operation first).2.get? key = (apply operation second).2.get? key := by
  by_cases hkey : operation.key = key
  · subst hkey
    rw [get?_apply_self, get?_apply_self, h]
  · rw [get?_apply_of_ne hkey, get?_apply_of_ne hkey, h]

end Store

/-! ## Runs -/

section

variable {operations : List Operation} {operation : Operation} {positions : Finset Nat}
  {store : Store}

/-- An operation that has no effect in a longer run has none in the shorter one. -/
theorem Idle.of_concat {i : Nat} (h : Idle (operations ++ [operation]) store i)
    (hi : i < operations.length) : Idle operations store i := by
  obtain ⟨idle, hidle, hkind⟩ := h
  have hlength : i < (store.run operations).1.length := by rwa [Store.length_run]
  rw [List.getElem?_append_left hi] at hidle
  rw [Store.run_concat, List.getElem?_append_left hlength] at hkind
  exact ⟨idle, hidle, hkind⟩

/-- If the last operation of a run has no effect, it leaves what is found under each key. -/
theorem Idle.get?_eq (h : Idle (operations ++ [operation]) store operations.length)
    (key : String) :
    (store.run (operations ++ [operation])).2.get? key = (store.run operations).2.get? key := by
  obtain ⟨idle, hidle, hkind⟩ := h
  rw [List.getElem?_concat_length] at hidle
  obtain rfl := Option.some.inj hidle
  have hlast : (store.run (operations ++ [operation])).1[operations.length]? =
      some (Store.apply operation (store.run operations).2).1 := by
    rw [Store.run_concat, ← Store.length_run operations store, List.getElem?_concat_length]
  rw [hlast, Option.some.injEq] at hkind
  rw [Store.run_concat]
  exact Store.get?_apply_of_idle hkind key

/-- A run without operations that have no effect answers the others as the run with them does, and
leaves the same under each key. -/
theorem Store.run_without (h : ∀ i ∈ positions, i < operations.length → Idle operations store i) :
    (store.run (without positions operations)).1 = without positions (store.run operations).1 ∧
      ∀ key, (store.run (without positions operations)).2.get? key =
        (store.run operations).2.get? key := by
  -- By induction on the last operation, so that the others keep their positions.
  induction operations using List.reverseRecOn with
  | nil => exact ⟨rfl, fun _ => rfl⟩
  | append_singleton operations operation ih =>
    have hlength : (operations ++ [operation]).length = operations.length + 1 :=
      List.length_append
    obtain ⟨hanswers, hget⟩ := ih fun i hi hlt => (h i hi (by omega)).of_concat hlt
    by_cases hmem : operations.length ∈ positions
    · -- The last operation is left out, and it has changed nothing in the full run.
      have hidle := h operations.length hmem (by omega)
      constructor
      · rw [without_concat, if_pos hmem, List.append_nil, hanswers, run_concat, without_concat,
          length_run, if_pos hmem, List.append_nil]
      · intro key
        rw [without_concat, if_pos hmem, List.append_nil, hget, hidle.get?_eq]
    · -- The last operation stays, and both runs come to it with the same under each key.
      constructor
      · rw [without_concat, if_neg hmem, run_concat, run_concat, without_concat, length_run,
          if_neg hmem, hanswers, apply_fst_congr hget]
      · intro key
        rw [without_concat, if_neg hmem, run_concat, run_concat]
        exact get?_apply_congr hget operation key

/-- If any reads of a run are left out, and any deletions that are answered as not found in the full
run, each of the other operations has the same answer as before, whatever the store holds at the
start. At the end the same is found under each key, and there are as many keys. Only the number of
operations applied is less, by as many as were left out. -/
theorem run_without_idle (h : ∀ i ∈ positions, Idle operations store i) :
    (store.run (without positions operations)).1 = without positions (store.run operations).1 ∧
    (∀ key, (store.run (without positions operations)).2.get? key =
      (store.run operations).2.get? key) ∧
    (store.run (without positions operations)).2.size = (store.run operations).2.size ∧
    (store.run (without positions operations)).2.applied + positions.card =
      (store.run operations).2.applied := by
  obtain ⟨hanswers, hget⟩ := Store.run_without fun i hi _ => h i hi
  have hpositions : ∀ i ∈ positions, i < operations.length := by
    intro i hi
    obtain ⟨operation, hoperation, -⟩ := h i hi
    exact (List.getElem?_eq_some_iff.mp hoperation).1
  have hlength := length_without_add_card hpositions
  refine ⟨hanswers, hget, (Store.size_eq_of_get?_eq hget).1, ?_⟩
  rw [Store.applied_run, Store.applied_run]
  omega

/-- A second deletion of a key and a read of it can be left out between two writes of it. -/
theorem run_without_second_deletion :
    (∀ i ∈ ({2, 3} : Finset Nat),
      Idle [.write "A" "x", .delete "A", .delete "A", .read "A", .write "A" "y"] Store.empty i) ∧
    without {2, 3} [Operation.write "A" "x", .delete "A", .delete "A", .read "A",
      .write "A" "y"] = [.write "A" "x", .delete "A", .write "A" "y"] ∧
    (Store.empty.run (without {2, 3} [.write "A" "x", .delete "A", .delete "A", .read "A",
      .write "A" "y"])).1 = [.success, .success, .success] := by
  have hanswers : (Store.empty.run
      [.write "A" "x", .delete "A", .delete "A", .read "A", .write "A" "y"]).1 =
      [.success, .success, .notFound, .notFound, .success] :=
    (Store.run_empty_fst_eq_mapIdx _).trans (by decide)
  have hidle : ∀ i ∈ ({2, 3} : Finset Nat),
      Idle [.write "A" "x", .delete "A", .delete "A", .read "A", .write "A" "y"] Store.empty i := by
    intro i hi
    rw [Finset.mem_insert, Finset.mem_singleton] at hi
    rcases hi with rfl | rfl
    · exact ⟨.delete "A", rfl, .inr ⟨rfl, by rw [hanswers]; rfl⟩⟩
    · exact ⟨.read "A", rfl, .inl rfl⟩
  refine ⟨hidle, by decide, ?_⟩
  rw [(run_without_idle hidle).1, hanswers]
  decide

end

end StoreTrial
