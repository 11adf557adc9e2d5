import StoreTrial.Proofs.Store.Lookup

/-!
# Answers that are pulled

A store can answer operations as its answers are asked for, a few at a time. What is pulled first
and what is pulled later are the parts of one run: a run of operations is a run of the first of them
and then one of the others (`run_append`), and a pull is a run of as many operations as it asks for
(`pull_eq`). `pulls` is several pulls in a row, whatever they pull from; where pulls add up, it
depends only on how much is pulled in all (`pulls_eq`).
-/

namespace StoreTrial

/-! ## Several pulls -/

section

variable {α ι : Type}

/-- What several pulls give, one after the other, each of as many as its count. -/
def pulls (pull : Nat → ι → List α × ι) (counts : List Nat) (source : ι) : List α × ι :=
  match counts with
  | [] => ([], source)
  | count :: counts =>
    let (first, source) := pull count source
    let (others, source) := pulls pull counts source
    (first ++ others, source)

/-- How much several pulls ask for in all. -/
def demand (counts : List Nat) : Nat := counts.foldr (· + ·) 0

/-- Several pulls give what one pull gives of as many in all, if that holds of two pulls and of
none. -/
theorem pulls_eq {pull : Nat → ι → List α × ι} (hzero : ∀ source, pull 0 source = ([], source))
    (hadd : ∀ m n source, pull (m + n) source =
      ((pull m source).1 ++ (pull n (pull m source).2).1, (pull n (pull m source).2).2))
    (counts : List Nat) (source : ι) : pulls pull counts source = pull (demand counts) source := by
  induction counts generalizing source with
  | nil => exact (hzero source).symm
  | cons count counts ih => simp only [pulls, demand, List.foldr_cons, hadd, ih]

end

namespace Store

/-! ## Runs in parts -/

/-- The answers to the first operations are the first answers to all. -/
theorem run_take_fst (operations : List Operation) (count : Nat) (store : Store) :
    (run (operations.take count) store).1 = (run operations store).1.take count := by
  induction operations generalizing count store with
  | nil => simp
  | cons operation operations ih =>
    cases count with
    | zero => rfl
    | succ count => simp only [List.take_succ_cons, run_cons, ih]

/-- Each operation is counted, whatever its answer is. -/
theorem applied_apply (operation : Operation) (store : Store) :
    (apply operation store).2.applied = store.applied + 1 := by
  cases operation with
  | read key =>
    rw [apply_read]
  | write key value => rfl
  | delete key =>
    cases hkey : store.get? key with
    | none => rw [apply_delete_of_absent hkey]
    | some value => rw [apply_delete_of_found hkey]

/-- A run counts each of its operations. -/
theorem applied_run (operations : List Operation) (store : Store) :
    (run operations store).2.applied = store.applied + operations.length := by
  induction operations generalizing store with
  | nil => rfl
  | cons operation operations ih =>
    rw [run_cons, ih, applied_apply, List.length_cons]
    omega

/-! ## Pulls -/

/-- The answers so far and the store after one more operation. -/
def answerNext (answered : List Outcome × Store) (operation : Operation) : List Outcome × Store :=
  let (outcome, store) := answered.2.apply operation
  (answered.1 ++ [outcome], store)

/-- Operations that are answered one by one are answered as in a run. -/
theorem foldl_answerNext (operations : List Operation) (outcomes : List Outcome) (store : Store) :
    operations.foldl answerNext (outcomes, store) =
      (outcomes ++ (run operations store).1, (run operations store).2) := by
  induction operations generalizing outcomes store with
  | nil => rw [List.foldl_nil, run_nil, List.append_nil]
  | cons operation operations ih =>
    rw [List.foldl_cons, answerNext, ih, run_cons, List.append_assoc, List.singleton_append]

/-- A pull is a run of the operations that it answers. -/
theorem pull_eq (count : Nat) (operations : List Operation) (store : Store) :
    pull count operations store =
      ((run (operations.take count) store).1, operations.drop count,
        (run (operations.take count) store).2) := by
  induction count generalizing operations store with
  | zero => rfl
  | succ count ih =>
    cases operations with
    | nil => rfl
    | cons operation operations =>
      simp only [pull, ih, List.take_succ_cons, List.drop_succ_cons, run_cons]

/-- Two pulls are one pull of as many. -/
theorem pull_add (m n : Nat) (waiting : List Operation × Store) :
    pull (m + n) waiting.1 waiting.2 =
      ((pull m waiting.1 waiting.2).1 ++
        (pull n (pull m waiting.1 waiting.2).2.1 (pull m waiting.1 waiting.2).2.2).1,
        (pull n (pull m waiting.1 waiting.2).2.1 (pull m waiting.1 waiting.2).2.2).2) := by
  simp only [pull_eq, List.take_add, run_append, List.drop_drop]

/-- Operations that are pulled from, however the pulls are split, and then answered one by one are
answered as in one run. -/
theorem pulls_pull_eq (counts : List Nat) (operations : List Operation) (store : Store) :
    pulls (fun count waiting => pull count waiting.1 waiting.2) counts (operations, store) =
      ((run operations store).1.take (demand counts), operations.drop (demand counts),
        (run (operations.take (demand counts)) store).2) := by
  rw [pulls_eq (fun _ => rfl) pull_add, pull_eq, run_take_fst]

end Store

end StoreTrial
