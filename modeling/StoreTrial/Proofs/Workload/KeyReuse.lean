import StoreTrial.Proofs.Workload.Calls

/-!
# Keys of a workload come from its writes

What a generator picks from is its history, which nothing outside the generator can see. It is told
here by what can be seen: at any time the history of a workload is the list of the entries that its
operations have written so far (`history_after`). One call preserves this, since a write puts its
own entry at the end of the history and nothing else touches the history (`Makes.history_eq`). So
each read or deletion is of a key that was written before, and a write that counts as reused repeats
an earlier write as a whole (`history_eq_writes`).
-/

namespace StoreTrial

/-- The entry that an operation writes, if it is a write. -/
def Operation.written? : Operation → Option Workload.Entry
  | write key value => some ⟨key, value⟩
  | read _ | delete _ => none

/-- An operation writes an entry if it is the write of its key and value. -/
theorem Operation.written?_eq_some_iff {operation : Operation} {entry : Workload.Entry} :
    operation.written? = some entry ↔ operation = .write entry.key entry.value := by
  cases operation with
  | read key | delete key => simp [written?]
  | write key value =>
    rw [written?, Option.some.injEq, Operation.write.injEq]
    constructor
    · rintro rfl
      exact ⟨rfl, rfl⟩
    · rintro ⟨rfl, rfl⟩
      rfl

namespace Workload.Generator

variable {σ : Type} [Draws σ]

/-! ## One call -/

section

variable {generator rest : Generator σ} {operation : Operation}

/-- The entry of a write is put at the end of the history, and other operations leave it alone. -/
theorem Makes.history_eq (h : Makes generator operation rest) :
    rest.history.toList = generator.history.toList ++ operation.written?.toList := by
  cases h with
  | freshWrite key value source hkey hvalue => exact Array.toList_push
  | reusedWrite entry source hseeded hentry => exact Array.toList_push
  | read entry source hseeded hentry => exact (List.append_nil _).symm
  | delete entry source hseeded hentry => exact (List.append_nil _).symm

/-- An operation that is not a write is of a key of the history. -/
theorem Makes.exists_key_eq (h : Makes generator operation rest)
    (hnone : operation.written? = none) :
    ∃ entry ∈ generator.history, entry.key = operation.key := by
  cases h with
  | freshWrite key value source hkey hvalue => contradiction
  | reusedWrite entry source hseeded hentry => contradiction
  | read entry source hseeded hentry => exact ⟨entry, hentry, rfl⟩
  | delete entry source hseeded hentry => exact ⟨entry, hentry, rfl⟩

/-- An operation that counts as a reused write is counted once, and writes an entry of the
history. -/
theorem Makes.reused (h : Makes generator operation rest)
    (hne : rest.stats.reusedWrites ≠ generator.stats.reusedWrites) :
    rest.stats.reusedWrites = generator.stats.reusedWrites + 1 ∧
      ∃ entry ∈ generator.history, operation = .write entry.key entry.value := by
  cases h with
  | freshWrite key value source hkey hvalue => exact absurd rfl hne
  | reusedWrite entry source hseeded hentry => exact ⟨rfl, entry, hentry, rfl⟩
  | read entry source hseeded hentry => exact absurd rfl hne
  | delete entry source hseeded hentry => exact absurd rfl hne

end

/-! ## Any number of calls -/

/-- The history grows by the entries that the operations write, in order. -/
theorem history_after (generator : Generator σ) (count : Nat) :
    (generator.after count).history.toList =
      generator.history.toList ++ (generator.made count).filterMap Operation.written? := by
  refine after_induction (P := fun rest made => rest.history.toList =
    generator.history.toList ++ made.filterMap Operation.written?) ?_ ?_ count
  · exact (List.append_nil _).symm
  · intro before made operation rest hbefore hmakes
    rw [hmakes.history_eq, hbefore, List.filterMap_append, List.append_assoc]
    cases hentry : operation.written? <;> simp [hentry]

/-- An entry of the history of a workload was written by one of its operations so far. -/
theorem exists_write_of_mem_history {generator : Generator σ} (hempty : generator.history = #[])
    {count i : Nat} (hi : i ≤ count) {entry : Entry}
    (hentry : entry ∈ (generator.after i).history) :
    ∃ j < i, (generator.made count)[j]? = some (.write entry.key entry.value) := by
  rw [← Array.mem_toList_iff, history_after, hempty, Array.toList_empty, List.nil_append] at hentry
  obtain ⟨operation, hmade, hwrites⟩ := List.mem_filterMap.mp hentry
  rw [Operation.written?_eq_some_iff] at hwrites
  obtain ⟨j, hj⟩ := List.mem_iff_getElem?.mp hmade
  have hlt : j < i := (makes_of_getElem?_made hj).1
  refine ⟨j, hlt, ?_⟩
  rw [getElem?_made, if_pos hlt] at hj
  rw [getElem?_made, if_pos (Nat.lt_of_lt_of_le hlt hi), hj, hwrites]

/-- An operation of a workload that is not a write is of the key of an earlier write. -/
theorem exists_write_key {generator : Generator σ} (hempty : generator.history = #[])
    {count i : Nat} {operation : Operation} (hmade : (generator.made count)[i]? = some operation)
    (hnone : operation.written? = none) :
    ∃ j < i, ∃ value, (generator.made count)[j]? = some (.write operation.key value) := by
  obtain ⟨hi, hmakes⟩ := makes_of_getElem?_made hmade
  obtain ⟨entry, hentry, hkey⟩ := hmakes.exists_key_eq hnone
  -- The entry is in the history as it was before call `i`, so its write came earlier.
  obtain ⟨j, hj, hwrite⟩ := exists_write_of_mem_history hempty (Nat.le_of_lt hi) hentry
  exact ⟨j, hj, entry.value, hkey ▸ hwrite⟩

/-- A call that counts a reused write counts one, and makes a write that repeats an earlier one. -/
theorem exists_write_of_reused {generator : Generator σ} (hempty : generator.history = #[])
    {count i : Nat} (hi : i < count)
    (hreused : (generator.after (i + 1)).stats.reusedWrites ≠
      (generator.after i).stats.reusedWrites) :
    (generator.after (i + 1)).stats.reusedWrites =
        (generator.after i).stats.reusedWrites + 1 ∧
      ∃ key value, (generator.made count)[i]? = some (.write key value) ∧
        ∃ j < i, (generator.made count)[j]? = some (.write key value) := by
  cases hoperation : (generator.after i).next.operation? with
  | none =>
    rw [after, rest_of_operation?_eq_none hoperation] at hreused
    contradiction
  | some operation =>
    obtain ⟨honce, entry, hentry, rfl⟩ := (makes_of_operation?_eq_some hoperation).reused hreused
    have hmade : (generator.made count)[i]? = some (.write entry.key entry.value) := by
      rw [getElem?_made, if_pos hi, hoperation]
    exact ⟨honce, _, _, hmade, exists_write_of_mem_history hempty (Nat.le_of_lt hi) hentry⟩

/-- After any number of calls, and whatever is drawn, the history of a workload is the list of the
entries that its operations have written so far, in order and with repetitions. So each read or
deletion is of the key of an earlier write, each operation that counts as a reused write is counted
once and repeats the key and the value of an earlier write, and a deletion leaves the history as it
is. -/
theorem history_eq_writes (config : Config) (seed : UInt64) (source : σ) (count : Nat) :
    let generator := ofSource config seed source
    (generator.after count).history.toList =
        (generator.made count).filterMap Operation.written? ∧
    (∀ (i : Nat) key, (generator.made count)[i]? = some (.read key) ∨
        (generator.made count)[i]? = some (.delete key) →
      ∃ j < i, ∃ value, (generator.made count)[j]? = some (.write key value)) ∧
    (∀ i < count, (generator.after (i + 1)).stats.reusedWrites ≠
        (generator.after i).stats.reusedWrites →
      (generator.after (i + 1)).stats.reusedWrites =
        (generator.after i).stats.reusedWrites + 1 ∧
      ∃ key value, (generator.made count)[i]? = some (.write key value) ∧
        ∃ j < i, (generator.made count)[j]? = some (.write key value)) ∧
    (∀ (i : Nat) key, (generator.made count)[i]? = some (.delete key) →
      (generator.after (i + 1)).history = (generator.after i).history) := by
  intro generator
  have hempty : generator.history = #[] := rfl
  refine ⟨?_, ?_, ?_, ?_⟩
  · rw [history_after, hempty, Array.toList_empty, List.nil_append]
  · intro i key hmade
    rcases hmade with hread | hdelete
    · exact exists_write_key hempty hread rfl
    · exact exists_write_key hempty hdelete rfl
  · intro i hi hreused
    exact exists_write_of_reused hempty hi hreused
  · intro i key hdelete
    have hhistory := (makes_of_getElem?_made hdelete).2.history_eq
    exact Array.toList_inj.mp (hhistory.trans (List.append_nil _))

end Workload.Generator

end StoreTrial
