import StoreTrial.Proofs.Random.Indices
import StoreTrial.Proofs.Workload.SharedStart
import StoreTrial.Workload.Guarded

/-!
# Workloads made in words

A generator that checks each step in words makes a workload without a trap. `Balanced` is the
invariant that keeps the checks from failing: the counts add up to the number of operations made so
far, and these are no more than the workload has. One call preserves it (`Balanced.next`), and under
it a guarded call does what a call does (`Guarded.next_eq`). So no number of calls is trapped, and
neither is a look at the counts after them (`Guarded.no_call_trapped`). There are no checks of
memory, so all of this is about machines on which every text and every history finds room.
-/

namespace StoreTrial

namespace Word

/-- A sum that is a word. -/
theorem add_eq {m n : Nat} (h : m + n < UInt64.size) : add m n = .ok (m + n) := if_pos h

/-- A difference that is not below zero. -/
theorem sub_eq {m n : Nat} (h : n ≤ m) : sub m n = .ok (m - n) := if_pos h

end Word

namespace Workload

/-- The writes are among the operations. -/
theorem Stats.writes_le_total (stats : Stats) : stats.writes ≤ stats.total :=
  Nat.le_trans (Nat.le_add_left _ _) (Nat.le_add_right _ _)

/-- Each of the four counts is of some of the operations. -/
theorem Stats.counts_le_total (stats : Stats) :
    stats.reads ≤ stats.total ∧ stats.freshWrites ≤ stats.total ∧
      stats.reusedWrites ≤ stats.total ∧ stats.deletes ≤ stats.total := by
  unfold total writes
  omega

/-! ## The invariant -/

namespace Generator

variable {σ : Type}

/-- The counts of a generator add up to the operations made so far, which are no more than the
workload has. -/
structure Balanced (generator : Generator σ) : Prop where
  /-- Each operation made is counted once. -/
  counted : generator.stats.total = generator.emitted
  /-- The history has an entry for each write. -/
  kept : generator.history.size = generator.stats.writes
  /-- No more operations are made than the workload has. -/
  emitted_le : generator.emitted ≤ generator.total
  /-- The number of operations of the workload is a word. -/
  total_lt : generator.total < UInt64.size

/-- A new generator is balanced. -/
theorem balanced_ofSource (config : Config) (seed : UInt64) (source : σ) :
    Balanced (ofSource config seed source) :=
  ⟨rfl, rfl, Nat.zero_le _, config.requestCount.toNat_lt⟩

/-- While operations are to come, the counts of a balanced generator have room for one. -/
theorem Balanced.room {generator : Generator σ} (h : Balanced generator)
    (hlt : generator.emitted < generator.total) : generator.stats.total + 1 < UInt64.size := by
  rw [h.counted]
  exact Nat.lt_of_le_of_lt hlt h.total_lt

variable [Draws σ]

section

variable {generator rest : Generator σ} {operation : Operation}

/-- A call that makes an operation counts it once. -/
theorem Makes.total_stats_eq (h : Makes generator operation rest) :
    rest.stats.total = generator.stats.total + 1 := by
  -- Each way to make an operation adds one to another of the four counts.
  unfold Stats.total Stats.writes
  cases h <;> dsimp only <;> omega

/-- A call that makes an operation keeps it in the history exactly if it counts a write. -/
theorem Makes.size_history_add (h : Makes generator operation rest) :
    rest.history.size + generator.stats.writes = generator.history.size + rest.stats.writes := by
  unfold Stats.writes
  cases h with
  | freshWrite | reusedWrite =>
    rw [Array.size_push]
    dsimp only
    omega
  | read | delete => rfl

/-- A call that makes an operation keeps a generator balanced. -/
theorem Balanced.makes (h : Balanced generator) (hlt : generator.emitted < generator.total)
    (hmakes : Makes generator operation rest) : Balanced rest := by
  have hemitted := hmakes.emitted_eq
  have htotal := hmakes.total_eq
  refine ⟨?_, ?_, ?_, ?_⟩
  · rw [hmakes.total_stats_eq, hemitted, h.counted]
  · have hkept := hmakes.size_history_add
    rw [h.kept] at hkept
    omega
  · rw [hemitted, htotal]
    exact hlt
  · rw [htotal]
    exact h.total_lt

/-- A call keeps a generator balanced. -/
theorem Balanced.next (h : Balanced generator) : Balanced generator.next.rest := by
  rcases Nat.lt_or_ge generator.emitted generator.total with hlt | hge
  · obtain ⟨operation, rest, hnext, hmakes⟩ := next_of_lt hlt
    rw [hnext]
    exact h.makes hlt hmakes
  · rw [next_of_ge hge]
    exact h

/-- Any number of calls keeps a generator balanced. -/
theorem Balanced.after (h : Balanced generator) (count : Nat) :
    Balanced (generator.after count) := by
  induction count with
  | zero => exact h
  | succ count ih => exact ih.next

end

end Generator

/-! ## No check fails -/

namespace Guarded

/-- The writes are counted by a word if all operations are. -/
theorem writes_eq {stats : Stats} (h : stats.total < UInt64.size) :
    writes stats = .ok stats.writes :=
  Word.add_eq (Nat.lt_of_le_of_lt (Stats.writes_le_total stats) h)

/-- All operations are counted by a word if their number is one. -/
theorem total_eq {stats : Stats} (h : stats.total < UInt64.size) :
    total stats = .ok stats.total := by
  have hle : stats.reads + stats.writes ≤ stats.total := Nat.le_add_right _ _
  calc total stats
      = (Word.add stats.reads stats.writes >>= fun sum => Word.add sum stats.deletes) := by
        rw [total, writes_eq h]
        rfl
    _ = Word.add (stats.reads + stats.writes) stats.deletes := by
        rw [Word.add_eq (Nat.lt_of_le_of_lt hle h)]
        rfl
    _ = .ok stats.total := Word.add_eq h

/-- If all operations can be counted with one more, so can some of them. -/
theorem add_one_eq {stats : Stats} {part : Nat} (hle : part ≤ stats.total)
    (hroom : stats.total + 1 < UInt64.size) : Word.add part 1 = .ok (part + 1) :=
  Word.add_eq (Nat.lt_of_le_of_lt (Nat.add_le_add_right hle 1) hroom)

variable {σ : Type} {generator : Generator σ}

/-- The number of operations to come is not below zero. -/
theorem sizeHint_eq (h : generator.emitted ≤ generator.total) :
    sizeHint generator = .ok generator.sizeHint := by
  rw [sizeHint, Word.sub_eq h]
  rfl

/-- Nor is it when it is reported. -/
theorem events_eq (h : generator.emitted ≤ generator.total) :
    events generator = .ok generator.eventsOfCall := by
  unfold events Generator.eventsOfCall
  rw [Word.sub_eq h]
  split <;> rfl

variable [Draws σ]

/-- A fresh write is not trapped if there is room for it. -/
theorem freshWrite_eq (generator : Generator σ)
    (hroom : generator.stats.total + 1 < UInt64.size) :
    freshWrite generator = .ok generator.freshWrite := by
  obtain ⟨-, hle, -⟩ := generator.stats.counts_le_total
  unfold freshWrite
  rw [add_one_eq hle hroom]
  rfl

variable [IndexedByWord σ]

/-- A pick is trapped exactly if there is nothing to pick from: whatever word is drawn, its index is
below the number of entries. -/
theorem pick_eq (generator : Generator σ) :
    pick generator =
      if h : 0 < generator.history.size then .ok (generator.pick h) else .error .noMembers := by
  unfold pick Generator.pick
  by_cases h : 0 < generator.history.size
  · have hindex : highHalf (IndexedByWord.word generator.history.size generator.source).1
        generator.history.size < generator.history.size := highHalf_lt _ h
    rw [dif_pos h, IndexedByWord.index_eq]
    simp only [if_neg (Nat.ne_of_gt h), Array.getElem?_eq_getElem hindex]
    rfl
  · rw [dif_neg h]
    exact if_pos (Nat.eq_zero_of_not_pos h)

section

variable (generator) (h : 0 < generator.history.size)
  (hroom : generator.stats.total + 1 < UInt64.size)

include hroom

/-- A write that repeats a member of the history is not trapped if there is one and room for the
write. -/
theorem reusedWrite_eq : reusedWrite generator = .ok (generator.reusedWrite h) := by
  obtain ⟨-, -, hle, -⟩ := generator.stats.counts_le_total
  unfold reusedWrite
  rw [pick_eq, dif_pos h, add_one_eq hle hroom]
  rfl

/-- A read is not trapped if there is a key to read and room for the read. -/
theorem read_eq : read generator = .ok (generator.read h) := by
  obtain ⟨hle, -⟩ := generator.stats.counts_le_total
  unfold read
  rw [pick_eq, dif_pos h, add_one_eq hle hroom]
  rfl

/-- A deletion is not trapped if there is a key to delete and room for the deletion. -/
theorem delete_eq : delete generator = .ok (generator.delete h) := by
  obtain ⟨-, -, -, hle⟩ := generator.stats.counts_le_total
  unfold delete
  rw [pick_eq, dif_pos h, add_one_eq hle hroom]
  rfl

end

/-- A mixed operation picks from the history only if there is one, and is not trapped if there is
room for it. -/
theorem mixed_eq (hroom : generator.stats.total + 1 < UInt64.size) :
    mixed generator = .ok generator.mixed := by
  unfold mixed Generator.mixed
  by_cases h : 0 < generator.history.size
  · rw [if_neg (Nat.ne_of_gt h), dif_pos h]
    -- What is drawn changes the source only: the history and the counts are still the generator's.
    rcases Draws.kind generator.source with ⟨kind, source⟩
    cases kind with
    | read => exact read_eq { generator with source } h hroom
    | delete => exact delete_eq { generator with source } h hroom
    | write =>
      dsimp only
      rcases Draws.coin source with ⟨fresh, source'⟩
      cases fresh with
      | true => exact freshWrite_eq { generator with source := source' } hroom
      | false => exact reusedWrite_eq { generator with source := source' } h hroom
  · rw [if_pos (Nat.eq_zero_of_not_pos h), dif_neg h]
    exact freshWrite_eq generator hroom

/-- What a call makes is not trapped if there is room for it. -/
theorem choose_eq_ok (hroom : generator.stats.total + 1 < UInt64.size) :
    choose generator = .ok generator.choose := by
  unfold choose Generator.choose
  rw [freshWrite_eq generator hroom, mixed_eq hroom]
  exact (apply_ite _ _ _ _).symm

/-- A guarded call of a balanced generator does what a call does. -/
theorem next_eq (h : generator.Balanced) : next generator = .ok generator.next := by
  unfold next
  rcases Nat.lt_or_ge generator.emitted generator.total with hlt | hge
  · have hnext := Generator.next_eq_choose hlt
    -- The count of the next generator is a word because that generator is balanced as well.
    have hemitted : generator.choose.2.emitted + 1 < UInt64.size := by
      have hbalanced := h.next
      rw [hnext] at hbalanced
      exact Nat.lt_of_le_of_lt hbalanced.emitted_le hbalanced.total_lt
    rw [if_pos hlt, events_eq h.emitted_le, choose_eq_ok (h.room hlt), hnext]
    change (Word.add generator.choose.2.emitted 1 >>= _) = _
    rw [Word.add_eq hemitted]
    rfl
  · rw [if_neg (Nat.not_lt.mpr hge), Generator.next_of_ge hge]
    rfl

/-- Guarded calls of a balanced generator do what as many calls do. -/
theorem calls_eq (h : generator.Balanced) (count : Nat) :
    calls generator count = .ok (generator.made count, generator.after count) := by
  induction count with
  | zero => rfl
  | succ count ih =>
    unfold calls
    rw [ih]
    change (next (generator.after count) >>= _) = _
    rw [next_eq (h.after count)]
    rfl

/-- With memory taken for granted, a workload of any size is made in words without a trap, whatever
is drawn. No check asks whether texts and the history have room, which a text of `2 ^ 63` bytes or
more has on no machine. However many calls there are, each of them passes its checks and does what a
call without checks does: what it picks is from a history that is not empty, at an index that is in
range, and nothing that it adds or subtracts leaves the words. After them, the number of operations
to come, the number of all writes and the number of all operations made pass their checks as well.
The operations made are as many as the counts add up to, at least as many as the entries of the
history, and never more than the workload has; and that is the number that the configuration asks
for, which may be any word. -/
theorem no_call_trapped (config : Config) (seed : UInt64) (source : σ) (count : Nat) :
    let generator := Generator.ofSource config seed source
    let rest := generator.after count
    calls generator count = .ok (generator.made count, rest) ∧
    sizeHint rest = .ok rest.sizeHint ∧
    writes rest.stats = .ok rest.stats.writes ∧ total rest.stats = .ok rest.stats.total ∧
    rest.stats.total = rest.emitted ∧ rest.history.size ≤ rest.emitted ∧
    rest.emitted ≤ rest.total ∧ rest.total = config.requestCount.toNat ∧
    rest.total < UInt64.size := by
  intro generator rest
  have hstart : generator.Balanced := Generator.balanced_ofSource config seed source
  have hrest : rest.Balanced := hstart.after count
  have htotal : rest.stats.total < UInt64.size := by
    rw [hrest.counted]
    exact Nat.lt_of_le_of_lt hrest.emitted_le hrest.total_lt
  have hhistory : rest.history.size ≤ rest.emitted := by
    rw [hrest.kept, ← hrest.counted]
    exact Stats.writes_le_total rest.stats
  exact ⟨calls_eq hstart count, sizeHint_eq hrest.emitted_le, writes_eq htotal, total_eq htotal,
    hrest.counted, hhistory, hrest.emitted_le, Generator.total_after generator count,
    hrest.total_lt⟩

/-- Three calls for the largest workload that there is, with the choices of a keystream. -/
theorem no_call_trapped_of_largest_count :
    let generator :=
      Generator.ofSource ⟨18446744073709551615, 10, some 42⟩ 42 (Keystream.ofSeed 42)
    calls generator 3 = .ok (generator.made 3, generator.after 3) ∧
      sizeHint (generator.after 3) = .ok (18446744073709551612, some 18446744073709551612) := by
  intro generator
  obtain ⟨hcalls, hsizeHint, -⟩ :=
    no_call_trapped ⟨18446744073709551615, 10, some 42⟩ 42 (Keystream.ofSeed 42) 3
  refine ⟨hcalls, ?_⟩
  rw [hsizeHint, Generator.sizeHint, Generator.remaining_after (Nat.zero_le _)]
  rfl

end Guarded

end Workload

end StoreTrial
