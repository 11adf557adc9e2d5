import StoreTrial.Proofs.Workload.Calls
import StoreTrial.Workload

/-!
# How far a generator has come

Each call makes one operation until there are as many as the workload has, and from then on none
(`emitted_after`, `length_made`). Calls can be split in any way: what some calls make and then some
more is what all of them make (`made_add`). A batch is what its number of calls makes
(`operations_take`), so a whole workload is what a call for each operation makes, and fewer calls
make the start of it (`made_eq_take`).
-/

namespace StoreTrial.Workload.Generator

variable {σ : Type} [Draws σ]

/-! ## One call -/

section

variable {generator rest : Generator σ} {operation : Operation}

/-- A call that makes an operation counts it. -/
theorem Makes.emitted_eq (h : Makes generator operation rest) :
    rest.emitted = generator.emitted + 1 := by
  cases h <;> rfl

/-- A call leaves the number of all operations as it is. -/
theorem Makes.total_eq (h : Makes generator operation rest) : rest.total = generator.total := by
  cases h <;> rfl

end

/-- A call makes nothing exactly at the end of the workload. -/
theorem operation?_eq_none_iff {generator : Generator σ} :
    generator.next.operation? = none ↔ generator.total ≤ generator.emitted := by
  constructor
  · intro hnone
    refine Nat.le_of_not_lt fun hlt => ?_
    obtain ⟨operation, rest, hnext, -⟩ := next_of_lt hlt
    rw [hnext] at hnone
    contradiction
  · intro hge
    rw [next_of_ge hge]

/-! ## Any number of calls -/

/-- Calls can be split: the later ones start where the earlier ones ended. -/
theorem after_add (generator : Generator σ) (m n : Nat) :
    generator.after (m + n) = (generator.after m).after n := by
  induction n with
  | zero => rfl
  | succ n ih => rw [← Nat.add_assoc, after, ih, after]

/-- The later calls make what they would make on their own. -/
theorem made_add (generator : Generator σ) (m n : Nat) :
    generator.made (m + n) = generator.made m ++ (generator.after m).made n := by
  induction n with
  | zero => exact (List.append_nil _).symm
  | succ n ih => rw [← Nat.add_assoc, made, ih, after_add, List.append_assoc, made]

/-- Calls leave the number of all operations as it is. -/
theorem total_after (generator : Generator σ) (count : Nat) :
    (generator.after count).total = generator.total :=
  after_induction (P := fun rest _ => rest.total = generator.total) rfl
    (fun _ _ _ _ htotal hmakes => hmakes.total_eq.trans htotal) count

/-- Each call counts one operation until all are counted. -/
theorem emitted_after {generator : Generator σ} (h : generator.emitted ≤ generator.total)
    (count : Nat) :
    (generator.after count).emitted = min generator.total (generator.emitted + count) := by
  induction count with
  | zero => exact (Nat.min_eq_right h).symm
  | succ count ih =>
    rw [after]
    have htotal := total_after generator count
    cases hoperation : (generator.after count).next.operation? with
    | none =>
      have hend := operation?_eq_none_iff.mp hoperation
      rw [rest_of_operation?_eq_none hoperation]
      omega
    | some operation =>
      have hlt : ¬ (generator.after count).total ≤ (generator.after count).emitted := by
        rw [← operation?_eq_none_iff, hoperation]
        exact Option.some_ne_none operation
      rw [(makes_of_operation?_eq_some hoperation).emitted_eq]
      omega

/-- What remains after some calls is what remained before, less one for each call. -/
theorem remaining_after {generator : Generator σ} (h : generator.emitted ≤ generator.total)
    (count : Nat) : (generator.after count).remaining = generator.remaining - count := by
  unfold remaining
  rw [total_after, emitted_after h]
  omega

/-- The call of a number makes nothing exactly if no more operations remained at the start. -/
theorem operation?_after_eq_none_iff {generator : Generator σ}
    (h : generator.emitted ≤ generator.total) {count : Nat} :
    (generator.after count).next.operation? = none ↔ generator.remaining ≤ count := by
  rw [operation?_eq_none_iff, total_after, emitted_after h, remaining]
  omega

/-- Calls make one operation each, until none remains. -/
theorem length_made {generator : Generator σ} (h : generator.emitted ≤ generator.total)
    (count : Nat) : (generator.made count).length = min count generator.remaining := by
  induction count with
  | zero => exact (Nat.zero_min _).symm
  | succ count ih =>
    rw [made, List.length_append, ih]
    cases hoperation : (generator.after count).next.operation? with
    | none =>
      have hend := (operation?_after_eq_none_iff h).mp hoperation
      rw [Option.toList_none, List.length_nil]
      omega
    | some operation =>
      have hlt : ¬ generator.remaining ≤ count := by
        rw [← operation?_after_eq_none_iff h, hoperation]
        exact Option.some_ne_none operation
      rw [Option.toList_some, List.length_singleton]
      omega

/-- Any number of calls makes the start of what all the calls make that are needed. -/
theorem made_eq_take {generator : Generator σ} (h : generator.emitted ≤ generator.total)
    (count : Nat) : generator.made count =
      (generator.made generator.remaining).take (min count generator.remaining) := by
  apply List.ext_getElem?
  intro i
  rw [List.getElem?_take, getElem?_made, getElem?_made]
  rcases Nat.lt_or_ge i generator.remaining with hlt | hge
  · -- Here the limits on both sides are the same.
    have hmin : i < min count generator.remaining ↔ i < count := by omega
    simp only [if_pos hlt, hmin]
  · have hnone : (generator.after i).next.operation? = none :=
      (operation?_after_eq_none_iff h).mpr hge
    rw [hnone, ite_self, ite_self, ite_self]

/-- At the end of the workload, no number of calls makes or changes anything. -/
theorem made_after_of_ge {generator : Generator σ} (h : generator.total ≤ generator.emitted)
    (count : Nat) : generator.made count = [] ∧ generator.after count = generator := by
  induction count with
  | zero => exact ⟨rfl, rfl⟩
  | succ count ih =>
    obtain ⟨hmade, hafter⟩ := ih
    rw [made, after, hmade, hafter, next_of_ge h]
    exact ⟨rfl, rfl⟩

/-- A call that makes an operation comes before those that follow it. -/
theorem made_after_succ {generator rest : Generator σ} {operation : Operation} {events : List Event}
    (hnext : generator.next = ⟨some operation, events, rest⟩) (count : Nat) :
    generator.made (count + 1) = operation :: rest.made count ∧
      generator.after (count + 1) = rest.after count := by
  have hmade : generator.made 1 = [operation] := by
    rw [made, made, after, hnext]
    rfl
  have hafter : generator.after 1 = rest := by
    rw [after, after, hnext]
  rw [Nat.add_comm count 1, made_add, after_add, hmade, hafter]
  exact ⟨rfl, rfl⟩

/-! ## Batches -/

/-- A batch is extended by what its number of calls makes. -/
theorem extend_eq (batch : Batch σ) (count : Nat) :
    (extend batch count).operations.toList = batch.operations.toList ++ batch.rest.made count ∧
      (extend batch count).rest = batch.rest.after count := by
  induction count generalizing batch with
  | zero => exact ⟨(List.append_nil _).symm, rfl⟩
  | succ count ih =>
    obtain ⟨operations, events, generator⟩ := batch
    rcases Nat.lt_or_ge generator.emitted generator.total with hlt | hge
    · obtain ⟨operation, rest, hnext, -⟩ := next_of_lt hlt
      obtain ⟨hmade, hafter⟩ := made_after_succ hnext count
      simp only [extend, hnext, ih, hmade, hafter, Array.toList_push, List.append_assoc,
        List.singleton_append]
      exact ⟨trivial, trivial⟩
    · obtain ⟨hmade, hafter⟩ := made_after_of_ge hge (count + 1)
      simp only [extend, next_of_ge hge, hmade, hafter, List.append_nil]
      exact ⟨trivial, trivial⟩

/-- A batch holds what its number of calls makes. -/
theorem operations_take (generator : Generator σ) (count : Nat) :
    (generator.take count).operations.toList = generator.made count :=
  (extend_eq ⟨#[], [], generator⟩ count).1

/-- A batch leaves the generator as its number of calls does. -/
theorem rest_take (generator : Generator σ) (count : Nat) :
    (generator.take count).rest = generator.after count :=
  (extend_eq ⟨#[], [], generator⟩ count).2

end Generator

/-! ## Whole workloads -/

/-- The workload of a valid configuration is made by the generator with its seed, or with the seed
that nobody chose if it fixes none, with one call for each operation. -/
theorem generate_eq_getD {config : Config} (hlength : config.length ≠ 0) (entropy : UInt64) :
    let seed := config.seed.getD entropy
    let generator := Generator.ofSource config seed (Keystream.ofSeed seed)
    Generator.ofConfig config entropy = .ok generator ∧
      (generate config entropy).run.value = .ok
        ⟨seed, generator.made config.requestCount.toNat,
          (generator.after config.requestCount.toNat).stats⟩ := by
  intro seed generator
  have hconfig : Generator.ofConfig config entropy = .ok generator := by
    have hvalid : config.validate = .ok config := Config.validate_eq_ok_iff.mpr ⟨hlength, rfl⟩
    simp only [Generator.ofConfig, hvalid, bind, Except.bind]
    rfl
  have hcollect : (collect generator).value = ⟨seed, generator.made config.requestCount.toNat,
      (generator.after config.requestCount.toNat).stats⟩ := by
    simp only [collect, Generator.operations_take, Generator.rest_take]
    rfl
  refine ⟨hconfig, ?_⟩
  unfold generate
  rw [hconfig, ← hcollect]
  rfl

/-- The workload of a configuration with a seed is made by the generator with that seed, with one
call for each operation. -/
theorem generate_eq {config : Config} {seed : UInt64} (hlength : config.length ≠ 0)
    (hseed : config.seed = some seed) (entropy : UInt64) :
    let generator := Generator.ofSource config seed (Keystream.ofSeed seed)
    Generator.ofConfig config entropy = .ok generator ∧
      (generate config entropy).run.value = .ok
        ⟨seed, generator.made config.requestCount.toNat,
          (generator.after config.requestCount.toNat).stats⟩ := by
  have hchosen : config.seed.getD entropy = seed := by rw [hseed, Option.getD_some]
  have hgenerate := generate_eq_getD hlength entropy
  rwa [hchosen] at hgenerate

/-- A workload has as many operations as its configuration asks for. -/
theorem length_operations_of_generate {config : Config} {entropy : UInt64} {workload : Workload}
    (hlength : config.length ≠ 0) (h : (generate config entropy).run.value = .ok workload) :
    workload.operations.length = config.requestCount.toNat := by
  have hall : ∀ seed, ((Generator.ofSource config seed (Keystream.ofSeed seed)).made
      config.requestCount.toNat).length = config.requestCount.toNat :=
    fun seed => (Generator.length_made (Nat.zero_le _) _).trans (Nat.min_self _)
  rw [(generate_eq_getD hlength entropy).2] at h
  obtain rfl := Except.ok.inj h
  exact hall _

end StoreTrial.Workload
