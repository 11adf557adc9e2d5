import StoreTrial.Proofs.Store.Pulls
import StoreTrial.Proofs.Workload.Progress
import StoreTrial.Workload.Pipeline

/-!
# A pipeline answers as a replay does

A pipeline makes an operation and answers it each time that an outcome is asked for. However many
outcomes are asked for, and however the asking is split, the operations are those of as many calls
of the generator, and the outcomes are those of a run of them (`outcomes_take`, `rest_take`). So a
pipeline is at any time a replay of the start of the workload (`pulls_eq_replay`), as operations
that are pulled from a list are at any time answered as the start of the list.
-/

namespace StoreTrial.Workload.Pipeline

section

variable {σ : Type} [Draws σ]

/-- Answers are extended by those to what their number of calls makes. -/
theorem extend_eq (answers : Answers σ) (count : Nat) :
    (extend answers count).outcomes.toList = answers.outcomes.toList ++
        (answers.rest.store.run (answers.rest.generator.made count)).1 ∧
      (extend answers count).rest = ⟨answers.rest.generator.after count,
        (answers.rest.store.run (answers.rest.generator.made count)).2⟩ := by
  induction count generalizing answers with
  | zero => exact ⟨(List.append_nil _).symm, rfl⟩
  | succ count ih =>
    obtain ⟨outcomes, events, generator, store⟩ := answers
    rcases Nat.lt_or_ge generator.emitted generator.total with hlt | hge
    · -- The operation is answered before the next one is made.
      obtain ⟨operation, rest, hnext, -⟩ := Generator.next_of_lt hlt
      obtain ⟨hmade, hafter⟩ := Generator.made_after_succ hnext count
      simp only [extend, hnext, ih, hmade, hafter, Store.run_cons, Array.toList_push,
        List.append_assoc, List.singleton_append]
      exact ⟨trivial, trivial⟩
    · obtain ⟨hmade, hafter⟩ := Generator.made_after_of_ge hge (count + 1)
      simp only [extend, Generator.next_of_ge hge, hmade, hafter, Store.run_nil, List.append_nil]
      exact ⟨trivial, trivial⟩

/-- The outcomes of a pipeline are those of a run of what its generator makes. -/
theorem outcomes_take (pipeline : Pipeline σ) (count : Nat) :
    (pipeline.take count).outcomes.toList =
      (pipeline.store.run (pipeline.generator.made count)).1 :=
  (extend_eq ⟨#[], [], pipeline⟩ count).1

/-- A pipeline goes on with its generator after as many calls, and its store after their run. -/
theorem rest_take (pipeline : Pipeline σ) (count : Nat) :
    (pipeline.take count).rest = ⟨pipeline.generator.after count,
      (pipeline.store.run (pipeline.generator.made count)).2⟩ :=
  (extend_eq ⟨#[], [], pipeline⟩ count).2

/-- Outcomes that are pulled from a pipeline. -/
def pull (count : Nat) (pipeline : Pipeline σ) : List Outcome × Pipeline σ :=
  ((pipeline.take count).outcomes.toList, (pipeline.take count).rest)

/-- Two pulls are one pull of as many. -/
theorem pull_add (m n : Nat) (pipeline : Pipeline σ) :
    pull (m + n) pipeline =
      ((pull m pipeline).1 ++ (pull n (pull m pipeline).2).1, (pull n (pull m pipeline).2).2) := by
  simp only [pull, outcomes_take, rest_take, Generator.made_add, Generator.after_add,
    Store.run_append]

/-- What is pulled from a pipeline depends only on how much is pulled in all. -/
theorem pulls_pull_eq (counts : List Nat) (pipeline : Pipeline σ) :
    pulls pull counts pipeline =
      ((pipeline.store.run (pipeline.generator.made (demand counts))).1,
        ⟨pipeline.generator.after (demand counts),
          (pipeline.store.run (pipeline.generator.made (demand counts))).2⟩) := by
  rw [pulls_eq (fun _ => rfl) pull_add, pull, outcomes_take, rest_take]

end

/-- A generator that feeds a new store yields, however its outcomes are pulled, the outcomes of a
replay of the workload that is generated at once, as far as they are pulled, and the store is then
that of a run of exactly the operations that are answered. The same holds of any list of operations
and any store: what is pulled is the start of the outcomes of one run, the store is that of a run of
the operations answered, and answering the others one by one completes the run. -/
theorem pulls_eq_replay (config : Config) {seed : UInt64} (hlength : config.length ≠ 0)
    (hseed : config.seed = some seed) (entropy entropy' : UInt64) (counts : List Nat) :
    (∃ generator workload, Generator.ofConfig config entropy = .ok generator ∧
      (generate config entropy').run.value = .ok workload ∧
      workload.operations.length = config.requestCount.toNat ∧
      let pulled := pulls pull counts ⟨generator, Store.empty⟩
      let answered := min (demand counts) config.requestCount.toNat
      pulled.1 = (replay workload.operations).value.take answered ∧
      pulled.2.store = (Store.empty.run (workload.operations.take answered)).2 ∧
      pulled.2.store.applied = answered) ∧
    ∀ (operations : List Operation) (store : Store),
      let pulled := pulls (fun count waiting => Store.pull count waiting.1 waiting.2) counts
        (operations, store)
      pulled.1 = (store.run operations).1.take (demand counts) ∧
      pulled.2.2 = (store.run (operations.take (demand counts))).2 ∧
      pulled.2.1.foldl Store.answerNext (pulled.1, pulled.2.2) = store.run operations := by
  constructor
  · obtain ⟨hconfig, -⟩ := generate_eq hlength hseed entropy
    obtain ⟨-, hworkload⟩ := generate_eq hlength hseed entropy'
    let generator := Generator.ofSource config seed (Keystream.ofSeed seed)
    have hstart : generator.emitted ≤ generator.total := Nat.zero_le _
    have hall : (generator.made config.requestCount.toNat).length = config.requestCount.toNat :=
      (Generator.length_made hstart _).trans (Nat.min_self _)
    have hmade : generator.made (demand counts) = (generator.made config.requestCount.toNat).take
        (min (demand counts) config.requestCount.toNat) :=
      Generator.made_eq_take hstart (demand counts)
    refine ⟨generator, _, hconfig, hworkload, hall, ?_⟩
    rw [pulls_pull_eq, hmade]
    refine ⟨Store.run_take_fst _ _ _, rfl, ?_⟩
    rw [Store.applied_run, List.length_take, hall]
    exact (Nat.zero_add _).trans (by omega)
  · intro operations store
    rw [Store.pulls_pull_eq]
    refine ⟨rfl, rfl, ?_⟩
    rw [Store.foldl_answerNext, ← Store.run_take_fst]
    exact (Store.run_append _ _ _).symm.trans (by rw [List.take_append_drop])

/-- From a workload of seven operations, two outcomes, none and three more are the first five. -/
theorem pulls_two_none_three :
    (⟨7, 10, some 42⟩ : Config).length ≠ 0 ∧ (⟨7, 10, some 42⟩ : Config).seed = some 42 ∧
    ∃ generator workload, Generator.ofConfig ⟨7, 10, some 42⟩ 0 = .ok generator ∧
      (generate ⟨7, 10, some 42⟩ 1).run.value = .ok workload ∧
      let pulled := pulls pull [2, 0, 3] ⟨generator, Store.empty⟩
      pulled.1 = (replay workload.operations).value.take 5 ∧
      pulled.2.store = (Store.empty.run (workload.operations.take 5)).2 := by
  obtain ⟨⟨generator, workload, hconfig, hworkload, -, houtcomes, hstore, -⟩, -⟩ :=
    pulls_eq_replay ⟨7, 10, some 42⟩ (by decide) rfl 0 1 [2, 0, 3]
  exact ⟨by decide, rfl, generator, workload, hconfig, hworkload, houtcomes, hstore⟩

end StoreTrial.Workload.Pipeline
