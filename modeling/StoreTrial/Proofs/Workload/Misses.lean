import StoreTrial.Proofs.Store.Misses
import StoreTrial.Proofs.Workload.KeyReuse
import StoreTrial.Proofs.Workload.Progress

/-!
# Misses of a workload

A generator takes the keys of its reads and deletions from what it has written, so a workload never
asks for a key that was not written before (`written_of_made`). What its replay does not find must
then have been deleted: `generated_miss_iff_removed` names the misses of a workload exactly, as the
reads and deletions of a key that an earlier deletion took away and that was not written since.
-/

namespace StoreTrial.Workload

/-- Calls of a generator with no history make reads and deletions only of keys that were written
before. -/
theorem written_of_made {σ : Type} [Draws σ] {generator : Generator σ}
    (hempty : generator.history = #[]) {count i : Nat} {key : String}
    (hasks : (generator.made count)[i]? = some (.read key) ∨
      (generator.made count)[i]? = some (.delete key)) : Written (generator.made count) key i := by
  rcases hasks with hread | hdelete
  · exact Generator.exists_write_key hempty hread rfl
  · exact Generator.exists_write_key hempty hdelete rfl

/-- In the replay of a workload, whatever its valid configuration and its seed, each miss goes back
to a deletion. An operation is not found exactly if it is a read or a deletion of a key for which an
earlier deletion succeeded, and which was not written after that deletion. No operation misses
because its key was never written: every read and every deletion is of a key that was. -/
theorem generated_miss_iff_removed (config : Config) (hlength : config.length ≠ 0)
    (entropy : UInt64) :
    ∃ workload, (generate config entropy).run.value = .ok workload ∧
      (∀ i : Nat, (replay workload.operations).value[i]? = some .notFound ↔
        ∃ key, (workload.operations[i]? = some (.read key) ∨
            workload.operations[i]? = some (.delete key)) ∧
          Removed workload.operations key i) ∧
      ∀ (i : Nat) key, workload.operations[i]? = some (.read key) ∨
          workload.operations[i]? = some (.delete key) →
        Written workload.operations key i := by
  obtain ⟨-, hgenerate⟩ := generate_eq_getD hlength entropy
  refine ⟨_, hgenerate, ?_, ?_⟩
  · exact missed_iff_removed fun i key hasks => written_of_made rfl hasks
  · exact fun i key hasks => written_of_made rfl hasks

/-- The misses among forty operations on keys of one character go back to deletions. -/
theorem miss_iff_removed_of_one_character :
    (⟨40, 1, some 3⟩ : Config).length ≠ 0 ∧
    ∃ workload, (generate ⟨40, 1, some 3⟩ 0).run.value = .ok workload ∧
      ∀ i : Nat, (replay workload.operations).value[i]? = some .notFound ↔
        ∃ key, (workload.operations[i]? = some (.read key) ∨
            workload.operations[i]? = some (.delete key)) ∧
          Removed workload.operations key i := by
  have hlength : (⟨40, 1, some 3⟩ : Config).length ≠ 0 := by decide
  obtain ⟨workload, hgenerate, hmisses, -⟩ :=
    generated_miss_iff_removed ⟨40, 1, some 3⟩ hlength 0
  exact ⟨hlength, workload, hgenerate, hmisses⟩

end StoreTrial.Workload
