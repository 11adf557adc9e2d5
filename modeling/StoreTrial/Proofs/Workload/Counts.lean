import StoreTrial.Proofs.Store.LiveKeys
import StoreTrial.Proofs.Workload.Seeding

/-!
# The counts of a workload are exact

A generator counts what it makes in four numbers, each of which is changed by one of its ways to
make an operation. `Tallied` relates these numbers to the operations made so far; one call keeps it
(`Tallied.makes`), and so does any number of calls (`tallied_after`). Reads, deletions and writes
are counted exactly. That a write was counted as fresh does not mean that its key is new, since a
drawn key may be one that was drawn before, so there are at most as many distinct keys as fresh
writes, and at least as many rewrites as reused writes (`stats_exact`).
-/

namespace StoreTrial.Workload

/-- The number of operations of a kind in the counts. -/
def Stats.ofKind (stats : Stats) : Kind → Nat
  | .read => stats.reads
  | .write => stats.writes
  | .delete => stats.deletes

namespace Generator

variable {σ : Type}

/-- The counts of a generator are those of the operations `made`, and its history holds only keys
that they write. -/
structure Tallied (generator : Generator σ) (made : List Operation) : Prop where
  /-- All operations are counted. -/
  emitted : generator.emitted = made.length
  /-- The operations of each kind are counted, the writes as fresh or as reused. -/
  ofKind : ∀ kind, generator.stats.ofKind kind = countKind kind made
  /-- The key of each earlier write is among the keys that are written. -/
  kept : ∀ entry ∈ generator.history, entry.key ∈ writtenKeys made
  /-- Each distinct key came with a fresh write. -/
  distinct : distinctKeys made ≤ generator.stats.freshWrites

/-! ## One call -/

section

variable {generator : Generator σ} {made : List Operation}

/-- The keys in a history are still written if there is one more operation. -/
theorem Tallied.kept_concat (h : Tallied generator made) (operation : Operation) :
    ∀ entry ∈ generator.history, entry.key ∈ writtenKeys (made ++ [operation]) := by
  intro entry hentry
  rw [writtenKeys_concat]
  exact List.mem_append_left _ (h.kept entry hentry)

/-- The keys in a history are still written if there is one more write, which the history takes
up. -/
theorem Tallied.kept_push (h : Tallied generator made) (added : Entry) :
    ∀ entry ∈ generator.history.push added,
      entry.key ∈ writtenKeys (made ++ [.write added.key added.value]) := by
  intro entry hentry
  rcases Array.mem_push.mp hentry with hentry | rfl
  · exact h.kept_concat _ entry hentry
  · exact mem_writtenKeys_of_mem (List.mem_append_right _ (List.mem_singleton_self _))

end

variable [Draws σ]

section

variable {generator rest : Generator σ} {made : List Operation} {operation : Operation}

/-- A call counts the operation that it makes as one of its kind. -/
theorem Makes.ofKind_eq (h : Makes generator operation rest) (kind : Kind) :
    rest.stats.ofKind kind =
      generator.stats.ofKind kind + if operation.kind = kind then 1 else 0 := by
  cases h with
  | freshWrite key value source hkey hvalue =>
    cases kind with
    | write => exact Nat.add_right_comm _ 1 _
    | read | delete => rfl
  | reusedWrite | read | delete => cases kind <;> rfl

/-- A call that makes an operation on a new key counts a fresh write. -/
theorem Tallied.distinct_makes (h : Tallied generator made)
    (hmakes : Makes generator operation rest) :
    distinctKeys (made ++ [operation]) ≤ rest.stats.freshWrites := by
  have hdistinct := h.distinct
  rw [distinctKeys_concat]
  cases hmakes with
  | freshWrite key value source hkey hvalue =>
    have hone : (if (Operation.write key value).kind = .write ∧ key ∉ writtenKeys made then 1
        else 0) ≤ 1 := by
      split <;> omega
    exact Nat.add_le_add hdistinct hone
  | reusedWrite entry source hseeded hentry =>
    -- The key of the entry was written before, so it is not a new one.
    have hkept : entry.key ∈ writtenKeys made := h.kept entry hentry
    rw [if_neg fun hnew => hnew.2 hkept]
    exact hdistinct
  | read | delete =>
    rw [if_neg fun hnew => by cases hnew.1]
    exact hdistinct

/-- A call that makes an operation counts it. -/
theorem Tallied.makes (h : Tallied generator made) (hmakes : Makes generator operation rest) :
    Tallied rest (made ++ [operation]) := by
  refine ⟨?_, fun kind => ?_, ?_, h.distinct_makes hmakes⟩
  · rw [hmakes.emitted_eq, h.emitted, List.length_append, List.length_singleton]
  · rw [hmakes.ofKind_eq, countKind_concat, h.ofKind]
  · cases hmakes with
    | freshWrite key value source hkey hvalue => exact h.kept_push ⟨key, value⟩
    | reusedWrite entry source hseeded hentry => exact h.kept_push entry
    | read | delete => exact h.kept_concat _

/-- A call never takes a fresh write off the count. -/
theorem Makes.freshWrites_le (h : Makes generator operation rest) :
    generator.stats.freshWrites ≤ rest.stats.freshWrites := by
  cases h with
  | freshWrite key value source hkey hvalue => exact Nat.le_succ _
  | reusedWrite | read | delete => exact Nat.le_refl _

end

/-! ## Any number of calls -/

/-- The counts of a new generator are those of the operations that its calls have made. -/
theorem tallied_after (config : Config) (seed : UInt64) (source : σ) (count : Nat) :
    let generator := ofSource config seed source
    Tallied (generator.after count) (generator.made count) := by
  refine after_induction (P := Tallied) ?_ (fun _ _ _ _ => Tallied.makes) count
  refine ⟨rfl, fun kind => ?_, fun entry hentry => absurd hentry (Array.not_mem_empty entry),
    Nat.le_refl 0⟩
  cases kind <;> rfl

/-- Further calls take no fresh write off the count. -/
theorem freshWrites_after_le (generator : Generator σ) (count : Nat) :
    generator.stats.freshWrites ≤ (generator.after count).stats.freshWrites :=
  after_induction
    (P := fun rest _ => generator.stats.freshWrites ≤ rest.stats.freshWrites) (Nat.le_refl _)
    (fun _ _ _ _ hle hmakes => Nat.le_trans hle hmakes.freshWrites_le) count

/-- The operations that a workload opens with are counted as fresh writes, as far as they are
made. -/
theorem min_opening_le_freshWrites (config : Config) (seed : UInt64) (source : σ) (count : Nat) :
    let generator := ofSource config seed source
    min (generator.made count).length (openingCount config.requestCount.toNat) ≤
      (generator.after count).stats.freshWrites := by
  intro generator
  have hlength : (generator.made count).length = min count config.requestCount.toNat :=
    length_made (Nat.zero_le _) count
  rw [hlength]
  generalize hopened : min (min count config.requestCount.toNat)
    (openingCount config.requestCount.toNat) = opened
  have hstats : (generator.after opened).stats = ⟨0, opened, 0, 0⟩ :=
    stats_of_opening config seed source (by omega) (by omega)
  -- The calls after the opening only add to the fresh writes.
  have hlater := freshWrites_after_le (generator.after opened) (count - opened)
  have hcount : opened + (count - opened) = count := by omega
  rwa [← after_add, hcount, hstats] at hlater

/-- The counts of a workload are exact at any time, whatever is drawn. After any number of calls,
the reads, the writes and the deletions are as many as the operations of each kind that were made,
and all of them together as many as the operations. At least the operations of the opening, as far
as they are made, are fresh writes. No more distinct keys were written than there are fresh writes,
since a drawn key may be one that was drawn before, and so at least as many writes as count as
reused are of a key that was written before. A store that starts empty and answers the operations
therefore has at no time more keys than there are fresh writes. -/
theorem stats_exact (config : Config) (seed : UInt64) (source : σ) (count : Nat) :
    let generator := ofSource config seed source
    let made := generator.made count
    let stats := (generator.after count).stats
    stats.reads = countKind .read made ∧ stats.deletes = countKind .delete made ∧
    stats.writes = countKind .write made ∧
    stats.total = made.length ∧ (generator.after count).emitted = made.length ∧
    min made.length (max 1 (config.requestCount.toNat / 5)) ≤ stats.freshWrites ∧
    distinctKeys made ≤ stats.freshWrites ∧ stats.reusedWrites ≤ rewrites made ∧
    ∀ answered, (Store.empty.run (made.take answered)).2.size ≤ stats.freshWrites := by
  intro generator made stats
  have htallied : Tallied (generator.after count) made := tallied_after config seed source count
  have hreads : stats.reads = countKind .read made := htallied.ofKind .read
  have hwrites : stats.writes = countKind .write made := htallied.ofKind .write
  have hdeletes : stats.deletes = countKind .delete made := htallied.ofKind .delete
  have hdistinct : distinctKeys made ≤ stats.freshWrites := htallied.distinct
  refine ⟨hreads, hdeletes, hwrites, ?_, htallied.emitted,
    min_opening_le_freshWrites config seed source count, hdistinct, ?_, fun answered => ?_⟩
  · have hkinds := countKind_add_countKind_add_countKind made
    unfold Stats.total
    omega
  · have hall : distinctKeys made + rewrites made = stats.freshWrites + stats.reusedWrites :=
      (distinctKeys_add_rewrites made).trans hwrites.symm
    omega
  · calc (Store.empty.run (made.take answered)).2.size
        ≤ distinctKeys (made.take answered) := size_run_le _
      _ ≤ distinctKeys made := distinctKeys_take_le made answered
      _ ≤ stats.freshWrites := hdistinct

end Generator

end StoreTrial.Workload
