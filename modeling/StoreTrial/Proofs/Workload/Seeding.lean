import StoreTrial.Proofs.Workload.SharedStart

/-!
# The end of the seeding

A workload opens with fresh writes (`next_of_opening`), and nothing else is counted until the
opening is over (`stats_of_opening`). The call after the last seeding write says that the seeding is
complete. No field of the generator remembers that it has been said: the call is told from the
others by the number of operations made so far, which is another one at each call that makes one
(`events_next_after`). So a whole run says it exactly once, and a run that ends before that call,
or that has no operations to make, does not say it at all (`seeding_reported_once`).
-/

namespace StoreTrial.Workload.Generator

variable {σ : Type} [Draws σ]

/-! ## The opening -/

/-- A fresh write is a write of a key and a value that are drawn for it. -/
theorem exists_freshWrite_eq (generator : Generator σ) :
    ∃ key value, generator.freshWrite.1 = .write key value ∧
      Drawn σ generator.length key ∧ Drawn σ generator.length value :=
  ⟨_, _, rfl, ⟨_, rfl⟩, ⟨_, rfl⟩⟩

/-- In the opening of a workload, a call makes a fresh write. -/
theorem next_of_opening {generator : Generator σ} (hfresh : generator.Fresh)
    (hlt : generator.emitted < generator.total)
    (hopening : generator.emitted < openingCount generator.total) :
    generator.next =
      ⟨some generator.freshWrite.1, generator.eventsOfCall, counted generator.freshWrite⟩ := by
  rw [next_eq_choose hlt, choose_eq hfresh, if_pos hopening]

/-- A call leaves the length of keys and values as it is. -/
theorem Makes.length_eq {generator rest : Generator σ} {operation : Operation}
    (h : Makes generator operation rest) : rest.length = generator.length := by
  cases h <;> rfl

/-- Calls leave the length of keys and values as it is. -/
theorem length_after (generator : Generator σ) (count : Nat) :
    (generator.after count).length = generator.length :=
  after_induction (P := fun rest _ => rest.length = generator.length) rfl
    (fun _ _ _ _ hlength hmakes => hmakes.length_eq.trans hlength) count

section

variable (config : Config) (seed : UInt64) (source : σ)

/-- Each call of a new generator counts one operation until all are counted. -/
theorem emitted_after_ofSource (count : Nat) :
    ((ofSource config seed source).after count).emitted =
      min config.requestCount.toNat count := by
  have hstart : (ofSource config seed source).emitted ≤ (ofSource config seed source).total :=
    Nat.zero_le _
  have hemitted := emitted_after hstart count
  rwa [ofSource, Nat.zero_add] at hemitted

/-- The calls of the opening make fresh writes. -/
theorem next_after_of_opening {i : Nat} (hlt : i < config.requestCount.toNat)
    (hopening : i < openingCount config.requestCount.toNat) :
    let generator := (ofSource config seed source).after i
    generator.next =
      ⟨some generator.freshWrite.1, generator.eventsOfCall, counted generator.freshWrite⟩ := by
  intro generator
  have hfresh : (ofSource config seed source).Fresh := fun _ => rfl
  have hemitted : generator.emitted = i := by
    rw [emitted_after_ofSource]
    omega
  have htotal : generator.total = config.requestCount.toNat := total_after _ _
  apply next_of_opening (hfresh.after i)
  · rw [hemitted, htotal]
    exact hlt
  · rw [hemitted, htotal]
    exact hopening

/-- In the opening, each operation is counted as a fresh write. -/
theorem stats_of_opening {count : Nat} (hle : count ≤ config.requestCount.toNat)
    (hopening : count ≤ openingCount config.requestCount.toNat) :
    ((ofSource config seed source).after count).stats = ⟨0, count, 0, 0⟩ := by
  induction count with
  | zero => rfl
  | succ count ih =>
    have hstats := ih (Nat.le_of_succ_le hle) (Nat.le_of_succ_le hopening)
    have hcounted : ∀ generator : Generator σ, (counted generator.freshWrite).stats =
        { generator.stats with freshWrites := generator.stats.freshWrites + 1 } := fun _ => rfl
    rw [after, next_after_of_opening config seed source hle hopening, hcounted, hstats]

/-! ## The event -/

/-- The event that the seeding of a workload of `total` operations is complete. -/
def seedingEvent (total : Nat) : Event :=
  .seedingComplete (seedingCount total) (total - seedingCount total)

/-- A call that makes no operation has nothing to report. -/
theorem events_next (generator : Generator σ) :
    generator.next.events =
      if generator.emitted < generator.total then generator.eventsOfCall else [] := by
  split
  · rename_i hlt
    obtain ⟨operation, rest, hnext, -⟩ := next_of_lt hlt
    rw [hnext]
  · rename_i hend
    rw [next_of_ge (Nat.le_of_not_lt hend)]

/-- The call whose number is that of the seeding writes reports that they are done, and no other
call reports anything. -/
theorem events_next_after (i : Nat) :
    ((ofSource config seed source).after i).next.events =
      if 0 < config.requestCount.toNat ∧ i = seedingCount config.requestCount.toNat then
        [seedingEvent config.requestCount.toNat]
      else [] := by
  have hemitted := emitted_after_ofSource config seed source i
  have htotal : ((ofSource config seed source).after i).total = config.requestCount.toNat :=
    total_after _ _
  rw [events_next, eventsOfCall, seeding, remaining, htotal, hemitted]
  generalize config.requestCount.toNat = total
  have hfifth : seedingCount total = total / 5 := rfl
  by_cases hlt : i < total
  · -- Here `i` operations have been made, one by each call before.
    have hmin : min total i = i := Nat.min_eq_right (Nat.le_of_lt hlt)
    have hpositive : 0 < total := Nat.zero_lt_of_lt hlt
    rw [hmin, if_pos hlt]
    by_cases hi : i = seedingCount total
    · rw [if_pos hi, if_pos ⟨hpositive, hi⟩, hi, seedingEvent]
    · rw [if_neg hi, if_neg fun h => hi h.2]
  · -- The number of all operations is never that of the seeding writes, unless it is zero.
    have hend : ¬ min total i < total := by omega
    have hnever : ¬(0 < total ∧ i = seedingCount total) := by omega
    rw [if_neg hend, if_neg hnever]

end

/-- The events that `count` calls report, in order. -/
def reported (generator : Generator σ) : (count : Nat) → List Event
  | 0 => []
  | count + 1 => reported generator count ++ (generator.after count).next.events

/-- The later calls report what they would report on their own. -/
theorem reported_add (generator : Generator σ) (m n : Nat) :
    generator.reported (m + n) = generator.reported m ++ (generator.after m).reported n := by
  induction n with
  | zero => exact (List.append_nil _).symm
  | succ n ih => rw [← Nat.add_assoc, reported, ih, after_add, List.append_assoc, reported]

/-- At the end of the workload, no number of calls reports anything. -/
theorem reported_of_ge {generator : Generator σ} (h : generator.total ≤ generator.emitted)
    (count : Nat) : generator.reported count = [] := by
  induction count with
  | zero => rfl
  | succ count ih =>
    have hafter : generator.after count = generator := (made_after_of_ge h count).2
    rw [reported, ih, hafter, next_of_ge h, List.nil_append]

/-- A batch is extended by what its number of calls reports. -/
theorem events_extend (batch : Batch σ) (count : Nat) :
    (extend batch count).events = batch.events ++ batch.rest.reported count := by
  induction count generalizing batch with
  | zero => exact (List.append_nil _).symm
  | succ count ih =>
    obtain ⟨operations, events, generator⟩ := batch
    rcases Nat.lt_or_ge generator.emitted generator.total with hlt | hge
    · obtain ⟨operation, rest, hnext, -⟩ := next_of_lt hlt
      have hfirst : generator.reported 1 = generator.eventsOfCall := by
        rw [reported, reported, after, hnext, List.nil_append]
      have hafter : generator.after 1 = rest := by
        rw [after, after, hnext]
      simp only [extend, hnext, ih]
      rw [Nat.add_comm count 1, reported_add, hfirst, hafter, List.append_assoc]
    · simp only [extend, next_of_ge hge, reported_of_ge hge, List.append_nil]

/-- A batch reports what its number of calls reports. -/
theorem events_take (generator : Generator σ) (count : Nat) :
    (generator.take count).events = generator.reported count :=
  events_extend ⟨#[], [], generator⟩ count

/-- Calls report that the seeding is complete if the call that does so is one of them. -/
theorem reported_ofSource (config : Config) (seed : UInt64) (source : σ) (count : Nat) :
    (ofSource config seed source).reported count =
      if 0 < config.requestCount.toNat ∧ seedingCount config.requestCount.toNat < count then
        [seedingEvent config.requestCount.toNat]
      else [] := by
  induction count with
  | zero => rw [reported, if_neg fun h => Nat.not_lt_zero _ h.2]
  | succ count ih =>
    rw [reported, ih, events_next_after]
    generalize config.requestCount.toNat = total
    -- The event is in the first part, or it comes with the last call, or it is still to come.
    rcases Nat.lt_trichotomy count (seedingCount total) with hlt | heq | hgt
    · have hfirst : ¬(0 < total ∧ seedingCount total < count) := by omega
      have hlast : ¬(0 < total ∧ count = seedingCount total) := by omega
      have hall : ¬(0 < total ∧ seedingCount total < count + 1) := by omega
      rw [if_neg hfirst, if_neg hlast, if_neg hall, List.append_nil]
    · have hfirst : ¬(0 < total ∧ seedingCount total < count) := by omega
      have hall : (0 < total ∧ seedingCount total < count + 1) ↔
          (0 < total ∧ count = seedingCount total) := by omega
      simp only [if_neg hfirst, List.nil_append, hall]
    · have hlast : ¬(0 < total ∧ count = seedingCount total) := by omega
      have hall : (0 < total ∧ seedingCount total < count + 1) ↔
          (0 < total ∧ seedingCount total < count) := by omega
      simp only [if_neg hlast, List.append_nil, hall]

/-- A workload that has operations opens with fresh writes, whatever is drawn: a fifth of the
operations, but at least one, are writes of a key and a value that are drawn for them, and are
counted as such. The call after the last seeding write reports that the seeding is complete, with
the number of seeding writes and that of the operations that remain, of which there is at least one.
No other call of a whole run reports anything, neither before nor after it, nor when all operations
are made; and no call of a workload without operations does. So a batch has the event exactly once
if it reaches that call, and otherwise not at all. -/
theorem seeding_reported_once (config : Config) (seed : UInt64) (source : σ) :
    let generator := ofSource config seed source
    let total := config.requestCount.toNat
    let seeded := total / 5
    (0 < total → 1 ≤ total - seeded ∧ ∀ i < max 1 seeded, ∃ key value,
      (generator.made total)[i]? = some (.write key value) ∧
      Drawn σ config.length.toNat key ∧ Drawn σ config.length.toNat value ∧
      (generator.after (i + 1)).stats = ⟨0, i + 1, 0, 0⟩) ∧
    (∀ i, (generator.after i).next.events =
      if 0 < total ∧ i = seeded then [.seedingComplete seeded (total - seeded)] else []) ∧
    ∀ count, (generator.take count).events =
      if 0 < total ∧ seeded < count then [.seedingComplete seeded (total - seeded)] else [] := by
  intro generator total seeded
  refine ⟨fun hpositive => ⟨by omega, fun i hi => ?_⟩, events_next_after config seed source,
    fun count => ?_⟩
  · have hopening : i < openingCount total := hi
    have hlt : i < total := by omega
    have hnext := next_after_of_opening config seed source hlt hopening
    have hlength : (generator.after i).length = config.length.toNat := length_after _ _
    have hstats : (generator.after (i + 1)).stats = ⟨0, i + 1, 0, 0⟩ :=
      stats_of_opening config seed source hlt hopening
    obtain ⟨key, value, hwrite, hkey, hvalue⟩ := exists_freshWrite_eq (generator.after i)
    rw [hlength] at hkey hvalue
    have hmade : (generator.made total)[i]? = some (.write key value) := by
      rw [getElem?_made, if_pos hlt, hnext, ← hwrite]
    exact ⟨key, value, hmade, hkey, hvalue, hstats⟩
  · rw [events_take]
    exact reported_ofSource config seed source count

end StoreTrial.Workload.Generator
