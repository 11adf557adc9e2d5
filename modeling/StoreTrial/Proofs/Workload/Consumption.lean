import StoreTrial.Proofs.Workload.Progress

/-!
# A workload however it is consumed

Whoever consumes a workload may ask its generator for the next operation, for several, leave some
out, or look at its counts, its seed and what remains. The invariant of such a session is that its
generator is as after some number of calls, and that what was pulled is what these calls make
(`Session.Follows`): each use is some calls (`Follows.use`), and calls that follow each
other add up. So what is pulled is always a start of the whole workload, and what remains is the
rest of it (`pulled_eq_prefix`).
-/

namespace StoreTrial.Workload

/-- What is done with a generator. -/
inductive Use where
  /-- The next operation is asked for. -/
  | next
  /-- Up to `count` operations are asked for. -/
  | take (count : Nat)
  /-- Up to `count` operations are left out. -/
  | skip (count : Nat)
  /-- The counts by kind are asked for. -/
  | stats
  /-- The seed is asked for. -/
  | seed
  /-- The number of operations still to come is asked for. -/
  | remaining

/-- A generator in use. -/
structure Session (σ : Type) where
  /-- The operations that were pulled so far, in order, those that were left out among them. -/
  pulled : List Operation
  /-- The generator from here on. -/
  generator : Generator σ

namespace Session

/-- A session before the first use. -/
def start {σ : Type} (generator : Generator σ) : Session σ := ⟨[], generator⟩

variable {σ : Type} [Draws σ]

/-- The session after one more use. -/
def use (session : Session σ) : Use → Session σ
  | .next =>
    let step := session.generator.next
    ⟨session.pulled ++ step.operation?.toList, step.rest⟩
  | .take count | .skip count =>
    let batch := session.generator.take count
    ⟨session.pulled ++ batch.operations.toList, batch.rest⟩
  | .stats | .seed | .remaining => session

/-- The session after several uses. -/
def useAll (session : Session σ) (uses : List Use) : Session σ := uses.foldl use session

/-- The session has pulled what some number of calls makes, and its generator is as after them. -/
def Follows (generator : Generator σ) (session : Session σ) : Prop :=
  ∃ calls, session.pulled = generator.made calls ∧ session.generator = generator.after calls

/-- A session before its first use has pulled what no calls make. -/
theorem follows_start (generator : Generator σ) : Follows generator (start generator) :=
  ⟨0, rfl, rfl⟩

section

variable {generator : Generator σ} {session : Session σ}

/-- Further calls add what they make. -/
theorem Follows.add (h : Follows generator session) (count : Nat) :
    Follows generator
      ⟨session.pulled ++ session.generator.made count, session.generator.after count⟩ := by
  obtain ⟨calls, hpulled, hgenerator⟩ := h
  refine ⟨calls + count, ?_, ?_⟩
  · rw [hpulled, hgenerator, Generator.made_add]
  · rw [hgenerator, Generator.after_add]

/-- A use is some number of calls. -/
theorem Follows.use (h : Follows generator session) (use : Use) :
    Follows generator (session.use use) := by
  cases use with
  | next => exact h.add 1
  | take count | skip count =>
    rw [Session.use, Generator.operations_take, Generator.rest_take]
    exact h.add count
  | stats | seed | remaining => exact h

/-- Any uses are some number of calls. -/
theorem Follows.useAll (h : Follows generator session) (uses : List Use) :
    Follows generator (session.useAll uses) := by
  unfold Session.useAll
  induction uses generalizing session with
  | nil => exact h
  | cons use uses ih => exact ih (h.use use)

/-- What was pulled is the start of the whole workload that has its length. -/
theorem Follows.pulled_eq_take (h : Follows generator session)
    (hle : generator.emitted ≤ generator.total) :
    session.pulled = (generator.made generator.remaining).take session.pulled.length := by
  obtain ⟨calls, hpulled, -⟩ := h
  rw [hpulled, Generator.length_made hle]
  exact Generator.made_eq_take hle calls

/-- No more is pulled than the workload has. -/
theorem Follows.length_le (h : Follows generator session)
    (hle : generator.emitted ≤ generator.total) : session.pulled.length ≤ generator.remaining := by
  obtain ⟨calls, hpulled, -⟩ := h
  rw [hpulled, Generator.length_made hle]
  exact Nat.min_le_right _ _

/-- What is not pulled yet remains. -/
theorem Follows.remaining_eq (h : Follows generator session)
    (hle : generator.emitted ≤ generator.total) :
    session.generator.remaining = generator.remaining - session.pulled.length := by
  obtain ⟨calls, hpulled, hgenerator⟩ := h
  rw [hgenerator, hpulled, Generator.remaining_after hle, Generator.length_made hle]
  omega

/-- The next call makes nothing exactly if everything is pulled. -/
theorem Follows.operation?_eq_none_iff (h : Follows generator session)
    (hle : generator.emitted ≤ generator.total) :
    session.generator.next.operation? = none ↔ session.pulled.length = generator.remaining := by
  obtain ⟨calls, hpulled, hgenerator⟩ := h
  rw [hgenerator, hpulled, Generator.operation?_after_eq_none_iff hle, Generator.length_made hle]
  omega

end

/-- However the workload of a configuration with a seed is consumed, what is pulled is the start of
the workload that is generated at once: nothing is lost, repeated or drawn in another way because of
how the operations are asked for. At any time, what remains is the number of all operations less
that of those pulled. The next call makes an operation as long as not all are pulled; after that it
makes nothing and leaves the generator, its source of choices included, as it is. -/
theorem pulled_eq_prefix (config : Config) {seed : UInt64} (hlength : config.length ≠ 0)
    (hseed : config.seed = some seed) (entropy entropy' : UInt64) (uses : List Use) :
    ∃ generator workload, Generator.ofConfig config entropy = .ok generator ∧
      (generate config entropy').run.value = .ok workload ∧
      workload.operations.length = config.requestCount.toNat ∧
      let session := (start generator).useAll uses
      session.pulled = workload.operations.take session.pulled.length ∧
      session.pulled.length ≤ config.requestCount.toNat ∧
      session.generator.remaining = config.requestCount.toNat - session.pulled.length ∧
      session.generator.sizeHint = (config.requestCount.toNat - session.pulled.length,
        some (config.requestCount.toNat - session.pulled.length)) ∧
      (session.generator.next.operation? = none ↔
        session.pulled.length = config.requestCount.toNat) ∧
      (session.pulled.length = config.requestCount.toNat →
        session.generator.next = ⟨none, [], session.generator⟩) := by
  obtain ⟨hconfig, -⟩ := generate_eq hlength hseed entropy
  obtain ⟨-, hworkload⟩ := generate_eq hlength hseed entropy'
  let generator := Generator.ofSource config seed (Keystream.ofSeed seed)
  have hstart : generator.emitted ≤ generator.total := Nat.zero_le _
  have hfollows : Follows generator ((start generator).useAll uses) :=
    (follows_start generator).useAll uses
  have hremaining := hfollows.remaining_eq hstart
  have hnone := hfollows.operation?_eq_none_iff hstart
  refine ⟨generator, _, hconfig, hworkload, ?_, hfollows.pulled_eq_take hstart,
    hfollows.length_le hstart, hremaining, ?_, hnone, fun hall => ?_⟩
  · exact (Generator.length_made hstart _).trans (Nat.min_self _)
  · rw [Generator.sizeHint, hremaining]
    rfl
  · exact Generator.next_of_ge (Generator.operation?_eq_none_iff.mp (hnone.mpr hall))

/-- A workload of seven operations, of which the first is pulled, two are left out, and the others
are pulled at once, after a look at the counts. -/
theorem pulled_of_seven_operations :
    (⟨7, 10, some 42⟩ : Config).length ≠ 0 ∧ (⟨7, 10, some 42⟩ : Config).seed = some 42 ∧
    ∃ generator workload, Generator.ofConfig ⟨7, 10, some 42⟩ 0 = .ok generator ∧
      (generate ⟨7, 10, some 42⟩ 1).run.value = .ok workload ∧
      ((start generator).useAll [.next, .skip 2, .stats, .take 9, .next]).pulled <+:
        workload.operations := by
  obtain ⟨generator, workload, hconfig, hworkload, -, hpulled, -⟩ :=
    pulled_eq_prefix ⟨7, 10, some 42⟩ (by decide) rfl 0 1 [.next, .skip 2, .stats, .take 9, .next]
  refine ⟨by decide, rfl, generator, workload, hconfig, hworkload, ?_⟩
  rw [hpulled]
  exact List.take_prefix _ _

end Session

end StoreTrial.Workload
