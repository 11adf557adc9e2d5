import StoreTrial.Proofs.Workload.Progress

/-!
# Workloads of different sizes that start alike

A workload opens with fresh writes: a fifth of its operations, but at least one, since a first
operation that is mixed finds no history to reuse and draws no kind (`choose_eq`). The number of all
operations matters to a call only in that it says when the opening ends. Two generators that differ
in that number are therefore in lockstep as long as both are in their openings or both behind them
(`after_resized`), and the streams of operations that are made from one seed start alike
(`generate_shared_start`).
-/

namespace StoreTrial.Workload

/-- The number of operations that a workload of `total` operations opens with, as far as it has
them: all of them are fresh writes. -/
def openingCount (total : Nat) : Nat := max 1 (seedingCount total)

/-- A larger workload has no shorter opening. -/
theorem openingCount_le {total total' : Nat} (h : total ≤ total') :
    openingCount total ≤ openingCount total' := by
  have hfifth : total / 5 ≤ total' / 5 := Nat.div_le_div_right h
  unfold openingCount seedingCount
  omega

namespace Generator

variable {σ : Type} [Draws σ]

/-! ## One call -/

/-- What a call makes while operations are to come, before it counts the operation. -/
def choose (generator : Generator σ) : Operation × Generator σ :=
  if generator.emitted < generator.seeding then generator.freshWrite else generator.mixed

/-- While operations are to come, a call makes what it chooses and counts it. -/
theorem next_eq_choose {generator : Generator σ} (h : generator.emitted < generator.total) :
    generator.next =
      ⟨some generator.choose.1, generator.eventsOfCall, counted generator.choose⟩ := by
  simp only [next, if_pos h]
  rfl

/-- The generator has no history unless it has made an operation. -/
def Fresh (generator : Generator σ) : Prop :=
  generator.emitted = 0 → generator.history.size = 0

/-- A call chooses a fresh write in the opening of a workload, and any operation behind it. -/
theorem choose_eq {generator : Generator σ} (h : generator.Fresh) :
    generator.choose =
      if generator.emitted < openingCount generator.total then generator.freshWrite
      else generator.mixed := by
  have hopening : openingCount generator.total = max 1 generator.seeding := rfl
  rw [choose, hopening]
  by_cases hseeding : generator.emitted < generator.seeding
  · rw [if_pos hseeding, if_pos (by omega)]
  · rw [if_neg hseeding]
    by_cases hfirst : generator.emitted = 0
    · -- Nothing is in the history yet, so this is a fresh write although it is a mixed operation.
      have hempty : ¬ 0 < generator.history.size := by
        rw [h hfirst]
        exact Nat.lt_irrefl 0
      rw [if_pos (by omega), mixed, dif_neg hempty]
    · rw [if_neg (by omega)]

/-- After a call that makes an operation, a generator has made one. -/
theorem Makes.fresh {generator rest : Generator σ} {operation : Operation}
    (h : Makes generator operation rest) : rest.Fresh := by
  intro hemitted
  rw [h.emitted_eq] at hemitted
  contradiction

/-- After any number of calls, a generator has no history unless it has made an operation. -/
theorem Fresh.after {generator : Generator σ} (h : generator.Fresh) (count : Nat) :
    (generator.after count).Fresh :=
  after_induction (P := fun rest _ => rest.Fresh) h (fun _ _ _ _ _ hmakes => hmakes.fresh) count

/-! ## Another number of operations -/

/-- The generator in the making of a workload of `total` operations. -/
def resized (generator : Generator σ) (total : Nat) : Generator σ := { generator with total }

section

variable {generator : Generator σ} {total : Nat}

/-- A fresh write does not depend on the number of all operations. -/
theorem freshWrite_resized (generator : Generator σ) (total : Nat) :
    (generator.resized total).freshWrite =
      generator.freshWrite.map id fun rest => rest.resized total := rfl

/-- A mixed operation does not depend on the number of all operations. -/
theorem mixed_resized (generator : Generator σ) (total : Nat) :
    (generator.resized total).mixed = generator.mixed.map id fun rest => rest.resized total := by
  have hsource : (generator.resized total).source = generator.source := rfl
  have hhistory : (generator.resized total).history = generator.history := rfl
  unfold mixed
  by_cases h : 0 < generator.history.size
  · rw [dif_pos h, dif_pos (hhistory ▸ h), hsource]
    rcases Draws.kind generator.source with ⟨kind, source⟩
    cases kind with
    | read | delete => rfl
    | write =>
      dsimp only
      rcases Draws.coin source with ⟨fresh, source'⟩
      cases fresh <;> rfl
  · rw [dif_neg h, dif_neg (hhistory ▸ h), freshWrite_resized]

/-- The number of all operations matters to a choice only in that it says whether the opening is
over. -/
theorem choose_resized (h : generator.Fresh)
    (hphase : generator.emitted < openingCount generator.total ↔
      generator.emitted < openingCount total) :
    (generator.resized total).choose = generator.choose.map id fun rest => rest.resized total := by
  have hresized : (generator.resized total).Fresh := h
  have hsame : (generator.resized total).emitted < openingCount (generator.resized total).total ↔
      generator.emitted < openingCount generator.total := hphase.symm
  rw [choose_eq h, choose_eq hresized]
  simp only [hsame, freshWrite_resized, mixed_resized]
  exact (apply_ite _ _ _ _).symm

/-- In the same phase of two workloads of different sizes, a call makes the same operation. -/
theorem next_resized (h : generator.Fresh) (hlt : generator.emitted < generator.total)
    (hlt' : generator.emitted < total)
    (hphase : generator.emitted < openingCount generator.total ↔
      generator.emitted < openingCount total) :
    (generator.resized total).next.operation? = generator.next.operation? ∧
      (generator.resized total).next.rest = generator.next.rest.resized total := by
  have hresized : (generator.resized total).emitted < (generator.resized total).total := hlt'
  rw [next_eq_choose hlt, next_eq_choose hresized, choose_resized h hphase]
  exact ⟨rfl, rfl⟩

/-- As long as two workloads of different sizes are in the same phase at each call, the calls make
the same operations. -/
theorem after_resized (h : generator.Fresh) {count : Nat}
    (hle : generator.emitted + count ≤ generator.total) (hle' : generator.emitted + count ≤ total)
    (hphase : ∀ i < generator.emitted + count,
      (i < openingCount generator.total ↔ i < openingCount total)) :
    (generator.resized total).after count = (generator.after count).resized total ∧
      (generator.resized total).made count = generator.made count := by
  -- Both generators are equal but for their sizes after each call, the sources among the rest.
  induction count with
  | zero => exact ⟨rfl, rfl⟩
  | succ count ih =>
    obtain ⟨hafter, hmade⟩ :=
      ih (by omega) (by omega) fun i hi => hphase i (Nat.lt_succ_of_lt hi)
    have htotal := total_after generator count
    have hemitted : (generator.after count).emitted = generator.emitted + count := by
      rw [emitted_after (by omega)]
      omega
    have hsame : (generator.after count).emitted < openingCount (generator.after count).total ↔
        (generator.after count).emitted < openingCount total := by
      rw [htotal, hemitted]
      exact hphase _ (Nat.lt_succ_self _)
    obtain ⟨hoperation, hrest⟩ := next_resized (h.after count) (by omega) (by omega) hsame
    rw [Generator.after, made, hafter, hmade, hoperation, hrest]
    exact ⟨rfl, rfl⟩

end

end Generator

/-! ## Streams from one seed -/

section

variable {config config' : Config} {entropy entropy' : UInt64}

/-- The generators of two workloads start alike as long as the smaller one is in its opening, and to
its end if both openings have the same length. -/
theorem made_ofSource_eq (hsame : config'.length = config.length)
    (hcount : config.requestCount ≤ config'.requestCount) (seed : UInt64) {σ : Type} [Draws σ]
    (source : σ) {shared : Nat} (hshared : shared ≤ config.requestCount.toNat)
    (hphase : shared ≤ openingCount config.requestCount.toNat ∨
      openingCount config.requestCount.toNat = openingCount config'.requestCount.toNat) :
    (Generator.ofSource config' seed source).made shared =
      (Generator.ofSource config seed source).made shared := by
  have hresized : Generator.ofSource config' seed source =
      (Generator.ofSource config seed source).resized config'.requestCount.toNat := by
    rw [Generator.ofSource, hsame]
    rfl
  have hcount' : config.requestCount.toNat ≤ config'.requestCount.toNat :=
    UInt64.le_iff_toNat_le.mp hcount
  have hopening := openingCount_le hcount'
  have hfresh : (Generator.ofSource config seed source).Fresh := fun _ => rfl
  have htotal : (Generator.ofSource config seed source).total = config.requestCount.toNat := rfl
  have hemitted : (Generator.ofSource config seed source).emitted = 0 := rfl
  rw [hresized]
  refine (Generator.after_resized hfresh ?_ ?_ ?_).2
  · omega
  · omega
  · intro i hi
    rw [htotal]
    omega

/-- The first operations of a workload are those that as many calls make. -/
theorem take_made_ofSource (config : Config) (seed : UInt64) {σ : Type} [Draws σ] (source : σ)
    {shared : Nat} (hshared : shared ≤ config.requestCount.toNat) :
    ((Generator.ofSource config seed source).made config.requestCount.toNat).take shared =
      (Generator.ofSource config seed source).made shared := by
  have hremaining : (Generator.ofSource config seed source).remaining =
      config.requestCount.toNat := rfl
  rw [Generator.made_eq_take (Nat.zero_le _) shared, hremaining, Nat.min_eq_left hshared]

/-- Workloads of different sizes that are made from the same seed with the same length start alike.
The operations that the smaller one opens with are the first ones of the larger one, as many as the
smaller one has. If both openings have the same length, then the whole smaller one is the start of
the larger one. -/
theorem generate_shared_start (hlength : config.length ≠ 0) (hsame : config'.length = config.length)
    (hseed : config'.seed.getD entropy' = config.seed.getD entropy)
    (hcount : config.requestCount ≤ config'.requestCount) :
    ∃ workload workload', (generate config entropy).run.value = .ok workload ∧
      (generate config' entropy').run.value = .ok workload' ∧
      let count := config.requestCount.toNat
      let count' := config'.requestCount.toNat
      let shared := min count (max 1 (count / 5))
      workload.operations.length = count ∧ workload'.operations.length = count' ∧
      workload.operations.take shared = workload'.operations.take shared ∧
      (max 1 (count / 5) = max 1 (count' / 5) →
        workload.operations = workload'.operations.take count) := by
  have hlength' : config'.length ≠ 0 := hsame ▸ hlength
  have hcount' : config.requestCount.toNat ≤ config'.requestCount.toNat :=
    UInt64.le_iff_toNat_le.mp hcount
  obtain ⟨-, hgenerate⟩ := generate_eq_getD hlength entropy
  obtain ⟨-, hgenerate'⟩ := generate_eq_getD hlength' entropy'
  rw [hseed] at hgenerate'
  refine ⟨_, _, hgenerate, hgenerate', ?_⟩
  intro count count' shared
  refine ⟨length_operations_of_generate hlength hgenerate,
    length_operations_of_generate hlength' hgenerate', ?_, ?_⟩
  · have hshared : shared ≤ count := Nat.min_le_left _ _
    have hopening : shared ≤ openingCount count := Nat.min_le_right _ _
    rw [take_made_ofSource _ _ _ hshared, take_made_ofSource _ _ _ (Nat.le_trans hshared hcount')]
    exact (made_ofSource_eq hsame hcount _ _ hshared (.inl hopening)).symm
  · intro hopening
    rw [take_made_ofSource _ _ _ hcount']
    exact (made_ofSource_eq hsame hcount _ _ (Nat.le_refl _) (.inr hopening)).symm

/-- The operations of a workload of 12 are the first ones of a workload of 14 from the same seed:
both open with two. -/
theorem shared_start_of_twelve :
    ∃ workload workload', (generate ⟨12, 3, some 7⟩ 0).run.value = .ok workload ∧
      (generate ⟨14, 3, none⟩ 7).run.value = .ok workload' ∧
      workload.operations = workload'.operations.take 12 := by
  have hlength : (⟨12, 3, some 7⟩ : Config).length ≠ 0 := by decide
  have hsame : (⟨14, 3, none⟩ : Config).length = (⟨12, 3, some 7⟩ : Config).length := rfl
  have hseed : (⟨14, 3, none⟩ : Config).seed.getD 7 = (⟨12, 3, some 7⟩ : Config).seed.getD 0 := rfl
  have hcount : (⟨12, 3, some 7⟩ : Config).requestCount ≤
      (⟨14, 3, none⟩ : Config).requestCount := by decide
  obtain ⟨workload, workload', hgenerate, hgenerate', -, -, -, hwhole⟩ :=
    generate_shared_start hlength hsame hseed hcount
  exact ⟨workload, workload', hgenerate, hgenerate', hwhole (by decide)⟩

end

end StoreTrial.Workload
