import StoreTrial.Verdict

/-!
# What a comparison finds

The comparison goes through the positions of two lists of outcomes, adds up what it finds, and warns
of the first mismatch when it comes to it. Its result is stated here without that order of work:
`differences` are the positions at which the lines differ. The verdict holds their number, the first
hundred of them and the number of the other positions, and there is one warning, about the first of
them, if there are any (`verify_eq`). The invariant is that the warning was given exactly if
mismatches were counted, so the count alone decides whether the next one is reported (`foldl_note`).
A trial passes exactly when the two lists have the same lines (`passed_compare_iff`).
-/

namespace StoreTrial

/-- The warning about a mismatch with none before it. -/
def Mismatch.warning (mismatch : Mismatch) : Event :=
  .firstMismatch mismatch.index mismatch.expected.line mismatch.actual.line

namespace Verdict

/-- The mismatch at a position with two outcomes, if their lines differ. -/
def difference? (pair : (Outcome × Outcome) × Nat) : Option Mismatch :=
  if pair.1.1.line = pair.1.2.line then none else some ⟨pair.2, pair.1.1, pair.1.2⟩

/-- The mismatches of two lists of outcomes, in order. -/
def differences (expected actual : List Outcome) : List Mismatch :=
  (expected.zip actual).zipIdx.filterMap difference?

/-- What is reported of mismatches: a warning about the first one. -/
def warnings (mismatches : List Mismatch) : List Event :=
  mismatches.head?.toList.map Mismatch.warning

/-- A position at which the lines agree is counted as such. -/
theorem note_of_none {pair : (Outcome × Outcome) × Nat} (h : difference? pair = none)
    (verdict : Verdict) :
    verdict.note pair.2 pair.1.1 pair.1.2 =
      ⟨{ verdict with matched := verdict.matched + 1 }, []⟩ := by
  unfold difference? at h
  split at h
  · rename_i hline
    unfold note
    rw [if_pos hline]
    rfl
  · contradiction

/-- A position at which the lines differ is counted as a mismatch, and kept if there is room. It is
reported if no mismatch came before it. -/
theorem note_of_some {pair : (Outcome × Outcome) × Nat} {mismatch : Mismatch}
    (h : difference? pair = some mismatch) {verdict : Verdict}
    (hkept : verdict.mismatches.length ≤ mismatchLimit) :
    verdict.note pair.2 pair.1.1 pair.1.2 =
      ⟨{ verdict with
          mismatchCount := verdict.mismatchCount + 1
          mismatches := (verdict.mismatches ++ [mismatch]).take mismatchLimit },
        if verdict.mismatchCount = 0 then [mismatch.warning] else []⟩ := by
  unfold difference? at h
  split at h
  · contradiction
  · rename_i hline
    obtain rfl := Option.some.inj h
    -- Keeping a mismatch if there is room is the same as cutting the longer list at the limit.
    have hroom : (if verdict.mismatches.length < mismatchLimit then
          verdict.mismatches ++ [Mismatch.mk pair.2 pair.1.1 pair.1.2]
        else verdict.mismatches) =
        (verdict.mismatches ++ [Mismatch.mk pair.2 pair.1.1 pair.1.2]).take mismatchLimit := by
      split
      · rename_i hlt
        rw [List.take_of_length_le]
        rw [List.length_append]
        exact hlt
      · rename_i hge
        have hfull : verdict.mismatches.length = mismatchLimit := by omega
        rw [← hfull, List.take_left]
    unfold note
    simp only [if_neg hline, hroom]
    split <;> rfl

/-- The start of a list does not change if what follows is put after that start. -/
theorem take_take_append {α : Type} (n : Nat) (before after : List α) :
    (before.take n ++ after).take n = (before ++ after).take n := by
  have hrest : n - min n before.length = n - before.length := by omega
  rw [List.take_append, List.take_append, List.take_take, Nat.min_self, List.length_take, hrest]

/-- Further positions add their agreements and mismatches to a verdict. The first of their
mismatches is reported, unless there was one before them. -/
theorem foldl_note (pairs : List ((Outcome × Outcome) × Nat)) (verdict : Verdict)
    (events : List Event) (h : verdict.mismatches.length ≤ mismatchLimit) :
    pairs.foldl (fun verdict pair => do (← verdict).note pair.2 pair.1.1 pair.1.2)
        (⟨verdict, events⟩ : Logged Verdict) =
      ⟨{ verdict with
          matched := verdict.matched + (pairs.length - (pairs.filterMap difference?).length)
          mismatchCount := verdict.mismatchCount + (pairs.filterMap difference?).length
          mismatches := (verdict.mismatches ++ pairs.filterMap difference?).take mismatchLimit },
        events ++
          if verdict.mismatchCount = 0 then warnings (pairs.filterMap difference?) else []⟩ := by
  induction pairs generalizing verdict events with
  | nil => simp [List.take_of_length_le h, warnings]
  | cons pair pairs ih =>
    have hle := List.length_filterMap_le difference? pairs
    have hstep : (do (← (⟨verdict, events⟩ : Logged Verdict)).note pair.2 pair.1.1 pair.1.2) =
        (⟨(verdict.note pair.2 pair.1.1 pair.1.2).value,
          events ++ (verdict.note pair.2 pair.1.1 pair.1.2).events⟩ : Logged Verdict) := rfl
    rw [List.foldl_cons, hstep]
    cases hpair : difference? pair with
    | none =>
      rw [note_of_none hpair]
      dsimp only
      rw [ih { verdict with matched := verdict.matched + 1 } _ h, List.filterMap_cons_none hpair]
      simp only [List.length_cons, List.append_nil, Logged.mk.injEq, mk.injEq, and_true, true_and]
      omega
    | some mismatch =>
      rw [note_of_some hpair h]
      dsimp only
      rw [ih _ _ (List.length_take_le _ _), List.filterMap_cons_some hpair]
      simp only [List.length_cons, Logged.mk.injEq, mk.injEq, true_and]
      refine ⟨⟨by omega, by omega, ?_⟩, ?_⟩
      · rw [take_take_append, List.append_assoc, List.singleton_append]
      · -- A mismatch was counted, so nothing more is reported.
        rw [if_neg (Nat.succ_ne_zero _), List.append_nil]
        rfl

/-- A verdict holds the lengths of the lists, the number of their mismatches, the first of these and
the number of the positions that agree. The first mismatch is reported on the way to it. -/
theorem verify_eq (expected actual : List Outcome) :
    verify expected actual =
      ⟨{  expectedCount := expected.length
          actualCount := actual.length
          matched := min expected.length actual.length - (differences expected actual).length
          mismatchCount := (differences expected actual).length
          mismatches := (differences expected actual).take mismatchLimit },
        warnings (differences expected actual)⟩ := by
  have hstart := foldl_note (expected.zip actual).zipIdx ⟨expected.length, actual.length, 0, 0, []⟩
    [] (Nat.zero_le _)
  refine hstart.trans ?_
  simp [differences]

/-- The verdict on actual outcomes alone. -/
def compare (expected actual : List Outcome) : Verdict := (verify expected actual).value

/-- What a verdict holds. -/
theorem compare_eq (expected actual : List Outcome) :
    compare expected actual =
      { expectedCount := expected.length
        actualCount := actual.length
        matched := min expected.length actual.length - (differences expected actual).length
        mismatchCount := (differences expected actual).length
        mismatches := (differences expected actual).take mismatchLimit } := by
  rw [compare, verify_eq]

/-- Two lists of one length have the same lines exactly when they have no differences. -/
theorem differences_eq_nil_iff {expected actual : List Outcome}
    (h : expected.length = actual.length) :
    differences expected actual = [] ↔ expected.map Outcome.line = actual.map Outcome.line := by
  have hzip : differences expected actual = [] ↔
      ∀ pair ∈ expected.zip actual, pair.1.line = pair.2.line := by
    rw [← List.zipIdx_map_fst 0 (expected.zip actual), List.forall_mem_map]
    simp [differences, difference?]
  rw [hzip]
  -- The positions are gone, so the induction can go through both lists at once.
  clear hzip
  induction expected generalizing actual with
  | nil => cases actual <;> simp_all
  | cons outcome expected ih =>
    cases actual with
    | nil => contradiction
    | cons outcome' actual =>
      have htail : expected.length = actual.length := Nat.succ.inj h
      rw [List.zip_cons_cons, List.forall_mem_cons, List.map_cons, List.map_cons, List.cons.injEq]
      exact and_congr_right fun _ => ih htail

/-- A trial passes exactly when the two lists of outcomes have the same lines. -/
theorem passed_compare_iff {expected actual : List Outcome} :
    (compare expected actual).passed = true ↔
      expected.map Outcome.line = actual.map Outcome.line := by
  rw [compare_eq, passed, Bool.and_eq_true, beq_iff_eq, beq_iff_eq]
  simp only [List.length_eq_zero_iff]
  constructor
  · rintro ⟨hlength, hnil⟩
    exact (differences_eq_nil_iff hlength).mp hnil
  · intro hlines
    have hlength : expected.length = actual.length := by
      simpa using congrArg List.length hlines
    exact ⟨hlength, (differences_eq_nil_iff hlength).mpr hlines⟩

/-- The verdict on `count` outcomes all of which agree. -/
def agreement (count : Nat) : Verdict := ⟨count, count, count, 0, []⟩

/-- Lists with the same lines agree everywhere. -/
theorem compare_of_map_line_eq {expected actual : List Outcome}
    (h : expected.map Outcome.line = actual.map Outcome.line) :
    compare expected actual = agreement expected.length := by
  have hlength : expected.length = actual.length := by
    simpa using congrArg List.length h
  rw [compare_eq, (differences_eq_nil_iff hlength).mpr h, ← hlength]
  simp [agreement]

/-- A trial in which everything agrees passes. -/
theorem passed_agreement (count : Nat) : (agreement count).passed = true := by
  simp [agreement, passed]

/-- The report on a trial in which everything agrees has one line. -/
theorem report_agreement (count : Nat) :
    (agreement count).report = s!"PASS: {count} of {count} results match" := by
  have hline : (agreement count).reportLines = [s!"PASS: {count} of {count} results match"] := by
    unfold reportLines
    simp only [passed_agreement, if_true]
    simp [agreement, toString, String.append_assoc]
  rw [report, hline, String.intercalate_singleton]

end Verdict

end StoreTrial
