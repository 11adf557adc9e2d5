import StoreTrial.Proofs.Verdict.Comparison

/-!
# The verdict by positions

What a verdict holds can be told from the two lists without going through them in turn: `differing`
are the positions that both lists have and at which their lines differ, and `mismatchAt?` is what
stands at a position in both. The differences that the comparison collects are what stands at those
positions (`map_some_differences`), so all parts of a verdict, and the warning that goes with it,
follow from the positions alone (`verify_eq_reference`).
-/

namespace StoreTrial

namespace Verdict

/-- `differsAt expected actual i` is true if the lines at position `i` differ. -/
def differsAt (expected actual : List Outcome) (i : Nat) : Bool :=
  expected[i]?.map Outcome.line != actual[i]?.map Outcome.line

/-- The positions that both lists have and at which their lines differ, in ascending order. -/
def differing (expected actual : List Outcome) : List Nat :=
  (List.range (min expected.length actual.length)).filter (differsAt expected actual)

/-- What stands in both lists at position `i`, if both have that position. -/
def mismatchAt? (expected actual : List Outcome) (i : Nat) : Option Mismatch := do
  return ⟨i, ← expected[i]?, ← actual[i]?⟩

/-- Numbered entries are the entries at each position, with the position. -/
theorem map_some_zipIdx {α : Type} (l : List α) :
    l.zipIdx.map some = (List.range l.length).map fun i => l[i]?.map (·, i) := by
  apply List.ext_getElem?
  intro i
  rw [List.getElem?_map, List.getElem?_zipIdx, List.getElem?_map, Nat.zero_add]
  rcases Nat.lt_or_ge i l.length with hi | hi
  · rw [List.getElem?_range hi, Option.map_some, List.getElem?_eq_getElem hi]
    rfl
  · rw [List.getElem?_eq_none hi, List.getElem?_eq_none (by rwa [List.length_range])]
    rfl

/-- What the comparison finds at a position: what stands there, if the lines differ. -/
def found? (expected actual : List Outcome) (i : Nat) : Option Mismatch :=
  ((expected.zip actual)[i]?.map (·, i)).bind difference?

/-- At a position that both lists have, the comparison finds a mismatch if the lines differ. -/
theorem found?_of_lt {expected actual : List Outcome} {i : Nat}
    (h : i < min expected.length actual.length) :
    found? expected actual i =
      if differsAt expected actual i then mismatchAt? expected actual i else none := by
  have hexpected : i < expected.length := by omega
  have hactual : i < actual.length := by omega
  have hzip : (expected.zip actual)[i]? = some (expected[i], actual[i]) := by
    rw [List.getElem?_zip_eq_some]
    exact ⟨List.getElem?_eq_getElem hexpected, List.getElem?_eq_getElem hactual⟩
  unfold found?
  rw [hzip]
  by_cases hline : expected[i].line = actual[i].line
  · simp [difference?, differsAt, hexpected, hactual, hline]
  · simp [difference?, differsAt, mismatchAt?, hexpected, hactual, hline]

/-- Something stands at each position that both lists have. -/
theorem isSome_mismatchAt? {expected actual : List Outcome} {i : Nat}
    (h : i < min expected.length actual.length) : (mismatchAt? expected actual i).isSome := by
  have hexpected : i < expected.length := by omega
  have hactual : i < actual.length := by omega
  simp [mismatchAt?, hexpected, hactual]

/-- The differences of two lists are what stands at the positions at which their lines differ. -/
theorem map_some_differences (expected actual : List Outcome) :
    (differences expected actual).map some =
      (differing expected actual).map (mismatchAt? expected actual) := by
  have hpairs := map_some_zipIdx (expected.zip actual)
  rw [List.length_zip] at hpairs
  have hmem : ∀ i ∈ List.range (min expected.length actual.length),
      i < min expected.length actual.length := fun i hi => List.mem_range.mp hi
  -- The comparison finds something exactly at the positions at which the lines differ.
  have hisSome : ∀ i ∈ List.range (min expected.length actual.length),
      (found? expected actual i).isSome = differsAt expected actual i := by
    intro i hi
    rw [found?_of_lt (hmem i hi)]
    split
    · rename_i hdiffers
      rw [isSome_mismatchAt? (hmem i hi), hdiffers]
    · rename_i hagrees
      rw [Bool.eq_false_iff.mpr hagrees]
      rfl
  have hfound : ∀ i ∈ differing expected actual,
      found? expected actual i = mismatchAt? expected actual i := by
    intro i hi
    obtain ⟨hrange, hdiffers⟩ := List.mem_filter.mp hi
    rw [found?_of_lt (hmem i hrange), if_pos hdiffers]
  calc (differences expected actual).map some
      = ((expected.zip actual).zipIdx.map difference?).filter Option.isSome :=
        List.map_filterMap_some_eq_filter_map_isSome
    _ = (((expected.zip actual).zipIdx.map some).map (·.bind difference?)).filter
          Option.isSome := by
        rw [List.map_map]
        rfl
    _ = ((List.range (min expected.length actual.length)).map (found? expected actual)).filter
          Option.isSome := by
        rw [hpairs, List.map_map]
        rfl
    _ = ((List.range (min expected.length actual.length)).filter fun i =>
          (found? expected actual i).isSome).map (found? expected actual) := by
        rw [List.filter_map]
        rfl
    _ = (differing expected actual).map (found? expected actual) := by
        rw [List.filter_congr hisSome]
        rfl
    _ = (differing expected actual).map (mismatchAt? expected actual) :=
        List.map_congr_left hfound

/-- There are as many differences as positions at which the lines differ. -/
theorem length_differences (expected actual : List Outcome) :
    (differences expected actual).length = (differing expected actual).length := by
  simpa using congrArg List.length (map_some_differences expected actual)

/-- The lines differ at no more positions than both lists have. -/
theorem length_differing_le (expected actual : List Outcome) :
    (differing expected actual).length ≤ min expected.length actual.length := by
  unfold differing
  calc ((List.range (min expected.length actual.length)).filter
        (differsAt expected actual)).length
      ≤ (List.range (min expected.length actual.length)).length := List.length_filter_le _ _
    _ = min expected.length actual.length := List.length_range

/-- What stands at a position is the position with the outcomes of both lists there. -/
theorem mismatchAt?_eq_some_iff {expected actual : List Outcome} {i : Nat} {mismatch : Mismatch} :
    mismatchAt? expected actual i = some mismatch ↔ mismatch.index = i ∧
      expected[i]? = some mismatch.expected ∧ actual[i]? = some mismatch.actual := by
  obtain ⟨index, first, second⟩ := mismatch
  unfold mismatchAt?
  cases expected[i]? with
  | none => simp
  | some first' =>
    cases actual[i]? with
    | none => simp
    | some second' => simp [eq_comm]

/-- The positions of the differences are those at which the lines differ. -/
theorem map_index_differences (expected actual : List Outcome) :
    (differences expected actual).map Mismatch.index = differing expected actual := by
  have hindex : ∀ i ∈ differing expected actual,
      (mismatchAt? expected actual i).map Mismatch.index = some i := by
    intro i hi
    have hrange : i < min expected.length actual.length :=
      List.mem_range.mp (List.mem_filter.mp hi).1
    obtain ⟨mismatch, hmismatch⟩ := Option.isSome_iff_exists.mp (isSome_mismatchAt? hrange)
    rw [hmismatch, Option.map_some, (mismatchAt?_eq_some_iff.mp hmismatch).1]
  refine (List.map_inj_right fun _ _ => Option.some.inj).mp ?_
  calc ((differences expected actual).map Mismatch.index).map some
      = ((differences expected actual).map some).map (·.map Mismatch.index) := by
        rw [List.map_map, List.map_map]
        rfl
    _ = (differing expected actual).map fun i =>
          (mismatchAt? expected actual i).map Mismatch.index := by
        rw [map_some_differences, List.map_map]
        rfl
    _ = (differing expected actual).map some := List.map_congr_left hindex

/-- The positions at which the lines differ are in ascending order. -/
theorem pairwise_differing (expected actual : List Outcome) :
    (differing expected actual).Pairwise (· < ·) :=
  List.pairwise_lt_range.sublist List.filter_sublist

/-- The outcomes of a mismatch are outcomes of the two lists. -/
theorem mem_of_mem_mismatches {expected actual : List Outcome} {mismatch : Mismatch}
    (h : mismatch ∈ (compare expected actual).mismatches) :
    mismatch.expected ∈ expected ∧ mismatch.actual ∈ actual := by
  rw [compare_eq] at h
  have hmem : some mismatch ∈ (differences expected actual).map some :=
    List.mem_map_of_mem (List.mem_of_mem_take h)
  rw [map_some_differences] at hmem
  obtain ⟨i, -, hi⟩ := List.mem_map.mp hmem
  obtain ⟨-, hexpected, hactual⟩ := mismatchAt?_eq_some_iff.mp hi
  exact ⟨List.mem_of_getElem? hexpected, List.mem_of_getElem? hactual⟩

/-- Without positions at which the lines differ there is no warning. -/
theorem warnings_of_differing_eq_nil {expected actual : List Outcome}
    (h : differing expected actual = []) : warnings (differences expected actual) = [] := by
  have hnil : differences expected actual = [] := by
    rw [← List.length_eq_zero_iff, length_differences, h]
    rfl
  rw [hnil]
  rfl

/-- The warning is about the first position at which the lines differ. -/
theorem warnings_of_head?_differing {expected actual : List Outcome} {i : Nat}
    (h : (differing expected actual).head? = some i) :
    ∃ first second, expected[i]? = some first ∧ actual[i]? = some second ∧
      warnings (differences expected actual) = [.firstMismatch i first.line second.line] := by
  have hhead : (differences expected actual).head?.map some =
      (differing expected actual).head?.map (mismatchAt? expected actual) := by
    rw [← List.head?_map, map_some_differences, List.head?_map]
  rw [h, Option.map_some, Option.map_eq_some_iff] at hhead
  obtain ⟨mismatch, hfirst, hmismatch⟩ := hhead
  obtain ⟨rfl, hexpected, hactual⟩ := mismatchAt?_eq_some_iff.mp hmismatch.symm
  refine ⟨mismatch.expected, mismatch.actual, hexpected, hactual, ?_⟩
  rw [warnings, hfirst]
  rfl

end Verdict

/-- A verdict has the lengths of the two lists, the number of the positions of both at which the
lines differ, the number of the other positions of both, and what stands at the first hundred
positions at which the lines differ, in ascending order. A trial passes exactly when the two lists
have the same lines, and then all expected outcomes are matched. There is one warning if the lines
differ anywhere, about the first position at which they do, and none otherwise. -/
theorem verify_eq_reference (expected actual : List Outcome) :
    (verify expected actual).value.expectedCount = expected.length ∧
    (verify expected actual).value.actualCount = actual.length ∧
    (verify expected actual).value.mismatchCount =
      (Verdict.differing expected actual).length ∧
    (verify expected actual).value.matched + (Verdict.differing expected actual).length =
      min expected.length actual.length ∧
    (verify expected actual).value.mismatches.map some =
      ((Verdict.differing expected actual).take 100).map (Verdict.mismatchAt? expected actual) ∧
    ((verify expected actual).value.passed = true ↔
      expected.map Outcome.line = actual.map Outcome.line) ∧
    ((verify expected actual).value.passed = true →
      (verify expected actual).value.matched = (verify expected actual).value.expectedCount) ∧
    ((verify expected actual).events = [] ↔ Verdict.differing expected actual = []) ∧
    ∀ i, (Verdict.differing expected actual).head? = some i →
      ∃ first second, expected[i]? = some first ∧ actual[i]? = some second ∧
        (verify expected actual).events = [.firstMismatch i first.line second.line] := by
  have hverdict : (verify expected actual).value = Verdict.compare expected actual := rfl
  have hevents : (verify expected actual).events =
      Verdict.warnings (Verdict.differences expected actual) := by
    rw [Verdict.verify_eq]
  rw [hverdict, hevents]
  refine ⟨?_, ?_, ?_, ?_, ?_, Verdict.passed_compare_iff, ?_, ?_, ?_⟩
  · rw [Verdict.compare_eq]
  · rw [Verdict.compare_eq]
  · rw [Verdict.compare_eq, Verdict.length_differences]
  · have hle := Verdict.length_differing_le expected actual
    rw [Verdict.compare_eq, Verdict.length_differences]
    exact Nat.sub_add_cancel hle
  · rw [Verdict.compare_eq, List.map_take, Verdict.map_some_differences, ← List.map_take]
    rfl
  · intro hpassed
    rw [Verdict.compare_of_map_line_eq (Verdict.passed_compare_iff.mp hpassed)]
    rfl
  · refine ⟨fun hnone => ?_, Verdict.warnings_of_differing_eq_nil⟩
    refine List.head?_eq_none_iff.mp (Option.eq_none_iff_forall_ne_some.mpr fun i hi => ?_)
    obtain ⟨first, second, -, -, hwarning⟩ := Verdict.warnings_of_head?_differing hi
    rw [hnone] at hwarning
    contradiction
  · exact fun i => Verdict.warnings_of_head?_differing

end StoreTrial
