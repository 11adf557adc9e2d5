import StoreTrial.Proofs.Trial.Scoring
import StoreTrial.Proofs.Verdict.Positions

/-!
# The report on a verdict adds up

The report for people is looked at as its readers see it: as the rows between its line feeds.
`listedNumber?` reads from a row the number of the operation that it lists, and `unlistedNumber?`
the number of mismatches that it says are not listed. Every row starts with a label, and no label
starts another one, so each of the two reads the rows that were written for it and no others,
whatever texts the rows quote (`filterMap_listedNumber?`, `filterMap_unlistedNumber?`). A quoted
text with a line feed in it would break its row in two; the outcomes of streams have none. The main
statement is `report_adds_up`.
-/

namespace StoreTrial

open Text

/-- Each outcome has a line without a line feed in it, so that a report quotes it within one row. -/
def SingleLined (outcomes : List Outcome) : Prop :=
  ∀ outcome ∈ outcomes, '\n' ∉ outcome.line.toList

namespace Verdict

/-! ## Reading rows -/

/-- The number in decimal digits behind `label`, if the row starts with `label`. -/
def numberAfter? (label : String) (row : List Char) : Option Nat :=
  if label.toList <+: row then
    some (Nat.ofDigitChars 10 ((row.drop label.toList.length).takeWhile Char.isDigit) 0)
  else none

/-- The number of the operation that a row lists, if it lists one. -/
def listedNumber? (row : List Char) : Option Nat := numberAfter? "  operation " row

/-- The number of mismatches that a row says are not listed, if it says so. -/
def unlistedNumber? (row : List Char) : Option Nat := numberAfter? "  ... " row

/-- The number behind a label is read up to its last digit. -/
theorem numberAfter?_append (label : String) (n : Nat) {rest : List Char}
    (h : ∀ c ∈ rest.head?, c.isDigit = false) :
    numberAfter? label (label.toList ++ (Nat.toDigits 10 n ++ rest)) = some n := by
  have hdigits : ∀ c ∈ Nat.toDigits 10 n, c.isDigit = true := fun c hc =>
    Nat.isDigit_of_mem_toDigits (by decide) (by decide) hc
  have hrest : rest.takeWhile Char.isDigit = [] := by
    cases rest with
    | nil => rfl
    | cons c rest => rw [List.takeWhile_cons_of_neg (by simp [h c rfl])]
  unfold numberAfter?
  rw [if_pos (List.prefix_append _ _), List.drop_left, List.takeWhile_append_of_pos hdigits, hrest,
    List.append_nil, Nat.ofDigitChars_ten_toDigits]

/-- Nothing is read behind a label from rows with another label, if neither of the two starts the
other. -/
theorem filterMap_numberAfter?_eq_nil {label other : String}
    (h : ¬ label.toList <+: other.toList ∧ ¬ other.toList <+: label.toList)
    {rows : List (List Char)} (hrows : ∀ row ∈ rows, other.toList <+: row) :
    rows.filterMap (numberAfter? label) = [] := by
  rw [List.filterMap_eq_nil_iff]
  intro row hrow
  unfold numberAfter?
  rw [if_neg]
  intro hlabel
  rcases List.prefix_or_prefix_of_prefix hlabel (hrows row hrow) with hstart | hstart
  · exact h.1 hstart
  · exact h.2 hstart

/-! ## The lines of a report -/

/-- The line that lists a mismatch. Operations are numbered from 1. -/
def mismatchLine (mismatch : Mismatch) : String :=
  s!"  operation {mismatch.index + 1}: expected {mismatch.expected.line}, " ++
    s!"got {mismatch.actual.line}"

/-- The number of an operation is read from the line that lists it. -/
theorem listedNumber?_mismatchLine (mismatch : Mismatch) :
    listedNumber? (mismatchLine mismatch).toList = some (mismatch.index + 1) := by
  have hcolon : ∀ rest, ∀ c ∈ (": expected ".toList ++ rest).head?, c.isDigit = false := by
    rintro rest _ ⟨⟩
    rfl
  unfold mismatchLine
  simp only [String.toList_append, toString, Nat.toList_repr, List.append_assoc]
  exact numberAfter?_append "  operation " _ (hcolon _)

/-- A text that is put together of two has no line feed exactly if neither of them has. -/
theorem lineFeed_notMem_append {text text' : String} :
    '\n' ∉ (text ++ text').toList ↔ '\n' ∉ text.toList ∧ '\n' ∉ text'.toList := by
  rw [String.toList_append, List.mem_append, not_or]

/-- There is no line feed in the digits of a number. -/
theorem lineFeed_notMem_toString (n : Nat) : '\n' ∉ (toString n).toList := by
  rw [Nat.toString_eq_repr, Nat.toList_repr]
  exact (unbroken_toDigits n).lineFeed_notMem

section

variable {verdict : Verdict}

/-- The line about the lengths of the two lists, if they differ. -/
def countLines (verdict : Verdict) : List String :=
  if verdict.expectedCount = verdict.actualCount then []
  else [s!"  count mismatch: expected {verdict.expectedCount}, got {verdict.actualCount}"]

/-- The line about the mismatches that are not listed, if there are any. -/
def unlistedLines (verdict : Verdict) : List String :=
  let unlisted := verdict.mismatchCount - verdict.mismatches.length
  if unlisted = 0 then [] else [s!"  ... {unlisted} more mismatches"]

/-- A report is one line with the word for success, or it starts with the one for failure. -/
theorem reportLines_eq (verdict : Verdict) :
    ∃ agreement : String, '\n' ∉ agreement.toList ∧ verdict.reportLines =
      if verdict.passed then ["PASS: " ++ agreement]
      else ("FAIL: " ++ agreement) ::
        (verdict.countLines ++ (verdict.mismatches.map mismatchLine ++ verdict.unlistedLines)) := by
  refine ⟨s!"{verdict.matched} of {verdict.expectedCount} results match", ?_, ?_⟩
  · simp only [lineFeed_notMem_append, lineFeed_notMem_toString, not_false_eq_true, true_and]
    decide
  · unfold reportLines
    cases verdict.passed with
    | true => rfl
    | false =>
      rw [← List.append_assoc]
      rfl

/-- No line of a report has a line feed in it if the texts that it quotes have none. -/
theorem lineFeed_notMem_reportLines
    (h : ∀ mismatch ∈ verdict.mismatches,
      '\n' ∉ mismatch.expected.line.toList ∧ '\n' ∉ mismatch.actual.line.toList) :
    ∀ line ∈ verdict.reportLines, '\n' ∉ line.toList := by
  obtain ⟨agreement, hagreement, hlines⟩ := verdict.reportLines_eq
  have hcounts : ∀ line ∈ verdict.countLines, '\n' ∉ line.toList := by
    unfold countLines
    split
    · exact fun _ hline => absurd hline List.not_mem_nil
    · rw [List.forall_mem_singleton]
      simp only [lineFeed_notMem_append, lineFeed_notMem_toString, not_false_eq_true, and_true]
      decide
  have hlisted : ∀ line ∈ verdict.mismatches.map mismatchLine, '\n' ∉ line.toList := by
    rw [List.forall_mem_map]
    intro mismatch hmem
    have hexpected : '\n' ∉ (toString mismatch.expected.line).toList := (h mismatch hmem).1
    have hactual : '\n' ∉ (toString mismatch.actual.line).toList := (h mismatch hmem).2
    unfold mismatchLine
    simp only [lineFeed_notMem_append, lineFeed_notMem_toString, hexpected, hactual,
      not_false_eq_true, and_true]
    decide
  have hunlisted : ∀ line ∈ verdict.unlistedLines, '\n' ∉ line.toList := by
    unfold unlistedLines
    simp only
    split
    · exact fun _ hline => absurd hline List.not_mem_nil
    · rw [List.forall_mem_singleton]
      simp only [lineFeed_notMem_append, lineFeed_notMem_toString, not_false_eq_true, and_true]
      decide
  rw [hlines]
  split
  · rw [List.forall_mem_singleton]
    exact lineFeed_notMem_append.mpr ⟨by decide, hagreement⟩
  · rw [List.forall_mem_cons, List.forall_mem_append, List.forall_mem_append]
    exact ⟨lineFeed_notMem_append.mpr ⟨by decide, hagreement⟩, hcounts, hlisted, hunlisted⟩

/-- The rows of a report are its lines if the texts that it quotes have no line feeds in them. -/
theorem splitOn_report
    (h : ∀ mismatch ∈ verdict.mismatches,
      '\n' ∉ mismatch.expected.line.toList ∧ '\n' ∉ mismatch.actual.line.toList) :
    verdict.report.toList.splitOn '\n' = verdict.reportLines.map String.toList := by
  obtain ⟨agreement, -, hlines⟩ := verdict.reportLines_eq
  have hne : verdict.reportLines ≠ [] := by
    rw [hlines]
    split <;> exact List.cons_ne_nil _ _
  rw [report, String.toList_intercalate]
  exact List.splitOn_intercalate '\n'
    (List.forall_mem_map.mpr (lineFeed_notMem_reportLines h)) (by simpa using hne)

/-- A report starts with the word for how the trial ended. -/
theorem exists_report_eq (verdict : Verdict) :
    ∃ rest, verdict.report.toList =
      (if verdict.passed then "PASS".toList else "FAIL".toList) ++ rest := by
  obtain ⟨agreement, -, hlines⟩ := verdict.reportLines_eq
  have hpass : "PASS: ".toList = "PASS".toList ++ ": ".toList := by decide
  have hfail : "FAIL: ".toList = "FAIL".toList ++ ": ".toList := by decide
  rw [report, hlines]
  cases verdict.passed with
  | true =>
    refine ⟨": ".toList ++ agreement.toList, ?_⟩
    rw [if_pos rfl, if_pos rfl, String.intercalate_singleton, String.toList_append, hpass,
      List.append_assoc]
  | false =>
    rw [if_neg Bool.false_ne_true, if_neg Bool.false_ne_true]
    refine ⟨": ".toList ++ ("\n".intercalate (agreement :: (verdict.countLines ++
      (verdict.mismatches.map mismatchLine ++ verdict.unlistedLines)))).toList, ?_⟩
    rw [String.intercalate_cons_append, String.toList_append, hfail, List.append_assoc]

/-- A report starts with one word exactly if the trial passed, and with the other exactly if it did
not. -/
theorem prefix_report_iff (verdict : Verdict) :
    ("PASS".toList <+: verdict.report.toList ↔ verdict.passed = true) ∧
      ("FAIL".toList <+: verdict.report.toList ↔ verdict.passed = false) := by
  obtain ⟨rest, hrest⟩ := verdict.exists_report_eq
  have hword : ∀ word : String, word.toList <+: word.toList ++ rest :=
    fun word => List.prefix_append _ rest
  -- Of two words of one length, only the one that is there starts the report.
  have hother : ∀ word word' : String, word'.toList.length = word.toList.length →
      word' ≠ word → ¬ word'.toList <+: word.toList ++ rest := by
    intro word word' hlength hne hprefix
    have hstart := List.prefix_of_prefix_length_le hprefix (hword word) (Nat.le_of_eq hlength)
    exact hne (String.toList_inj.mp (hstart.eq_of_length hlength))
  have hlength : "PASS".toList.length = "FAIL".toList.length := by decide
  have hne : "PASS" ≠ "FAIL" := by decide
  rw [hrest]
  cases verdict.passed with
  | true =>
    rw [if_pos rfl]
    exact ⟨iff_of_true (hword "PASS") rfl,
      iff_of_false (hother "PASS" "FAIL" hlength.symm hne.symm) Bool.noConfusion⟩
  | false =>
    rw [if_neg Bool.false_ne_true]
    exact ⟨iff_of_false (hother "FAIL" "PASS" hlength hne) Bool.false_ne_true,
      iff_of_true (hword "FAIL") rfl⟩

/-! ## The numbers in a report -/

/-- The row about the lengths of the lists starts with its label. -/
theorem prefix_countLines (verdict : Verdict) : ∀ row ∈ verdict.countLines.map String.toList,
    "  count mismatch: expected ".toList <+: row := by
  unfold countLines
  split
  · exact fun _ hrow => absurd hrow List.not_mem_nil
  · rw [List.map_singleton, List.forall_mem_singleton]
    simp only [String.toList_append, toString, List.append_assoc]
    exact List.prefix_append _ _

/-- The rows that list mismatches start with their label. -/
theorem prefix_mismatchLine (mismatches : List Mismatch) :
    ∀ row ∈ (mismatches.map mismatchLine).map String.toList, "  operation ".toList <+: row := by
  rw [List.forall_mem_map, List.forall_mem_map]
  intro mismatch _
  unfold mismatchLine
  simp only [String.toList_append, toString, List.append_assoc]
  exact List.prefix_append _ _

/-- The row about mismatches that are not listed starts with its label. -/
theorem prefix_unlistedLines (verdict : Verdict) :
    ∀ row ∈ verdict.unlistedLines.map String.toList, "  ... ".toList <+: row := by
  unfold unlistedLines
  simp only
  split
  · exact fun _ hrow => absurd hrow List.not_mem_nil
  · rw [List.map_singleton, List.forall_mem_singleton]
    simp only [String.toList_append, toString, List.append_assoc]
    exact List.prefix_append _ _

/-- What is read behind a label from a report: nothing if the trial passed, and otherwise what is
read from the rows that list mismatches and from the one about those that are not listed. -/
theorem filterMap_numberAfter?_reportLines (verdict : Verdict) (label : String)
    (hpass : ¬ label.toList <+: "PASS: ".toList ∧ ¬ "PASS: ".toList <+: label.toList)
    (hfail : ¬ label.toList <+: "FAIL: ".toList ∧ ¬ "FAIL: ".toList <+: label.toList)
    (hcount : ¬ label.toList <+: "  count mismatch: expected ".toList ∧
      ¬ "  count mismatch: expected ".toList <+: label.toList) :
    (verdict.reportLines.map String.toList).filterMap (numberAfter? label) =
      if verdict.passed then []
      else
        ((verdict.mismatches.map mismatchLine).map String.toList).filterMap (numberAfter? label) ++
          (verdict.unlistedLines.map String.toList).filterMap (numberAfter? label) := by
  obtain ⟨agreement, -, hlines⟩ := verdict.reportLines_eq
  have hfirst : ∀ word : String,
      ∀ row ∈ [word ++ agreement].map String.toList, word.toList <+: row := by
    intro word
    rw [List.map_singleton, List.forall_mem_singleton, String.toList_append]
    exact List.prefix_append _ _
  rw [hlines]
  split
  · exact filterMap_numberAfter?_eq_nil hpass (hfirst _)
  · rw [← List.singleton_append, List.map_append, List.map_append, List.map_append,
      List.filterMap_append, List.filterMap_append, List.filterMap_append,
      filterMap_numberAfter?_eq_nil hfail (hfirst _),
      filterMap_numberAfter?_eq_nil hcount (prefix_countLines verdict), List.nil_append,
      List.nil_append]

/-- The operations that a report lists are those of the mismatches that the verdict keeps. -/
theorem filterMap_listedNumber? (verdict : Verdict) :
    (verdict.reportLines.map String.toList).filterMap listedNumber? =
      if verdict.passed then [] else verdict.mismatches.map (·.index + 1) := by
  have hlisted : ((verdict.mismatches.map mismatchLine).map String.toList).filterMap listedNumber? =
      verdict.mismatches.map (·.index + 1) := by
    have hnumber : listedNumber? ∘ String.toList ∘ mismatchLine = some ∘ (·.index + 1) := by
      funext mismatch
      simp only [Function.comp_apply, listedNumber?_mismatchLine]
    rw [List.map_map, List.filterMap_map, hnumber, List.filterMap_eq_map]
  have hunlisted : (verdict.unlistedLines.map String.toList).filterMap listedNumber? = [] :=
    filterMap_numberAfter?_eq_nil (by decide) (prefix_unlistedLines verdict)
  have hread := verdict.filterMap_numberAfter?_reportLines "  operation " (by decide) (by decide)
    (by decide)
  unfold listedNumber? at *
  rw [hread, hlisted, hunlisted, List.append_nil]

/-- A report says how many mismatches it does not list, if it does not list all of them. -/
theorem filterMap_unlistedNumber? (verdict : Verdict) :
    (verdict.reportLines.map String.toList).filterMap unlistedNumber? =
      if verdict.passed then []
      else if verdict.mismatchCount - verdict.mismatches.length = 0 then []
      else [verdict.mismatchCount - verdict.mismatches.length] := by
  have hlisted :
      ((verdict.mismatches.map mismatchLine).map String.toList).filterMap unlistedNumber? = [] :=
    filterMap_numberAfter?_eq_nil (by decide) (prefix_mismatchLine verdict.mismatches)
  have hspace : ∀ c ∈ " more mismatches".toList.head?, c.isDigit = false := by
    rintro _ ⟨⟩
    rfl
  have hunlisted : (verdict.unlistedLines.map String.toList).filterMap unlistedNumber? =
      if verdict.mismatchCount - verdict.mismatches.length = 0 then []
      else [verdict.mismatchCount - verdict.mismatches.length] := by
    unfold unlistedLines
    simp only
    split
    · rfl
    · simp only [List.map_cons, List.map_nil, String.toList_append, toString, Nat.toList_repr,
        List.append_assoc]
      exact List.filterMap_cons_some (numberAfter?_append "  ... " _ hspace)
  have hread := verdict.filterMap_numberAfter?_reportLines "  ... " (by decide) (by decide)
    (by decide)
  unfold unlistedNumber? at *
  rw [hread, hlisted, hunlisted, List.nil_append]

end

/-- A report on a trial that did not pass has its first line, one for each mismatch that the verdict
keeps, and one each for lengths that differ and for mismatches that are not listed. -/
theorem length_reportLines (verdict : Verdict) :
    verdict.reportLines.length =
      if verdict.passed then 1
      else 1 + (if verdict.expectedCount = verdict.actualCount then 0 else 1) +
        verdict.mismatches.length +
        if verdict.mismatchCount - verdict.mismatches.length = 0 then 0 else 1 := by
  obtain ⟨agreement, -, hlines⟩ := verdict.reportLines_eq
  have hcounts : verdict.countLines.length =
      if verdict.expectedCount = verdict.actualCount then 0 else 1 := by
    unfold countLines
    split <;> rfl
  have hunlisted : verdict.unlistedLines.length =
      if verdict.mismatchCount - verdict.mismatches.length = 0 then 0 else 1 := by
    unfold unlistedLines
    simp only
    split <;> rfl
  rw [hlines]
  cases verdict.passed with
  | true => rfl
  | false =>
    rw [if_neg Bool.false_ne_true, if_neg Bool.false_ne_true, List.length_cons, List.length_append,
      List.length_append, List.length_map, hcounts, hunlisted]
    omega

/-! ## The report on a comparison -/

section

variable {expected actual : List Outcome}

/-- The report on a comparison of outcomes without line feeds has its lines as rows. -/
theorem rows_report (hexpected : SingleLined expected) (hactual : SingleLined actual) :
    (compare expected actual).report.toList.splitOn '\n' =
      (compare expected actual).reportLines.map String.toList :=
  splitOn_report fun _ hmem =>
    ⟨hexpected _ (mem_of_mem_mismatches hmem).1, hactual _ (mem_of_mem_mismatches hmem).2⟩

/-- A verdict keeps its mismatches up to the limit. -/
theorem length_mismatches (expected actual : List Outcome) :
    (compare expected actual).mismatches.length =
      min (compare expected actual).mismatchCount 100 := by
  rw [compare_eq, List.length_take]
  exact Nat.min_comm _ _

/-- The numbers of the mismatches that a verdict keeps are those of the first positions at which the
lines differ. -/
theorem map_index_mismatches (expected actual : List Outcome) :
    (compare expected actual).mismatches.map (·.index + 1) =
      ((differing expected actual).take 100).map (· + 1) := by
  have hsplit : ∀ mismatches : List Mismatch,
      mismatches.map (·.index + 1) = (mismatches.map Mismatch.index).map (· + 1) := by
    intro mismatches
    rw [List.map_map]
    rfl
  rw [hsplit, compare_eq, List.map_take, map_index_differences]
  rfl

/-- Where a trial passes, no position is one at which the lines differ. -/
theorem differing_eq_nil_of_passed (h : (compare expected actual).passed = true) :
    differing expected actual = [] := by
  have hlines := passed_compare_iff.mp h
  have hlength : expected.length = actual.length := by
    simpa using congrArg List.length hlines
  rw [← List.length_eq_zero_iff, ← length_differences, (differences_eq_nil_iff hlength).mpr hlines]
  rfl

/-- The operations that the report lists are the first ones at which the lines differ. -/
theorem listedNumbers_eq (hexpected : SingleLined expected) (hactual : SingleLined actual) :
    ((compare expected actual).report.toList.splitOn '\n').filterMap listedNumber? =
      ((differing expected actual).take 100).map (· + 1) := by
  rw [rows_report hexpected hactual, filterMap_listedNumber?]
  split
  · rename_i hpassed
    rw [differing_eq_nil_of_passed hpassed]
    rfl
  · exact map_index_mismatches expected actual

/-- The report says how many mismatches it does not list if there are more than a hundred. -/
theorem unlistedNumbers_eq (hexpected : SingleLined expected) (hactual : SingleLined actual) :
    ((compare expected actual).report.toList.splitOn '\n').filterMap unlistedNumber? =
      if 100 < (compare expected actual).mismatchCount then
        [(compare expected actual).mismatchCount - 100]
      else [] := by
  have hkept := length_mismatches expected actual
  have hcount : (compare expected actual).passed = true →
      (compare expected actual).mismatchCount = 0 := by
    intro hpassed
    rw [compare_eq, length_differences, differing_eq_nil_of_passed hpassed]
    rfl
  rw [rows_report hexpected hactual, filterMap_unlistedNumber?]
  split
  · rename_i hpassed
    rw [hcount hpassed, if_neg (by decide)]
  · split
    · rw [if_neg (by omega)]
    · rw [if_pos (by omega)]
      congr 1
      omega

/-- A report has as many rows as it has lines. -/
theorem length_rows (hexpected : SingleLined expected) (hactual : SingleLined actual) :
    ((compare expected actual).report.toList.splitOn '\n').length =
      if (compare expected actual).passed then 1
      else 1 + (if (compare expected actual).expectedCount = (compare expected actual).actualCount
          then 0 else 1) +
        min (compare expected actual).mismatchCount 100 +
        if 100 < (compare expected actual).mismatchCount then 1 else 0 := by
  have hkept := length_mismatches expected actual
  have hmore : ((compare expected actual).mismatchCount -
      (compare expected actual).mismatches.length = 0) ↔
        ¬ 100 < (compare expected actual).mismatchCount := by omega
  rw [rows_report hexpected hactual, List.length_map, length_reportLines, hkept]
  simp only [← hkept, hmore, ite_not]

end

end Verdict

/-- The report for people adds up. On outcomes without line feeds, it has one row if the trial
passed. Otherwise it has one row more than that for lengths that differ, one for each mismatch up to
a hundred of them, and one if there are more. It starts with the word for how the trial ended. The
operations that it lists are the first hundred at which the lines differ, by their numbers counted
from 1 and in ascending order. It says how many mismatches it does not list if there are more than a
hundred, and never otherwise; with the listed ones, they are all mismatches. The verdict keeps no
more mismatches than it counts, so what is not listed is no negative number. Outcomes that were read
from a stream, and those of a replay of operations that were read from one, have no line feeds. -/
theorem report_adds_up :
    (∀ expected actual, SingleLined expected → SingleLined actual →
      let verdict := (verify expected actual).value
      let rows := verdict.report.toList.splitOn '\n'
      let listed := rows.filterMap Verdict.listedNumber?
      let unlisted := rows.filterMap Verdict.unlistedNumber?
      rows.length = (if verdict.passed then 1
        else 1 + (if verdict.expectedCount = verdict.actualCount then 0 else 1) +
          min verdict.mismatchCount 100 + if 100 < verdict.mismatchCount then 1 else 0) ∧
      ("PASS".toList <+: verdict.report.toList ↔ verdict.passed = true) ∧
      ("FAIL".toList <+: verdict.report.toList ↔ verdict.passed = false) ∧
      listed = ((Verdict.differing expected actual).take 100).map (· + 1) ∧
      listed.Pairwise (· < ·) ∧
      unlisted = (if 100 < verdict.mismatchCount then [verdict.mismatchCount - 100] else []) ∧
      listed.length + unlisted.headD 0 = verdict.mismatchCount ∧
      verdict.mismatches.length ≤ verdict.mismatchCount) ∧
    (∀ text outcomes, OutcomeStream.decode text = .ok outcomes → SingleLined outcomes.entries) ∧
    (∀ text operations, OperationStream.decode text = .ok operations →
      SingleLined (replay operations.entries).value) := by
  refine ⟨fun expected actual hexpected hactual => ?_, ?_, ?_⟩
  · have hverdict : (verify expected actual).value = Verdict.compare expected actual := rfl
    have hlisted := Verdict.listedNumbers_eq hexpected hactual
    have hunlisted := Verdict.unlistedNumbers_eq hexpected hactual
    have hkept := Verdict.length_mismatches expected actual
    have hcount : (Verdict.compare expected actual).mismatchCount =
        (Verdict.differing expected actual).length := by
      rw [Verdict.compare_eq, Verdict.length_differences]
    simp only [hverdict, hlisted, hunlisted]
    refine ⟨Verdict.length_rows hexpected hactual, (Verdict.prefix_report_iff _).1,
      (Verdict.prefix_report_iff _).2, trivial, ?_, trivial, ?_, by omega⟩
    · rw [List.pairwise_map]
      refine ((Verdict.pairwise_differing expected actual).sublist (List.take_sublist _ _)).imp ?_
      exact fun hlt => Nat.add_lt_add_right hlt 1
    · rw [List.length_map, List.length_take, ← hcount]
      split
      · rw [List.headD_cons]
        omega
      · rw [List.headD_nil]
        omega
  · exact fun text outcomes hdecode => OutcomeStream.lineFeed_notMem_of_decode hdecode
  · intro text operations hdecode outcome houtcome
    have hwritable := OperationStream.writable_of_decode hdecode
    exact (unbroken_line_of_replay hwritable outcome houtcome).lineFeed_notMem

/-- Of 102 operations, 101 were answered, and all of them wrongly: the report lists a hundred of the
mismatches and says that there is one more. -/
theorem report_of_hundred_and_one :
    let expected := List.replicate 102 Outcome.success
    let actual := List.replicate 101 Outcome.notFound
    let rows := (verify expected actual).value.report.toList.splitOn '\n'
    SingleLined expected ∧ SingleLined actual ∧ rows.length = 103 ∧
      rows.filterMap Verdict.listedNumber? = (List.range 100).map (· + 1) ∧
      rows.filterMap Verdict.unlistedNumber? = [1] := by
  intro expected actual rows
  have hexpected : SingleLined expected := by
    intro outcome houtcome
    rw [List.eq_of_mem_replicate houtcome]
    decide
  have hactual : SingleLined actual := by
    intro outcome houtcome
    rw [List.eq_of_mem_replicate houtcome]
    decide
  have hcount : (verify expected actual).value.mismatchCount = 101 := by decide +kernel
  obtain ⟨hlength, -, -, hlisted, -, hunlisted, -, -⟩ :=
    report_adds_up.1 expected actual hexpected hactual
  refine ⟨hexpected, hactual, ?_, ?_, ?_⟩
  · rw [hlength, hcount]
    decide +kernel
  · rw [hlisted]
    decide +kernel
  · rw [hunlisted, hcount]
    rfl

end StoreTrial
