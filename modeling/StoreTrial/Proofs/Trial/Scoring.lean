import StoreTrial.Proofs.Store.History
import StoreTrial.Proofs.Verdict.Comparison
import StoreTrial.Proofs.Wire.OperationStream
import StoreTrial.Proofs.Wire.OutcomeStream
import StoreTrial.Trial

/-!
# Scoring is exact on text

A trial compares outcomes by their lines, and what it is given are texts. The two views agree
because no line can be split or joined on the way: an outcome that was read from a text is a trimmed
line, and an outcome of a replay is a marker or a text of an operation that was read, so that its
line is unbroken (`unbroken_line_of_replay`). A trial passes exactly when the text of the actual
outcomes is that of the expected ones, that is, when the text under trial announces the number of
operations and each of its lines is the expected one up to the blanks around it
(`passed_iff_text_eq`).
-/

namespace StoreTrial

open Text

/-- The line of an outcome after writable operations is unbroken. -/
theorem unbroken_line_of_outcomeAfter {key : String} {before : List Operation}
    (h : ∀ earlier ∈ before, earlier.Writable) (operation : Operation) :
    Unbroken (operation.outcomeAfter (lastChange? key before)).line.toList := by
  have hsuccess : Unbroken Outcome.success.line.toList := by decide
  have hnotFound : Unbroken Outcome.notFound.line.toList := by decide
  cases operation with
  | write key' value => exact hsuccess
  | read key' =>
    cases hlast : lastChange? key before with
    | none => exact hnotFound
    | some last =>
      cases last with
      | write key'' value =>
        -- The value was a text of the write that left it there.
        have hwrite := h _ (mem_of_lastChange? hlast).1
        exact hwrite (.value, value) (List.mem_cons_of_mem _ (List.mem_singleton_self _))
      | read key'' | delete key'' => exact hnotFound
  | delete key' =>
    cases lastChange? key before with
    | none => exact hnotFound
    | some last =>
      cases last with
      | write key'' value => exact hsuccess
      | read key'' | delete key'' => exact hnotFound

/-- The lines of the outcomes of writable operations on a new store are unbroken. -/
theorem unbroken_line_of_replay {operations : List Operation}
    (h : ∀ operation ∈ operations, operation.Writable) :
    ∀ outcome ∈ (replay operations).value, Unbroken outcome.line.toList := by
  intro outcome houtcome
  have hmem : outcome ∈ operations.mapIdx fun i operation =>
      operation.outcomeAfter (lastChange? operation.key (operations.take i)) := by
    rw [← Store.run_empty_fst_eq_mapIdx]
    exact houtcome
  obtain ⟨i, hi, rfl⟩ := List.mem_mapIdx.mp hmem
  exact unbroken_line_of_outcomeAfter (fun earlier hearlier =>
    h earlier (List.mem_of_mem_take hearlier)) _

/-- A replay has one outcome for each operation. -/
theorem length_replay (operations : List Operation) :
    (replay operations).value.length = operations.length := Store.length_run operations Store.empty

/-- The outcomes that were read from a text have the lines of some outcomes exactly when the text
announces as many and its lines are those lines, up to the blanks around them. -/
theorem map_line_eq_iff_of_decode {text : String} {decoded : Decoded Outcome}
    (h : OutcomeStream.decode text = .ok decoded) (expected : List Outcome) :
    expected.map Outcome.line = decoded.entries.map Outcome.line ↔
      ∃ header body, lines text.toList = header :: body ∧
        Decimal.Denotes (trim header) expected.length ∧
        ∀ i < expected.length,
          body[i]?.map OutcomeStream.trimmed = expected[i]?.map Outcome.line := by
  obtain ⟨body, hframe, hlines⟩ := OutcomeStream.map_line_of_decode h
  obtain ⟨header, htext, hcount, hfits⟩ := hframe
  constructor
  · intro heq
    have hlength : expected.length = decoded.entries.length := by
      simpa using congrArg List.length heq
    refine ⟨header, body, htext, hlength ▸ hcount, fun i hi => ?_⟩
    rw [← List.getElem?_map, ← List.getElem?_map, heq, hlines, ← hlength, List.map_take]
    exact (List.getElem?_take_of_lt hi).symm
  · rintro ⟨header', body', htext', hcount', heq⟩
    rw [htext, List.cons.injEq] at htext'
    obtain ⟨rfl, rfl⟩ := htext'
    -- Both counts are what the one first line denotes.
    have hlength : expected.length = decoded.entries.length := hcount'.unique hcount
    rw [hlines, ← hlength]
    apply List.ext_getElem?
    intro i
    rw [List.map_take]
    by_cases hi : i < expected.length
    · rw [List.getElem?_take_of_lt hi, List.getElem?_map, List.getElem?_map, heq i hi]
    · -- After the announced lines, both lists are at their ends.
      have hge : expected.length ≤ i := Nat.le_of_not_lt hi
      rw [List.getElem?_eq_none (by rwa [List.length_map]),
        List.getElem?_eq_none (Nat.le_trans (List.length_take_le _ _) hge)]

/-- A trial passes if and only if the text of the actual outcomes is the text of the outcomes of a
replay. Equivalently, the first line of the text under trial denotes the number of operations, and
each line after it is, without the blanks around it, the line of the outcome of the replay at its
position, as far as there are operations. -/
theorem passed_iff_text_eq {stream actual : String} {operations : Decoded Operation}
    {outcomes : Decoded Outcome} (hstream : OperationStream.decode stream = .ok operations)
    (hactual : OutcomeStream.decode actual = .ok outcomes) :
    ((verify (replay operations.entries).value outcomes.entries).value.passed = true ↔
      OutcomeStream.encode outcomes.entries =
        OutcomeStream.encode (replay operations.entries).value) ∧
    ((verify (replay operations.entries).value outcomes.entries).value.passed = true ↔
      ∃ header body, lines actual.toList = header :: body ∧
        Decimal.Denotes (trim header) operations.entries.length ∧
        ∀ i < operations.entries.length, body[i]?.map OutcomeStream.trimmed =
          (replay operations.entries).value[i]?.map Outcome.line) := by
  have hpassed : (verify (replay operations.entries).value outcomes.entries).value.passed = true ↔
      (replay operations.entries).value.map Outcome.line = outcomes.entries.map Outcome.line :=
    Verdict.passed_compare_iff
  constructor
  · have hexpected : ∀ outcome ∈ (replay operations.entries).value, '\n' ∉ outcome.line.toList :=
      fun outcome houtcome => (unbroken_line_of_replay
        (OperationStream.writable_of_decode hstream) outcome houtcome).lineFeed_notMem
    have htext := OutcomeStream.encode_eq_encode_iff
      (OutcomeStream.lineFeed_notMem_of_decode hactual) hexpected
    exact hpassed.trans (eq_comm.trans htext.symm)
  · rw [← length_replay operations.entries]
    exact hpassed.trans (map_line_eq_iff_of_decode hactual _)

/-- A value that is spelled like a marker scores against itself, also with blanks around the lines
and with lines after the last one. -/
theorem passed_of_marker_value : ∃ operations outcomes,
    OperationStream.decode "2\n2 A -ERROR-\n1 A\n" = .ok operations ∧
    OutcomeStream.decode "2\n-SUCCESS-\r\n -ERROR- \n\nmore" = .ok outcomes ∧
    (verify (replay operations.entries).value outcomes.entries).value.passed = true := by
  have hstream : OperationStream.decode "2\n2 A -ERROR-\n1 A\n" =
      .ok ⟨[.write "A" "-ERROR-", .read "A"], 0⟩ := rfl
  have hactual : OutcomeStream.decode "2\n-SUCCESS-\r\n -ERROR- \n\nmore" =
      .ok ⟨[.success, .notFound], 1⟩ := rfl
  have hreplay : (replay [.write "A" "-ERROR-", .read "A"]).value =
      [.success, .value "-ERROR-"] :=
    (Store.run_empty_fst_eq_mapIdx [.write "A" "-ERROR-", .read "A"]).trans rfl
  have htext : OutcomeStream.encode [.success, .notFound] =
      OutcomeStream.encode (replay [.write "A" "-ERROR-", .read "A"]).value := by
    rw [hreplay]
    rfl
  exact ⟨_, _, hstream, hactual, (passed_iff_text_eq hstream hactual).1.mpr htext⟩

end StoreTrial
