import StoreTrial.Proofs.Text.Cuts
import StoreTrial.Proofs.Trial.SelfCheck

/-!
# Torn outcomes never pass

What a store answered may reach the trial torn: cut off before the end of its last line, be it
between lines, inside a line or inside the count on the first line. The lines of an expected text
have no blanks in them, so no trimming can hide the cut: a torn text has too few lines, or its last
one is shorter than expected (`exists_line_ne_of_torn`). The trial then stops at the missing line,
or counts other lengths, or finds the short line; it does not pass (`check_torn_not_passed`).
-/

namespace StoreTrial

open Text

/-! ## Torn frames -/

namespace Frame

/-- A torn frame ends within one of its rows, and more than the last line feed is missing. -/
theorem exists_cut_of_torn {entries : List String} {torn missing : List Char}
    (htorn : (encode entries).toList = torn ++ missing ++ ['\n']) (hmissing : missing ≠ []) :
    ∃ before part rest after, rows entries = before ++ (part ++ rest) :: after ∧
      torn = joinLines before ++ part ∧ (rest = [] → after ≠ []) := by
  rw [toList_encode, List.append_assoc] at htorn
  obtain ⟨before, part, rest, after, hsplit, hstart, hrest⟩ := exists_cut htorn (by simp)
  refine ⟨before, part, rest, after, hsplit, hstart, ?_⟩
  rintro rfl rfl
  exact hmissing (List.append_cancel_right hrest)

end Frame

/-! ## The line that gives the cut away -/

/-- A part of a text without blanks is not the whole text if something is missing. -/
theorem trimmed_part_ne {part rest : List Char} {entry : String} (h : Unbroken entry.toList)
    (hentry : entry.toList = part ++ rest) (hrest : rest ≠ []) :
    OutcomeStream.trimmed part ≠ entry := by
  intro heq
  have hblank : ∀ c ∈ part, isBlank c = false := by
    intro c hc
    refine h.2 c ?_
    rw [hentry]
    exact List.mem_append_left _ hc
  have hpart : part = part ++ rest := by
    rw [← hentry, ← heq, OutcomeStream.trimmed, trim_of_not_blank hblank, String.toList_ofList]
  exact hrest (List.self_eq_append_right.mp hpart)

/-- If the cut falls in the count, there are entries, since a count of none has one digit only. -/
theorem length_pos_of_cut {entries : List String} {part rest : List Char}
    (hdigits : Nat.toDigits 10 entries.length = part ++ rest) (hpart : part ≠ [])
    (hleft : rest = [] → entries ≠ []) : 0 < entries.length := by
  refine List.length_pos_iff.mpr fun hnil => ?_
  rw [hnil] at hdigits
  have hone : (part ++ rest).length = 1 := by
    rw [← hdigits]
    rfl
  have hpos : 0 < part.length := List.length_pos_iff.mpr hpart
  rw [List.length_append] at hone
  exact hleft (List.length_eq_zero_iff.mp (by omega)) hnil

/-- If the cut falls in the line of an entry or right after it, that line is shorter than expected,
or the next one is missing. -/
theorem exists_entry_ne_of_cut {entries : List String} {before after : List (List Char)}
    {part rest : List Char} (hentries : ∀ entry ∈ entries, Unbroken entry.toList)
    (hsplit : entries.map String.toList = before ++ (part ++ rest) :: after)
    (hleft : rest = [] → after ≠ []) :
    ∃ i < entries.length, (before ++ (if part = [] then [] else [part]))[i]?.map
      OutcomeStream.trimmed ≠ entries[i]? := by
  have hlength : entries.length = before.length + 1 + after.length := by
    have := congrArg List.length hsplit
    simp only [List.length_map, List.length_append, List.length_cons] at this
    omega
  by_cases hrest : rest = []
  · -- The line in which the cut falls is whole, and the next one is missing.
    have hafter : 0 < after.length := List.length_pos_iff.mpr (hleft hrest)
    have hnext : before.length + 1 < entries.length := by omega
    refine ⟨before.length + 1, hnext, ?_⟩
    rw [List.getElem?_eq_getElem hnext, List.getElem?_eq_none]
    · simp
    · rw [List.length_append]
      split <;> simp
  · -- The line in which the cut falls is shorter than expected, or missing altogether.
    have hat : before.length < entries.length := by omega
    have hentry : entries[before.length].toList = part ++ rest := by
      have := congrArg (·[before.length]?) hsplit
      simp only [List.getElem?_map, List.getElem?_eq_getElem hat, Option.map_some,
        List.getElem?_append_right (Nat.le_refl _), Nat.sub_self, List.getElem?_cons_zero,
        Option.some.injEq] at this
      exact this
    refine ⟨before.length, hat, ?_⟩
    rw [List.getElem?_append_right (Nat.le_refl _), Nat.sub_self, List.getElem?_eq_getElem hat]
    split
    · simp
    · rw [List.getElem?_cons_zero, Option.map_some, ne_eq, Option.some.injEq]
      exact trimmed_part_ne (hentries _ (List.getElem_mem hat)) hentry hrest

/-- A torn text whose entries are unbroken differs from the whole one at the line of some entry,
unless it has no line at all. -/
theorem exists_line_ne_of_torn {entries : List String}
    (hentries : ∀ entry ∈ entries, Unbroken entry.toList) {torn missing : List Char}
    (htorn : (Frame.encode entries).toList = torn ++ missing ++ ['\n']) (hmissing : missing ≠ [])
    {header : List Char} {body : List (List Char)} (hlines : lines torn = header :: body) :
    ∃ i < entries.length, body[i]?.map OutcomeStream.trimmed ≠ entries[i]? := by
  obtain ⟨before, part, rest, after, hsplit, rfl, hleft⟩ :=
    Frame.exists_cut_of_torn htorn hmissing
  have hrows := Frame.unbroken_of_mem_rows hentries
  rw [hsplit] at hrows
  have hfeed := fun row hrow => (hrows row hrow).lineFeed_notMem
  have hreturn : ∀ row ∈ before, dropReturn row = row := fun row hrow =>
    dropReturn_of_unbroken (hrows row (List.mem_append_left _ hrow))
  rw [lines_of_cut hfeed hreturn] at hlines
  unfold Frame.rows at hsplit
  cases before with
  | nil =>
    -- The cut is in the count, so no entry has a line.
    rw [List.nil_append, List.cons.injEq] at hsplit
    obtain ⟨hdigits, rfl⟩ := hsplit
    split at hlines
    · contradiction
    · rename_i hpart
      obtain ⟨-, rfl⟩ := List.cons.inj hlines
      have hpos : 0 < entries.length :=
        length_pos_of_cut hdigits hpart fun hrest hnil => hleft hrest (hnil ▸ List.map_nil)
      refine ⟨0, hpos, ?_⟩
      rw [List.getElem?_nil, List.getElem?_eq_getElem hpos]
      simp
  | cons count before =>
    rw [List.cons_append, List.cons.injEq] at hsplit
    obtain ⟨-, rfl⟩ := List.cons.inj hlines
    exact exists_entry_ne_of_cut hentries hsplit.2 hleft

/-! ## The verdict on a torn text -/

/-- The outcomes that were read from a torn text do not have the lines of the whole one. -/
theorem map_line_ne_of_torn {expected : List Outcome} {torn missing : String}
    (hexpected : ∀ outcome ∈ expected, Unbroken outcome.line.toList)
    (htorn : OutcomeStream.encode expected = torn ++ missing ++ "\n") (hmissing : missing ≠ "")
    {decoded : Decoded Outcome} (hdecode : OutcomeStream.decode torn = .ok decoded) :
    expected.map Outcome.line ≠ decoded.entries.map Outcome.line := by
  intro heq
  obtain ⟨header, body, hlines, -, hagree⟩ := (map_line_eq_iff_of_decode hdecode expected).mp heq
  have hentries : ∀ entry ∈ expected.map Outcome.line, Unbroken entry.toList := by
    rwa [List.forall_mem_map]
  have htext : (Frame.encode (expected.map Outcome.line)).toList =
      torn.toList ++ missing.toList ++ ['\n'] := by
    have := congrArg String.toList htorn
    rw [String.toList_append, String.toList_append] at this
    exact this
  obtain ⟨i, hi, hne⟩ := exists_line_ne_of_torn hentries htext
    (fun hnil => hmissing (String.toList_eq_nil_iff.mp hnil)) hlines
  rw [List.length_map] at hi
  rw [List.getElem?_map] at hne
  exact hne (hagree i hi)

/-- A torn text of outcomes never passes. Whatever is cut off the text of the expected outcomes of
a stream, if it is more than the last line feed, a trial of what is left either ends with a
malformed line of outcomes or has a verdict that is not passed. -/
theorem check_torn_not_passed {stream torn missing : String} {operations : Decoded Operation}
    (hstream : OperationStream.decode stream = .ok operations)
    (htorn : OutcomeStream.encode (replay operations.entries).value = torn ++ missing ++ "\n")
    (hmissing : missing ≠ "") :
    (∃ line cause, (Trial.check stream torn).run.value =
      .error (.malformedLine .outcomes line cause)) ∨
    ∃ verdict, (Trial.check stream torn).run.value = .ok verdict ∧ verdict.passed = false := by
  rw [Trial.value_check, hstream]
  cases hdecode : OutcomeStream.decode torn with
  | error fault =>
    obtain ⟨line, cause, rfl⟩ := OutcomeStream.malformedLine_of_decode hdecode
    exact .inl ⟨line, cause, rfl⟩
  | ok outcomes =>
    refine .inr ⟨_, rfl, ?_⟩
    rw [← Bool.not_eq_true, Verdict.passed_compare_iff]
    exact map_line_ne_of_torn
      (unbroken_line_of_replay (OperationStream.writable_of_decode hstream)) htorn hmissing hdecode

/-- A text that is cut off inside its last value does not pass, although it has all its lines. -/
theorem not_passed_of_cut_value : ∃ operations,
    OperationStream.decode "2\n2 A Bc\n1 A\n" = .ok operations ∧
    OutcomeStream.encode (replay operations.entries).value =
      "2\n-SUCCESS-\nB" ++ "c" ++ "\n" ∧ "c" ≠ "" ∧
    ((∃ line cause, (Trial.check "2\n2 A Bc\n1 A\n" "2\n-SUCCESS-\nB").run.value =
      .error (.malformedLine .outcomes line cause)) ∨
    ∃ verdict, (Trial.check "2\n2 A Bc\n1 A\n" "2\n-SUCCESS-\nB").run.value = .ok verdict ∧
      verdict.passed = false) := by
  have hstream : OperationStream.decode "2\n2 A Bc\n1 A\n" =
      .ok ⟨[.write "A" "Bc", .read "A"], 0⟩ := rfl
  have hreplay : (replay [.write "A" "Bc", .read "A"]).value = [.success, .value "Bc"] :=
    (Store.run_empty_fst_eq_mapIdx [.write "A" "Bc", .read "A"]).trans rfl
  have htorn : OutcomeStream.encode (replay [.write "A" "Bc", .read "A"]).value =
      "2\n-SUCCESS-\nB" ++ "c" ++ "\n" := by
    rw [hreplay]
    rfl
  have hmissing : "c" ≠ "" := by decide
  exact ⟨_, hstream, htorn, hmissing, check_torn_not_passed hstream htorn hmissing⟩

end StoreTrial
