import StoreTrial.Proofs.Wire.Grammar
import StoreTrial.Proofs.Wire.OutcomeStream

/-!
# Both streams are framed alike

The readers of the two streams see the same frame in a text. A text without a frame is refused by
both for the same reason (`Frame.decode_of_headless`). Behind a frame, outcomes are refused only
where lines are missing (`OutcomeStream.decode_eq_ok_iff_of_framed`,
`OutcomeStream.decode_of_missing`), and there operations are refused as well, if not before
(`OperationStream.decode_of_missing`). So what is read as operations is also read as outcomes, and
as many, and what is refused as outcomes is refused as operations, at the same line or at an earlier
one (`framing_agrees`).
-/

namespace StoreTrial

variable {text : String} {count : Nat} {body : List (List Char)}

namespace OutcomeStream

/-- At each position after the first line, an outcome is read if the line is there. -/
theorem exists_entryAt_eq_ok_iff {i : Nat} :
    (∃ outcome, Frame.entryAt .outcomes (fun _ line => .ok (Outcome.ofLine (trimmed line))) count
      body i = .ok outcome) ↔ i < body.length := by
  unfold Frame.entryAt
  cases hline : body[i]? with
  | none =>
    have hend : body.length ≤ i := List.getElem?_eq_none_iff.mp hline
    simpa using hend
  | some line =>
    have hlt : i < body.length := (List.getElem?_eq_some_iff.mp hline).1
    simpa using hlt

/-- Behind a frame, outcomes are read exactly if the announced lines are there. -/
theorem decode_eq_ok_iff_of_framed (h : Frame.Framed text count body) :
    (∃ outcomes, decode text = .ok outcomes) ↔ count ≤ body.length := by
  have hentries : (∃ outcomes, decode text = .ok outcomes) ↔ ∀ i < count, i < body.length :=
    (Frame.exists_decode_eq_ok_iff h).trans
      (forall₂_congr fun i _ => exists_entryAt_eq_ok_iff)
  rw [hentries]
  constructor
  · intro hall
    exact Nat.le_of_not_lt fun hlt => Nat.lt_irrefl _ (hall _ hlt)
  · intro hle i hi
    exact Nat.lt_of_lt_of_le hi hle

/-- Outcomes are refused at the first line that is missing. -/
theorem decode_of_missing (h : Frame.Framed text count body) (hend : body.length < count) :
    decode text = .error
      (.malformedLine .outcomes (body.length + 2) (.truncated count body.length)) := by
  refine (Frame.decode_eq_error_iff h).mpr ⟨body.length, hend, fun i hi => ?_, ?_⟩
  · exact exists_entryAt_eq_ok_iff.mpr hi
  · rw [Frame.entryAt, List.getElem?_eq_none (Nat.le_refl _)]

end OutcomeStream

namespace OperationStream

/-- Operations are refused at the first line that is missing, unless an earlier line is refused. -/
theorem decode_of_missing (h : Frame.Framed text count body) (hend : body.length < count) :
    decode text = .error
      (.malformedLine .operations (body.length + 2) (.truncated count body.length)) ∨
    ∃ (i : Nat) (line : List Char) (cause : LineFault), body[i]? = some line ∧
      Operation.Refused line cause ∧
      decode text = .error (.malformedLine .operations (i + 2) cause) := by
  cases hdecode : decode text with
  | ok operations =>
    have hcount := ((exists_decode_eq_ok_iff h).mp ⟨operations, hdecode⟩).1
    exact absurd hend (Nat.not_lt.mpr hcount)
  | error fault =>
    obtain ⟨i, hi, cause, rfl, hbefore, hfails⟩ := (decode_eq_error_iff_fails h).mp hdecode
    cases hfails with
    | refused hline hcause => exact .inr ⟨i, _, cause, hline, hcause, rfl⟩
    | truncated hmissing =>
      have hpresent : i ≤ body.length := le_length_of_stands hbefore
      obtain rfl : i = body.length := Nat.le_antisymm hpresent hmissing
      exact .inl rfl

end OperationStream

/-- The readers of both streams agree on the frame of a text. Outcomes are read, and as many as
`count`, if and only if the first line denotes `count` and at least as many lines follow, whatever
these hold. If operations are read, outcomes are read, and as many. If outcomes are refused, so are
operations: if it is for the first line, both are refused for that line and in the same words, and
otherwise lines are missing, and operations are refused at the first line that is missing, too, or
at an earlier line that holds no operation. -/
theorem framing_agrees (text : String) :
    (∀ count, (∃ outcomes, OutcomeStream.decode text = .ok outcomes ∧
        outcomes.entries.length = count) ↔
      ∃ body, Frame.Framed text count body ∧ count ≤ body.length) ∧
    (∀ operations, OperationStream.decode text = .ok operations →
      ∃ outcomes, OutcomeStream.decode text = .ok outcomes ∧
        outcomes.entries.length = operations.entries.length) ∧
    (∀ fault, OutcomeStream.decode text = .error fault →
      (∃ cause, fault = .malformedLine .outcomes 1 cause ∧
        OperationStream.decode text = .error (.malformedLine .operations 1 cause) ∧
        cause.reason .operations = cause.reason .outcomes) ∨
      ∃ count body, Frame.Framed text count body ∧ body.length < count ∧
        fault = .malformedLine .outcomes (body.length + 2) (.truncated count body.length) ∧
        (OperationStream.decode text = .error
            (.malformedLine .operations (body.length + 2) (.truncated count body.length)) ∨
          ∃ (i : Nat) (line : List Char) (cause : LineFault), body[i]? = some line ∧
            Operation.Refused line cause ∧
            OperationStream.decode text = .error (.malformedLine .operations (i + 2) cause))) := by
  have houtcomes : ∀ count, (∃ outcomes, OutcomeStream.decode text = .ok outcomes ∧
      outcomes.entries.length = count) ↔
        ∃ body, Frame.Framed text count body ∧ count ≤ body.length := by
    intro count
    constructor
    · rintro ⟨outcomes, hdecode, rfl⟩
      obtain ⟨body, hframe, -⟩ := OutcomeStream.decode_eq_ok_iff.mp hdecode
      exact ⟨body, hframe, (OutcomeStream.decode_eq_ok_iff_of_framed hframe).mp ⟨_, hdecode⟩⟩
    · rintro ⟨body, hframe, hcount⟩
      obtain ⟨outcomes, hdecode⟩ :=
        (OutcomeStream.decode_eq_ok_iff_of_framed hframe).mpr hcount
      exact ⟨outcomes, hdecode, (Frame.entries_of_decode hframe hdecode).1⟩
  refine ⟨houtcomes, fun operations hdecode => ?_, fun fault hdecode => ?_⟩
  · obtain ⟨body, hframe, -⟩ := Frame.decode_eq_ok_iff.mp hdecode
    have hcount := ((OperationStream.exists_decode_eq_ok_iff hframe).mp ⟨_, hdecode⟩).1
    exact (houtcomes _).mpr ⟨body, hframe, hcount⟩
  · rcases Frame.framed_or_headless text with ⟨count, body, hframe⟩ | ⟨cause, hcause⟩
    · right
      have hend : body.length < count := by
        refine Nat.lt_of_not_le fun hcount => ?_
        obtain ⟨outcomes, hread⟩ :=
          (OutcomeStream.decode_eq_ok_iff_of_framed hframe).mpr hcount
        rw [hdecode] at hread
        contradiction
      rw [OutcomeStream.decode_of_missing hframe hend, Except.error.injEq] at hdecode
      exact ⟨count, body, hframe, hend, hdecode.symm,
        OperationStream.decode_of_missing hframe hend⟩
    · left
      have hrefused : OutcomeStream.decode text = .error (.malformedLine .outcomes 1 cause) :=
        Frame.decode_of_headless _ _ hcause
      rw [hdecode, Except.error.injEq] at hrefused
      exact ⟨cause, hrefused, Frame.decode_of_headless _ _ hcause, hcause.reason_eq _ _⟩

/-- A stream that ends too early and has a line with no operation is refused as outcomes where it
ends, and as operations at that line. -/
example :
    OutcomeStream.decode "3\n1 A\nOK\n" = .error (.malformedLine .outcomes 4 (.truncated 3 2)) ∧
      OperationStream.decode "3\n1 A\nOK\n" =
        .error (.malformedLine .operations 3 (.unknownTag "OK")) := ⟨rfl, rfl⟩

end StoreTrial
