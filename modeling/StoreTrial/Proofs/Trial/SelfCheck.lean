import StoreTrial.Proofs.Trial.Scoring

/-!
# The expected outcomes pass

What the parts of a trial come to, without the events on the way: the streams are read and the
replay is compared with the actual outcomes (`value_expectedText`, `value_check`). The text of the
expected outcomes is read back as outcomes with the same lines, though not always as the same
outcomes, since a value that is spelled like a marker is read as the marker. Outcomes are compared
by their lines, so a stream passes on its own expected outcomes (`check_expectedText`).
-/

namespace StoreTrial

open Text

namespace Trial

section

variable {α β : Type}

/-- What follows a part of a trial depends on its result, and not on its events. -/
theorem value_bind (part : Trial α) (next : α → Trial β) :
    (part >>= next).run.value = part.run.value >>= fun a => (next a).run.value := by
  have hvalue : (part >>= next).run.value = (ExceptT.bindCont next part.run.value).value := rfl
  rw [hvalue]
  cases part.run.value <;> rfl

/-- Two parts of a trial have a result exactly if both have one, in turn. -/
theorem value_bind_eq_ok_iff {part : Trial α} {next : α → Trial β} {b : β} :
    (part >>= next).run.value = .ok b ↔
      ∃ a, part.run.value = .ok a ∧ (next a).run.value = .ok b := by
  rw [value_bind]
  cases part.run.value with
  | error fault => simp [bind, Except.bind]
  | ok a => simp [bind, Except.bind]

/-- The entries of a stream are those that were decoded. -/
theorem value_entries (stream : Stream) (decoded : Except Fault (Decoded α)) :
    (entries stream decoded).run.value = decoded.map Decoded.entries := by
  cases decoded <;> rfl

end

/-- The expected text is that of the outcomes of a replay of the operations that were read. -/
theorem value_expectedText (stream : String) :
    (expectedText stream).run.value = (OperationStream.decode stream).map fun operations =>
      OutcomeStream.encode (replay operations.entries).value := by
  unfold expectedText operations
  rw [value_bind, value_entries]
  cases OperationStream.decode stream <;> rfl

/-- Operations that can be read have an expected text. -/
theorem value_expectedText_of_decode {stream : String} {operations : Decoded Operation}
    (h : OperationStream.decode stream = .ok operations) :
    (expectedText stream).run.value =
      .ok (OutcomeStream.encode (replay operations.entries).value) := by
  rw [value_expectedText, h]
  rfl

/-- The outcomes of a replay are compared with the actual ones. -/
theorem value_score (operations : List Operation) (actual : List Outcome) :
    (score operations actual).run.value =
      .ok (Verdict.compare (replay operations).value actual) := by
  unfold score
  rw [value_bind]
  rfl

/-- A trial reads the operations, then the actual outcomes, and compares these with a replay of the
operations. -/
theorem value_check (stream actual : String) :
    (check stream actual).run.value = (OperationStream.decode stream) >>= fun operations =>
      (OutcomeStream.decode actual).map fun outcomes =>
        Verdict.compare (replay operations.entries).value outcomes.entries := by
  unfold check operations outcomes
  simp only [value_bind, value_entries, value_score]
  cases OperationStream.decode stream with
  | error fault => rfl
  | ok operations => cases OutcomeStream.decode actual <;> rfl

/-- A trial has a verdict exactly if both streams can be read. -/
theorem value_check_eq_ok_iff {stream actual : String} {verdict : Verdict} :
    (check stream actual).run.value = .ok verdict ↔
      ∃ operations outcomes, OperationStream.decode stream = .ok operations ∧
        OutcomeStream.decode actual = .ok outcomes ∧
        verdict = Verdict.compare (replay operations.entries).value outcomes.entries := by
  rw [value_check]
  cases OperationStream.decode stream with
  | error fault => simp [bind, Except.bind]
  | ok operations =>
    cases OutcomeStream.decode actual with
    | error fault => simp [bind, Except.bind, Except.map]
    | ok outcomes => simp [bind, Except.bind, Except.map, eq_comm]

end Trial

/-- The text of the outcomes of a replay is read back as outcomes with the same lines. -/
theorem decode_encode_replay {operations : List Operation}
    (h : ∀ operation ∈ operations, operation.Writable)
    (hlength : operations.length < UInt64.size) :
    ∃ outcomes, OutcomeStream.decode (OutcomeStream.encode (replay operations).value) =
        .ok ⟨outcomes, 0⟩ ∧
      (replay operations).value.map Outcome.line = outcomes.map Outcome.line := by
  have hplain : ∀ outcome ∈ (replay operations).value, outcome.Plain := fun outcome houtcome =>
    Outcome.plain_of_unbroken (unbroken_line_of_replay h outcome houtcome)
  exact ⟨_, OutcomeStream.decode_encode_of_plain hplain (by rwa [length_replay]),
    (OutcomeStream.map_line_ofLine_line _).symm⟩

/-- A stream of operations passes on its own expected text, with all of its operations matched. -/
theorem Trial.check_expectedText {stream answers : String}
    (h : (expectedText stream).run.value = .ok answers) :
    ∃ operations, OperationStream.decode stream = .ok operations ∧
      (check stream answers).run.value = .ok (Verdict.agreement operations.entries.length) := by
  rw [value_expectedText] at h
  cases hdecode : OperationStream.decode stream with
  | error fault =>
    rw [hdecode] at h
    contradiction
  | ok operations =>
    rw [hdecode] at h
    obtain rfl := Except.ok.inj h
    obtain ⟨outcomes, hread, hlines⟩ := decode_encode_replay
      (OperationStream.writable_of_decode hdecode) (Frame.length_lt_of_decode hdecode)
    refine ⟨operations, rfl, ?_⟩
    rw [value_check, hdecode, hread, ← length_replay,
      ← Verdict.compare_of_map_line_eq hlines]
    rfl

end StoreTrial
