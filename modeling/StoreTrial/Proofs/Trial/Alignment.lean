import StoreTrial.Proofs.Store.Pulls
import StoreTrial.Proofs.Trial.Scoring
import StoreTrial.Proofs.Wire.Grammar

/-!
# Answers stand line by line with their operations

The text of the answers to a stream of operations has one line for each operation, after a first
line with their number. No answer can break its line, since all values in the store are texts of
operations that were read and so unbroken (`lines_answers`). The answers also come in time: the
lines up to a position are settled by the operation lines up to that position, whatever follows
these. Two streams that have the first operation lines in common have those operations in common
(`take_entries_eq`), and the answers to the first operations are the first answers
(`take_bodyLines_answers`). `answers_aligned_causal` joins the two.
-/

namespace StoreTrial

open Text

/-! ## Operation lines -/

namespace Frame

/-- The lines of a text after the first one. -/
def bodyLines (text : String) : List (List Char) := (lines text.toList).tail

/-- The lines after the first one are those of the frame of a text. -/
theorem Framed.bodyLines_eq {text : String} {count : Nat} {body : List (List Char)}
    (h : Framed text count body) : bodyLines text = body := by
  obtain ⟨header, hlines, -⟩ := h
  rw [bodyLines, hlines, List.tail_cons]

end Frame

namespace OperationStream

open Operation

/-- The stream with the operations on the given lines. -/
def ofLines (ls : List (List Char)) : String := Frame.encode (ls.map String.ofList)

/-- Lines that hold operations make a stream of these. -/
theorem decode_ofLines {ls : List (List Char)} {operations : List Operation}
    (hfeed : ∀ line ∈ ls, '\n' ∉ line) (hlength : ls.length < UInt64.size)
    (h : List.Forall₂ Holds ls operations) : decode (ofLines ls) = .ok ⟨operations, 0⟩ := by
  have hcount : ls.length = operations.length := h.length_eq
  have hframe : Frame.Framed (ofLines ls) ls.length (ls.map dropReturn) := by
    have hentries : ∀ entry ∈ ls.map String.ofList, '\n' ∉ entry.toList := by
      simpa [List.forall_mem_map] using hfeed
    have hbody : ((ls.map String.ofList).map fun entry => dropReturn entry.toList) =
        ls.map dropReturn := by
      rw [List.map_map]
      exact List.map_congr_left fun line _ => congrArg dropReturn String.toList_ofList
    have hframed := Frame.framed_encode hentries (by rwa [List.length_map])
    rwa [hbody, List.length_map] at hframed
  have hall : (ls.map dropReturn).length ≤ operations.length :=
    Nat.le_of_eq ((List.length_map _).trans hcount)
  refine decode_eq_ok_iff_forall₂.mpr ⟨ls.map dropReturn, hcount ▸ hframe, ?_, ?_⟩
  · rw [List.take_of_length_le hall, List.forall₂_map_left_iff]
    exact h.imp fun line operation hholds => holds_dropReturn_iff.mpr hholds
  · exact (Frame.extraLines_of_length_le hall).symm

section

variable {stream stream' : String} {operations operations' : Decoded Operation} {k : Nat}

/-- The first operation lines of a stream hold its first operations. -/
theorem forall₂_holds_take (h : decode stream = .ok operations)
    (hk : k ≤ operations.entries.length) :
    List.Forall₂ Holds ((Frame.bodyLines stream).take k) (operations.entries.take k) := by
  obtain ⟨body, hframe, hholds, -⟩ := decode_eq_ok_iff_forall₂.mp h
  have htake := List.forall₂_take k hholds
  rwa [List.take_take, Nat.min_eq_left hk, ← hframe.bodyLines_eq] at htake

/-- Streams with the same first operation lines have the same first operations. -/
theorem take_entries_eq (h : decode stream = .ok operations)
    (h' : decode stream' = .ok operations') (hk : k ≤ operations.entries.length)
    (hk' : k ≤ operations'.entries.length)
    (hlines : (Frame.bodyLines stream').take k = (Frame.bodyLines stream).take k) :
    operations'.entries.take k = operations.entries.take k := by
  have hunique : Relator.RightUnique Holds := fun _ _ _ => Holds.unique
  have hholds := forall₂_holds_take h hk
  have hholds' := forall₂_holds_take h' hk'
  rw [hlines] at hholds'
  exact List.right_unique_forall₂' hunique hholds' hholds

end

end OperationStream

/-! ## Answer lines -/

/-- The text of the outcomes that operations have on a new store. -/
def answers (operations : List Operation) : String :=
  OutcomeStream.encode (replay operations).value

section

variable {operations : List Operation}

/-- The entries of the answers are the lines of the outcomes of a replay, and they are unbroken. -/
theorem unbroken_answers (h : ∀ operation ∈ operations, operation.Writable) :
    ∀ entry ∈ (replay operations).value.map Outcome.line, Unbroken entry.toList := by
  rw [List.forall_mem_map]
  exact unbroken_line_of_replay h

/-- The lines of the answers are the number of the operations and then the lines of the outcomes. -/
theorem lines_answers (h : ∀ operation ∈ operations, operation.Writable) :
    lines (answers operations).toList = Nat.toDigits 10 operations.length ::
      (replay operations).value.map fun outcome => outcome.line.toList := by
  have hlines := Frame.lines_encode_of_unbroken (unbroken_answers h)
  rwa [Frame.rows, List.length_map, length_replay, List.map_map] at hlines

/-- The answers are made of their lines, each with a line feed after it. -/
theorem joinLines_lines_answers (h : ∀ operation ∈ operations, operation.Writable) :
    (answers operations).toList = joinLines (lines (answers operations).toList) := by
  have hlines := Frame.lines_encode_of_unbroken (unbroken_answers h)
  calc (answers operations).toList
      = joinLines (Frame.rows ((replay operations).value.map Outcome.line)) :=
        Frame.toList_encode _
    _ = joinLines (lines (answers operations).toList) := congrArg joinLines hlines.symm

/-- The lines of the answers after the first one are the lines of the outcomes. -/
theorem bodyLines_answers (h : ∀ operation ∈ operations, operation.Writable) :
    Frame.bodyLines (answers operations) =
      (replay operations).value.map fun outcome => outcome.line.toList := by
  rw [Frame.bodyLines, lines_answers h, List.tail_cons]

/-- The first answer lines are the answer lines of the first operations. -/
theorem take_bodyLines_answers (h : ∀ operation ∈ operations, operation.Writable) (k : Nat) :
    (Frame.bodyLines (answers operations)).take k =
      Frame.bodyLines (answers (operations.take k)) := by
  have hfirst : (replay (operations.take k)).value = (replay operations).value.take k :=
    Store.run_take_fst operations k Store.empty
  have htake : ∀ operation ∈ operations.take k, operation.Writable :=
    fun operation hoperation => h operation (List.mem_of_mem_take hoperation)
  rw [bodyLines_answers h, bodyLines_answers htake, hfirst, List.map_take]

end

/-- The answers to a stream stand line by line with its operations. Their text is made of lines that
each end with a line feed, one more than there are operations: the first is the decimal number of
the operations, and each other one is not empty and has no blank in it. The answer lines up to a
position depend only on the operation lines up to that position. They are the same for any other
stream with the same operation lines up to there; so they stay as they are if the stream is cut
there, with the number of its operations adjusted, and whatever operations come after that. -/
theorem answers_aligned_causal {stream : String} {operations : Decoded Operation}
    (h : OperationStream.decode stream = .ok operations) :
    ((answers operations.entries).toList =
        joinLines (lines (answers operations.entries).toList) ∧
      lines (answers operations.entries).toList =
        Nat.toDigits 10 operations.entries.length ::
          Frame.bodyLines (answers operations.entries) ∧
      (Frame.bodyLines (answers operations.entries)).length = operations.entries.length ∧
      ∀ line ∈ Frame.bodyLines (answers operations.entries), Unbroken line) ∧
    (∀ stream' operations', OperationStream.decode stream' = .ok operations' →
      ∀ k ≤ operations.entries.length, k ≤ operations'.entries.length →
        (Frame.bodyLines stream').take k = (Frame.bodyLines stream).take k →
        (Frame.bodyLines (answers operations'.entries)).take k =
          (Frame.bodyLines (answers operations.entries)).take k) ∧
    ∀ k ≤ operations.entries.length, ∀ (more : List (List Char)) (others : List Operation),
      (∀ line ∈ more, '\n' ∉ line) → List.Forall₂ Operation.Holds more others →
      k + more.length < UInt64.size →
      OperationStream.decode (OperationStream.ofLines ((Frame.bodyLines stream).take k ++ more)) =
          .ok ⟨operations.entries.take k ++ others, 0⟩ ∧
        (Frame.bodyLines (answers (operations.entries.take k ++ others))).take k =
          (Frame.bodyLines (answers operations.entries)).take k := by
  have hwritable := OperationStream.writable_of_decode h
  have hbody := bodyLines_answers hwritable
  refine ⟨⟨joinLines_lines_answers hwritable, ?_, ?_, ?_⟩, ?_, ?_⟩
  · rw [lines_answers hwritable, hbody]
  · rw [hbody, List.length_map, length_replay]
  · rw [hbody, List.forall_mem_map]
    exact unbroken_line_of_replay hwritable
  · intro stream' operations' h' k hk hk' hlines
    have hwritable' := OperationStream.writable_of_decode h'
    rw [take_bodyLines_answers hwritable, take_bodyLines_answers hwritable',
      OperationStream.take_entries_eq h h' hk hk' hlines]
  · intro k hk more others hfeed hmore hfits
    have hholds := OperationStream.forall₂_holds_take h hk
    have hlength : ((Frame.bodyLines stream).take k).length = k := by
      rw [hholds.length_eq, List.length_take, Nat.min_eq_left hk]
    have hdecode : OperationStream.decode
        (OperationStream.ofLines ((Frame.bodyLines stream).take k ++ more)) =
          .ok ⟨operations.entries.take k ++ others, 0⟩ := by
      refine OperationStream.decode_ofLines ?_ ?_ (List.rel_append hholds hmore)
      · intro line hline
        rcases List.mem_append.mp hline with hfirst | hline
        · exact lineFeed_notMem_of_mem_lines
            (List.mem_of_mem_tail (List.mem_of_mem_take hfirst))
        · exact hfeed line hline
      · rwa [List.length_append, hlength]
    refine ⟨hdecode, ?_⟩
    have hwritable' := OperationStream.writable_of_decode hdecode
    have hfirst : (operations.entries.take k ++ others).take k = operations.entries.take k :=
      List.take_left' (by rw [List.length_take, Nat.min_eq_left hk])
    rw [take_bodyLines_answers hwritable, take_bodyLines_answers hwritable', hfirst]

/-- A stream of two operations that is cut after the first and continued by another one has the same
first answer. -/
theorem first_answer_kept : ∃ operations,
    OperationStream.decode "2\n1 A\r\n2 A B" = .ok operations ∧
    (Frame.bodyLines (answers operations.entries)).length = 2 ∧
    (Frame.bodyLines (answers [.read "A", .delete "C"])).take 1 =
      (Frame.bodyLines (answers operations.entries)).take 1 := by
  have hstream : OperationStream.decode "2\n1 A\r\n2 A B" = .ok ⟨[.read "A", .write "A" "B"], 0⟩ :=
    rfl
  obtain ⟨⟨-, -, hlength, -⟩, -, hcontinued⟩ := answers_aligned_causal hstream
  have hmore : List.Forall₂ Operation.Holds ["3 C".toList] [.delete "C"] :=
    .cons (.delete rfl) .nil
  obtain ⟨-, hfirst⟩ := hcontinued 1 (by decide) _ _ (by decide) hmore (by decide)
  exact ⟨_, hstream, hlength, hfirst⟩

end StoreTrial
