import StoreTrial.Proofs.Trial.SelfCheck

/-!
# What follows the announced entries

A stream is read up to its last announced entry. Whatever is appended to a text that ends with a
line feed and was read comes after that entry, so it is not read (`Frame.decode_append`): the
entries stay the same, and only the lines that are not blank are counted for the warning. A stream
that is refused gives no warning, whatever follows the fault.
-/

namespace StoreTrial

open Text

namespace Frame

/-- The number of lines of a text that are left over after the first line and `count` others, blank
lines aside. -/
def leftovers (count : Nat) (text : String) : Nat :=
  ((lines text.toList).drop (count + 1)).countP fun line => trim line ≠ []

section

variable {α : Type} {stream : Stream} {entry : Nat → List Char → Except Fault α} {text : String}
  {count : Nat} {body : List (List Char)}

/-- The lines that are left over are those of the frame that were not announced. -/
theorem Framed.leftovers_eq (h : Framed text count body) :
    leftovers count text = extraLines count body := by
  obtain ⟨header, hlines, -⟩ := h
  unfold leftovers extraLines
  rw [hlines, List.drop_succ_cons]
  refine List.countP_congr fun line _ => ?_
  rw [decide_eq_true_iff, Ne, trim_eq_nil_iff, Bool.not_eq_true', Bool.eq_false_iff, Ne,
    List.all_eq_true]

/-- The frame of a text that ends with a line feed goes on with the lines that are appended. -/
theorem Framed.append (h : Framed text count body) (hend : text.toList.getLast? = some '\n')
    (more : String) : Framed (text ++ more) count (body ++ lines more.toList) := by
  obtain ⟨header, hlines, hcount⟩ := h
  refine ⟨header, ?_, hcount⟩
  rw [String.toList_append, lines_append (.inr hend), hlines, List.cons_append]

/-- What is appended to a text that was read and ends with a line feed is left over. -/
theorem decode_append {decoded : Decoded α} (h : decode stream entry text = .ok decoded)
    (hend : text.toList.getLast? = some '\n') (more : String) :
    decode stream entry (text ++ more) =
      .ok ⟨decoded.entries, leftovers decoded.entries.length (text ++ more)⟩ := by
  obtain ⟨body, hframe, hmap, -⟩ := decode_eq_ok_iff.mp h
  have hmore : Framed (text ++ more) decoded.entries.length (body ++ lines more.toList) :=
    hframe.append hend more
  -- All entries are on lines of the text itself, so none is on a line that is appended.
  have hlength : decoded.entries.length ≤ body.length := by
    have hlength := congrArg List.length hmap
    simp only [List.length_map, List.length_zipIdx, List.length_take] at hlength
    omega
  refine decode_eq_ok_iff.mpr ⟨_, hmore, ?_, hmore.leftovers_eq⟩
  rw [List.take_append_of_le_length hlength]
  exact hmap

end

end Frame

namespace Trial

open StoreTrial.Frame (leftovers)

section

variable {α : Type}

/-- A stream that was read gives its entries, and a warning if lines are left over. -/
theorem run_entries_ok (stream : Stream) (decoded : Decoded α) :
    (entries stream (.ok decoded)).run = ⟨.ok decoded.entries, decoded.events stream⟩ := by
  have hrun : (entries stream (.ok decoded)).run =
      ⟨.ok decoded.entries, [] ++ (decoded.events stream ++ [] ++ [])⟩ := rfl
  rw [hrun, List.nil_append, List.append_nil, List.append_nil]

/-- A stream that was refused gives its fault alone. -/
theorem run_entries_error (stream : Stream) (fault : Fault) :
    (entries stream (.error fault : Except Fault (Decoded α))).run = ⟨.error fault, []⟩ := rfl

/-- A reader of streams ignores what follows the announced entries. -/
structure IgnoresLeftovers (stream : Stream) (read : String → Trial (List α)) : Prop where
  /-- What is appended to a text that was read and ends with a line feed does not change the
  entries. There is one warning if lines are left over that are not blank, and else none. -/
  run_append : ∀ {text : String} {entries : List α}, text.toList.getLast? = some '\n' →
    (read text).run.value = .ok entries → ∀ more,
      (read (text ++ more)).run.value = .ok entries ∧
      (read (text ++ more)).run.events =
        if leftovers entries.length (text ++ more) = 0 then []
        else [.linesIgnored stream entries.length (leftovers entries.length (text ++ more))]
  /-- A text that is refused gives no warning. -/
  events_of_error : ∀ {text : String} {fault : Fault}, (read text).run.value = .error fault →
    (read text).run.events = []

/-- Whatever reads the entries of a frame ignores what follows them. -/
theorem ignoresLeftovers_decode (stream : Stream) (entry : Nat → List Char → Except Fault α) :
    IgnoresLeftovers stream fun text => entries stream (Frame.decode stream entry text) := by
  constructor
  · intro text read hend hread more
    rw [value_entries] at hread
    cases hdecode : Frame.decode stream entry text with
    | error fault =>
      rw [hdecode] at hread
      contradiction
    | ok decoded =>
      rw [hdecode] at hread
      obtain rfl : decoded.entries = read := Except.ok.inj hread
      rw [Frame.decode_append hdecode hend, run_entries_ok]
      exact ⟨rfl, rfl⟩
  · intro text fault hread
    cases hdecode : Frame.decode stream entry text with
    | error other => rw [run_entries_error]
    | ok decoded =>
      rw [hdecode, run_entries_ok] at hread
      contradiction

end

/-- Neither the operations nor the outcomes of a trial are affected by what follows the announced
entries of their stream. It is counted: after `count` entries, the warning gives the number of lines
after the first `count + 1` that are not blank, and there is no warning if there are none. A stream
that is refused gives no warning at all. -/
theorem leftovers_ignored :
    IgnoresLeftovers .operations operations ∧ IgnoresLeftovers .outcomes outcomes :=
  ⟨ignoresLeftovers_decode _ _, ignoresLeftovers_decode _ _⟩

/-- After one announced operation, a blank line is not counted, and a line that could not be read as
an operation is. -/
theorem leftovers_ignored_after_one :
    (operations "1\n1 k\n").run.value = .ok [.read "k"] ∧
      (operations ("1\n1 k\n" ++ " \n4 k")).run.value = .ok [.read "k"] ∧
      (operations ("1\n1 k\n" ++ " \n4 k")).run.events = [.linesIgnored .operations 1 1] := by
  have hread : (operations "1\n1 k\n").run.value = .ok [.read "k"] := rfl
  have hend : "1\n1 k\n".toList.getLast? = some '\n' := by decide
  obtain ⟨hvalue, hevents⟩ := leftovers_ignored.1.run_append hend hread " \n4 k"
  have hcount : leftovers 1 ("1\n1 k\n" ++ " \n4 k") = 1 := by decide
  rw [List.length_singleton, hcount] at hevents
  exact ⟨hread, hvalue, hevents⟩

end Trial

end StoreTrial
