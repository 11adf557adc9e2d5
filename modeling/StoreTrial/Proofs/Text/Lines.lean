import StoreTrial.Proofs.Text.Fields
import StoreTrial.Text.Lines

/-!
# Texts made of lines

A text is made of lines when each of its lines is followed by a line feed: `joinLines` makes such a
text. Its pieces between line feeds are the lines that it was made of, so it determines them
(`joinLines_inj`). Reading its lines drops the carriage return from the end of those that have one
(`lines_joinLines`), and no line that is read has a line feed in it. Any text, whether or not it is
made of lines, starts with a line up to its first line feed: `lines_induction` is the induction over
its lines that follows from this.
-/

namespace StoreTrial.Text

/-- The text of lines, each with a line feed after it. -/
def joinLines (ls : List (List Char)) : List Char := ls.flatMap fun line => line ++ ['\n']

/-- The first line of a text made of lines is followed by the text of the others. -/
@[simp]
theorem joinLines_cons (line : List Char) (ls : List (List Char)) :
    joinLines (line :: ls) = line ++ '\n' :: joinLines ls := by
  simp [joinLines]

/-- A text made of lines is empty or ends with a line feed. -/
theorem joinLines_eq_nil_or (ls : List (List Char)) :
    joinLines ls = [] ∨ (joinLines ls).getLast? = some '\n' := by
  rcases List.eq_nil_or_concat ls with rfl | ⟨before, line, rfl⟩
  · exact .inl rfl
  · right
    have hlast : joinLines (before.concat line) = joinLines before ++ line ++ ['\n'] := by
      simp [joinLines]
    rw [hlast, List.getLast?_concat]

/-- The first line of a text, if it has no line feed in it, is read before the others. -/
theorem lines_append_of_notMem {line : List Char} (h : '\n' ∉ line) (after : List Char) :
    lines (line ++ '\n' :: after) = dropReturn line :: lines after := by
  rw [lines_append_lineFeed, List.splitOn_eq_singleton h]
  rfl

/-- The lines of a text that is empty or ends with a line feed come before the lines of what
follows it. -/
theorem lines_append {text : List Char} (h : text = [] ∨ text.getLast? = some '\n')
    (more : List Char) : lines (text ++ more) = lines text ++ lines more := by
  rcases h with rfl | hlast
  · rfl
  · obtain ⟨before, rfl⟩ := List.getLast?_eq_some_iff.mp hlast
    rw [List.append_assoc, List.singleton_append, lines_append_lineFeed, lines_append_lineFeed,
      lines_nil, List.append_nil]

/-- The lines of a text made of lines are those that it was made of, without the carriage returns
at their ends. -/
theorem lines_joinLines {ls : List (List Char)} (h : ∀ line ∈ ls, '\n' ∉ line) :
    lines (joinLines ls) = ls.map dropReturn := by
  induction ls with
  | nil => rfl
  | cons line ls ih =>
    have hrest : lines (joinLines ls) = ls.map dropReturn :=
      ih fun other hother => h other (List.mem_cons_of_mem _ hother)
    rw [joinLines_cons, lines_append_of_notMem (h line List.mem_cons_self), hrest, List.map_cons]

/-- The pieces of a text made of lines are those lines, and an empty one after the last line
feed. -/
theorem splitOn_joinLines {ls : List (List Char)} (h : ∀ line ∈ ls, '\n' ∉ line) :
    (joinLines ls).splitOn '\n' = ls ++ [[]] := by
  induction ls with
  | nil => rfl
  | cons line ls ih =>
    have hrest : (joinLines ls).splitOn '\n' = ls ++ [[]] :=
      ih fun other hother => h other (List.mem_cons_of_mem _ hother)
    rw [joinLines_cons, List.splitOn_append_cons_self_of_not_mem (h line List.mem_cons_self), hrest,
      List.cons_append]

/-- A text made of lines without line feeds determines them. -/
theorem joinLines_inj {ls ls' : List (List Char)} (h : ∀ line ∈ ls, '\n' ∉ line)
    (h' : ∀ line ∈ ls', '\n' ∉ line) : joinLines ls = joinLines ls' ↔ ls = ls' := by
  constructor
  · intro heq
    have hsplit : ls ++ [[]] = ls' ++ [[]] := by
      rw [← splitOn_joinLines h, ← splitOn_joinLines h', heq]
    exact List.append_cancel_right hsplit
  · rintro rfl
    rfl

/-- A line that does not end with a carriage return is read as it stands. -/
theorem dropReturn_of_notMem {line : List Char} (h : '\r' ∉ line) : dropReturn line = line := by
  unfold dropReturn
  rw [if_neg]
  intro hlast
  exact h (List.mem_of_getLast? hlast)

/-- An unbroken text is a line that is read as it stands. -/
theorem dropReturn_of_unbroken {field : List Char} (h : Unbroken field) :
    dropReturn field = field := by
  apply dropReturn_of_notMem
  intro hmem
  have := h.2 _ hmem
  contradiction

/-- A carriage return at the end of a line is trimmed like any other blank there. -/
theorem trim_dropReturn (line : List Char) : trim (dropReturn line) = trim line := by
  unfold dropReturn
  split
  · rename_i hlast
    obtain ⟨before, rfl⟩ := List.getLast?_eq_some_iff.mp hlast
    have hreturn : isBlank '\r' = true := by decide
    rw [List.dropLast_concat, trim_append_blank hreturn]
  · rfl

/-- A carriage return at the end of a line belongs to no field. -/
theorem fields_dropReturn (line : List Char) : fields (dropReturn line) = fields line := by
  rw [← fields_trim, trim_dropReturn, fields_trim]

/-- Dropping a carriage return adds no character. -/
theorem mem_of_mem_dropReturn {c : Char} {line : List Char} (h : c ∈ dropReturn line) :
    c ∈ line := by
  unfold dropReturn at h
  split at h
  · exact List.dropLast_subset line h
  · exact h

/-- No line of a text has a line feed in it. -/
theorem lineFeed_notMem_of_mem_lines {text line : List Char} (h : line ∈ lines text) :
    '\n' ∉ line := by
  have hpiece : ∀ piece ∈ text.splitOn '\n', '\n' ∉ piece := by
    intro piece hpiece hmem
    rw [List.splitOn_eq_splitOnP] at hpiece
    have := eq_false_of_mem_splitOnP hpiece _ hmem
    simp at this
  simp only [lines, List.mem_append, List.mem_map, List.mem_filter, Option.mem_toList] at h
  rcases h with ⟨piece, hmem, rfl⟩ | ⟨hlast, -⟩
  · intro hline
    exact hpiece piece (List.dropLast_subset _ hmem) (mem_of_mem_dropReturn hline)
  · exact hpiece line (List.mem_of_getLast? hlast)

/-- A text without a line feed is a line of itself, unless it is empty. -/
theorem lines_of_notMem {text : List Char} (h : '\n' ∉ text) :
    lines text = if text = [] then [] else [text] := by
  unfold lines
  rw [List.splitOn_eq_singleton h]
  cases text <;> rfl

/-- What holds of texts without line feeds, and of a text whenever it holds of what follows the
first line feed in it, holds of all texts. -/
@[elab_as_elim]
theorem lines_induction {motive : List Char → Prop}
    (last : ∀ text, '\n' ∉ text → motive text)
    (line : ∀ line after, '\n' ∉ line → motive after → motive (line ++ '\n' :: after))
    (text : List Char) : motive text := by
  by_cases hmem : '\n' ∈ text
  · obtain ⟨before, after, htext, hbefore⟩ := List.eq_append_cons_of_mem hmem
    rw [htext]
    exact line before after hbefore (lines_induction last line after)
  · exact last text hmem
termination_by text.length
decreasing_by
  rw [htext, List.length_append, List.length_cons]
  omega

/-- A text has no more lines than characters. -/
theorem length_lines_le (text : List Char) : (lines text).length ≤ text.length := by
  induction text using lines_induction with
  | last text h =>
    rw [lines_of_notMem h]
    split
    · exact Nat.zero_le _
    · rename_i hne
      exact List.length_pos_iff.mpr hne
  | line line after h ih =>
    rw [lines_append_of_notMem h, List.length_cons, List.length_append, List.length_cons]
    omega

end StoreTrial.Text
