import StoreTrial.Proofs.Text.Lines

/-!
# Where a cut falls in a text made of lines

A text that is made of lines may be cut off anywhere. The cut falls into one of the lines, at its
end at the latest (`exists_cut`): what stands before the cut are the lines before that one and a
part of it. Those lines are read as they were, and the part is read as a line of its own unless
nothing of its line is left (`lines_of_cut`).
-/

namespace StoreTrial.Text

/-- A text made of lines that is cut off before its end ends within one of its lines. -/
theorem exists_cut {ls : List (List Char)} {start rest : List Char}
    (h : joinLines ls = start ++ rest) (hrest : rest ≠ []) :
    ∃ before part missing after, ls = before ++ (part ++ missing) :: after ∧
      start = joinLines before ++ part ∧ rest = missing ++ '\n' :: joinLines after := by
  induction ls generalizing start with
  | nil =>
    have hnil : start = [] ∧ rest = [] := List.append_eq_nil_iff.mp h.symm
    exact absurd hnil.2 hrest
  | cons line ls ih =>
    rw [joinLines_cons] at h
    rcases List.append_eq_append_iff.mp h with ⟨passed, hstart, hpassed⟩ | ⟨missing, hline, hafter⟩
    · cases passed with
      | nil =>
        -- The cut is right after the first line and before its line feed.
        refine ⟨[], line, [], ls, ?_, ?_, hpassed.symm⟩
        · rw [List.append_nil, List.nil_append]
        · rw [hstart, List.append_nil]
          rfl
      | cons c passed =>
        rw [List.cons_append, List.cons.injEq] at hpassed
        obtain ⟨rfl, hpassed⟩ := hpassed
        obtain ⟨before, part, missing, after, rfl, rfl, hafter⟩ := ih hpassed
        refine ⟨line :: before, part, missing, after, rfl, ?_, hafter⟩
        rw [hstart, joinLines_cons, List.append_assoc, List.cons_append]
    · exact ⟨[], start, missing, ls, by rw [hline, List.nil_append], rfl, hafter⟩

/-- Whole lines at the start of a text are read before what follows them. -/
theorem lines_joinLines_append {before : List (List Char)} (h : ∀ line ∈ before, '\n' ∉ line)
    (part : List Char) :
    lines (joinLines before ++ part) = before.map dropReturn ++ lines part := by
  rw [lines_append (joinLines_eq_nil_or before), lines_joinLines h]

/-- The lines that are left of a text cut off within a line are the whole ones before the cut and,
unless it is empty, the part of the line in which the cut falls. -/
theorem lines_of_cut {before after : List (List Char)} {part missing : List Char}
    (hfeed : ∀ line ∈ before ++ (part ++ missing) :: after, '\n' ∉ line)
    (hreturn : ∀ line ∈ before, dropReturn line = line) :
    lines (joinLines before ++ part) = before ++ (if part = [] then [] else [part]) := by
  have hbefore : ∀ line ∈ before, '\n' ∉ line :=
    fun line hline => hfeed line (List.mem_append_left _ hline)
  have hpart : '\n' ∉ part := fun hmem =>
    hfeed (part ++ missing) (List.mem_append_right _ List.mem_cons_self)
      (List.mem_append_left _ hmem)
  have hwhole : before.map dropReturn = before :=
    (List.map_congr_left hreturn).trans (List.map_id before)
  rw [lines_joinLines_append hbefore, lines_of_notMem hpart, hwhole]

end StoreTrial.Text
