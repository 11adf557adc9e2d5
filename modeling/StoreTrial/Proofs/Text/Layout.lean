import StoreTrial.Proofs.Text.Lines

/-!
# Layouts of a text

The layout of a text is what its readers drop: the carriage returns before its line feeds and the
blanks around its lines. `trimmedLines` is what is left of a text without its layout. A carriage
return before every line feed does not change it (`trimmedLines_withReturns`), and a part of a text
that makes up one of its lines (`LineAt`) stands for its trimmed text in it
(`LineAt.trimmedLines_eq`), so that blanks around the line do not change it either.
-/

namespace StoreTrial.Text

/-- The lines of a text without the blanks around them. -/
def trimmedLines (text : List Char) : List (List Char) := (lines text).map trim

/-- The first line of a text, up to its line feed, is trimmed before the others. -/
theorem trimmedLines_append_of_notMem {line : List Char} (h : '\n' ∉ line) (after : List Char) :
    trimmedLines (line ++ '\n' :: after) = trim line :: trimmedLines after := by
  unfold trimmedLines
  rw [lines_append_of_notMem h, List.map_cons, trim_dropReturn]

/-! ## Carriage returns -/

/-- The text with a carriage return before each of its line feeds. -/
def withReturns (text : List Char) : List Char :=
  text.flatMap fun c => if c = '\n' then ['\r', '\n'] else [c]

/-- A text without line feeds gets no carriage returns. -/
theorem withReturns_of_notMem {text : List Char} (h : '\n' ∉ text) : withReturns text = text := by
  induction text with
  | nil => rfl
  | cons c text ih =>
    rw [List.mem_cons, not_or] at h
    obtain ⟨hc, htext⟩ := h
    have hrest : text.flatMap (fun c => if c = '\n' then ['\r', '\n'] else [c]) = text := ih htext
    rw [withReturns, List.flatMap_cons, if_neg (Ne.symm hc), hrest, List.singleton_append]

/-- The first line of a text gets a carriage return at its end. -/
theorem withReturns_append_of_notMem {line : List Char} (h : '\n' ∉ line) (after : List Char) :
    withReturns (line ++ '\n' :: after) = (line ++ ['\r']) ++ '\n' :: withReturns after := by
  have hline : withReturns line = line := withReturns_of_notMem h
  unfold withReturns at hline ⊢
  rw [List.flatMap_append, hline, List.flatMap_cons, if_pos rfl]
  simp

/-- The carriage returns before the line feeds do not show in the trimmed lines, and neither do
others that were there already. -/
theorem trimmedLines_withReturns (text : List Char) :
    trimmedLines (withReturns text) = trimmedLines text := by
  induction text using lines_induction with
  | last text h => rw [withReturns_of_notMem h]
  | line line after h ih =>
    have hreturn : '\n' ∉ line ++ ['\r'] := by simp [h]
    have hblank : isBlank '\r' = true := by decide
    calc trimmedLines (withReturns (line ++ '\n' :: after))
        = trim (line ++ ['\r']) :: trimmedLines (withReturns after) := by
          rw [withReturns_append_of_notMem h, trimmedLines_append_of_notMem hreturn]
      _ = trim line :: trimmedLines after := by rw [trim_append_blank hblank, ih]
      _ = trimmedLines (line ++ '\n' :: after) := (trimmedLines_append_of_notMem h after).symm

/-! ## One line of a text -/

/-- Blanks that can stand within a line. -/
def Padding (blanks : List Char) : Prop := ∀ c ∈ blanks, isBlank c = true ∧ c ≠ '\n'

instance (blanks : List Char) : Decidable (Padding blanks) := List.decidableBAll _ blanks

/-- The characters of a padding are blank. -/
theorem Padding.isBlank {blanks : List Char} (h : Padding blanks) :
    ∀ c ∈ blanks, isBlank c = true :=
  fun c hc => (h c hc).1

/-- There is no line feed in a padding. -/
theorem Padding.lineFeed_notMem {blanks : List Char} (h : Padding blanks) : '\n' ∉ blanks :=
  fun hmem => (h _ hmem).2 rfl

/-- In the text of `before`, `line` and `after`, the part `line` makes up one line. The carriage
return at its end may belong to either `line` or `after`. -/
structure LineAt (before line after : List Char) : Prop where
  /-- The line starts the text or follows a line feed. -/
  start : before = [] ∨ before.getLast? = some '\n'
  /-- There is no line feed within the line. -/
  whole : '\n' ∉ line
  /-- The line ends the text or is ended by a line feed. -/
  stop : after = [] ∨ ['\n'] <+: after ∨ ['\r', '\n'] <+: after
  /-- There is no empty line after the last line feed of a text. -/
  present : line ≠ [] ∨ after ≠ []

/-- A line can be replaced by another text without a line feed. -/
theorem LineAt.replace {before line after : List Char} (h : LineAt before line after)
    {line' : List Char} (hwhole : '\n' ∉ line') (hpresent : line ≠ [] → line' ≠ []) :
    LineAt before line' after :=
  ⟨h.start, hwhole, h.stop, h.present.imp_left hpresent⟩

/-- A line of a text and what follows it are the trimmed line and the lines after the next line
feed. -/
theorem LineAt.trimmedLines_append {before line after : List Char} (h : LineAt before line after) :
    trimmedLines (line ++ after) = trim line :: (trimmedLines after).tail := by
  rcases h.stop with rfl | ⟨rest, rfl⟩ | ⟨rest, rfl⟩
  · -- The line ends the text, so it is not empty.
    have hne : line ≠ [] := h.present.resolve_right fun hafter => hafter rfl
    rw [List.append_nil, trimmedLines, lines_of_notMem h.whole, if_neg hne]
    rfl
  · -- The rest starts with an empty line, which is only the end of this one.
    have hrest : (trimmedLines ('\n' :: rest)).tail = trimmedLines rest :=
      congrArg List.tail (trimmedLines_append_of_notMem List.not_mem_nil rest)
    rw [List.singleton_append, trimmedLines_append_of_notMem h.whole, hrest]
  · -- The carriage return belongs to this line, where it is trimmed.
    have hreturn : '\n' ∉ ['\r'] := by decide
    have hline : '\n' ∉ line ++ ['\r'] := by simp [h.whole]
    have hblank : isBlank '\r' = true := by decide
    have hrest : (trimmedLines (['\r', '\n'] ++ rest)).tail = trimmedLines rest :=
      congrArg List.tail (trimmedLines_append_of_notMem hreturn rest)
    calc trimmedLines (line ++ (['\r', '\n'] ++ rest))
        = trimmedLines (line ++ ['\r'] ++ '\n' :: rest) := by
          rw [List.append_assoc, List.singleton_append, List.cons_append, List.singleton_append]
      _ = trim line :: trimmedLines rest := by
          rw [trimmedLines_append_of_notMem hline, trim_append_blank hblank]
      _ = trim line :: (trimmedLines (['\r', '\n'] ++ rest)).tail := by rw [hrest]

/-- A line of a text stands for its trimmed text among the trimmed lines. -/
theorem LineAt.trimmedLines_eq {before line after : List Char} (h : LineAt before line after) :
    trimmedLines (before ++ line ++ after) =
      trimmedLines before ++ trim line :: (trimmedLines after).tail := by
  calc trimmedLines (before ++ line ++ after)
      = trimmedLines before ++ trimmedLines (line ++ after) := by
        unfold trimmedLines
        rw [List.append_assoc, lines_append h.start, List.map_append]
    _ = trimmedLines before ++ trim line :: (trimmedLines after).tail := by
        rw [h.trimmedLines_append]

/-- What stands before a line that is not the first one has lines of its own. -/
theorem LineAt.trimmedLines_ne_nil {before line after : List Char} (h : LineAt before line after)
    (hbefore : before ≠ []) : trimmedLines before ≠ [] := by
  have hlast : before.getLast? = some '\n' := h.start.resolve_left hbefore
  obtain ⟨others, rfl⟩ := List.getLast?_eq_some_iff.mp hlast
  unfold trimmedLines
  rw [lines_append_lineFeed]
  simp [List.splitOn_ne_nil]

end StoreTrial.Text
