import StoreTrial.Text.Blank

/-!
# Fields and trimmed texts

A text can be a field if it is unbroken, that is, not empty and without blanks. Everything about the
fields of a line follows from one equation, `fields_append_blank`: a line splits at each of its
blanks. So the fields of a line are unbroken (`unbroken_of_mem_fields`), and a line that is made of
unbroken texts with a space between any two has exactly those fields. Trimming a text leaves it as
it is exactly if it neither starts nor ends with a blank (`trim_eq_self_iff`). Blanks around a line
show neither in its trimmed text nor in its fields (`fields_trim`), and between two fields any
blanks are as good as any others (`fields_append_blanks_append`).
-/

namespace StoreTrial.Text

/-- An unbroken text is not empty and has no blank in it. -/
def Unbroken (text : List Char) : Prop := text ≠ [] ∧ ∀ c ∈ text, isBlank c = false

instance (text : List Char) : Decidable (Unbroken text) :=
  have : Decidable (∀ c ∈ text, isBlank c = false) := List.decidableBAll _ text
  inferInstanceAs (Decidable (text ≠ [] ∧ ∀ c ∈ text, isBlank c = false))

/-- No piece of a text that is split holds a character at which it is split. -/
theorem eq_false_of_mem_splitOnP {p : Char → Bool} {text piece : List Char}
    (h : piece ∈ text.splitOnP p) : ∀ c ∈ piece, p c = false := by
  induction text generalizing piece with
  | nil => simp_all [List.splitOnP_nil]
  | cons c text ih =>
    -- The first character either opens a new piece or goes to the front of the first one.
    obtain ⟨first, others, hsplit⟩ := List.exists_cons_of_ne_nil (List.splitOnP_ne_nil p text)
    rw [List.splitOnP_cons_eq_if_modifyHead, hsplit] at h
    rw [hsplit] at ih
    split at h
    · rcases List.mem_cons.mp h with rfl | h
      · simp
      · exact ih h
    · rcases List.mem_cons.mp h with rfl | h
      · have := ih List.mem_cons_self
        simp_all
      · exact ih (List.mem_cons_of_mem _ h)

/-- The empty line has no fields. -/
theorem fields_nil : fields [] = [] := rfl

/-- A line splits at each of its blanks. -/
theorem fields_append_blank {c : Char} (hc : isBlank c = true) (before after : List Char) :
    fields (before ++ c :: after) = fields before ++ fields after := by
  unfold fields
  rw [List.splitOnP_append_cons _ _ hc, List.filter_append]

/-- The fields of a line are not empty and have no blank in them. -/
theorem unbroken_of_mem_fields {line field : List Char} (h : field ∈ fields line) :
    Unbroken field := by
  obtain ⟨hmem, hne⟩ := List.mem_filter.mp h
  exact ⟨by simpa using hne, eq_false_of_mem_splitOnP hmem⟩

/-- A text without blanks is a field of itself, unless it is empty. -/
theorem fields_of_not_blank {text : List Char} (h : ∀ c ∈ text, isBlank c = false) :
    fields text = if text = [] then [] else [text] := by
  unfold fields
  rw [List.splitOnP_eq_singleton h]
  split <;> simp_all

/-- An unbroken text is the only field of itself. -/
theorem fields_of_unbroken {text : List Char} (h : Unbroken text) : fields text = [text] := by
  rw [fields_of_not_blank h.2, if_neg h.1]

/-- An unbroken text at the start of a line, with a space after it, is the first field. -/
theorem fields_append_space {field : List Char} (h : Unbroken field) (rest : List Char) :
    fields (field ++ ' ' :: rest) = field :: fields rest := by
  rw [fields_append_blank isBlank_space, fields_of_unbroken h, List.singleton_append]

/-- A line that is made of fields, with a space before each but the first, has those fields. -/
theorem fields_append_flatMap {first : List Char} {others : List (List Char)}
    (hfirst : Unbroken first) (hothers : ∀ field ∈ others, Unbroken field) :
    fields (first ++ others.flatMap fun field => ' ' :: field) = first :: others := by
  induction others generalizing first with
  | nil => rw [List.flatMap_nil, List.append_nil, fields_of_unbroken hfirst]
  | cons field others ih =>
    obtain ⟨hfield, hothers⟩ := List.forall_mem_cons.mp hothers
    rw [List.flatMap_cons, List.cons_append, fields_append_space hfirst, ih hfield hothers]

/-- An unbroken text has no line feed in it. -/
theorem Unbroken.lineFeed_notMem {text : List Char} (h : Unbroken text) : '\n' ∉ text := by
  intro hmem
  have := h.2 _ hmem
  rw [isBlank_lineFeed] at this
  contradiction

/-- A digit is no blank. -/
theorem not_isBlank_of_isDigit {c : Char} (h : c.isDigit = true) : isBlank c = false := by
  have hbounds : 48 ≤ c.toNat ∧ c.toNat ≤ 57 := Char.isDigit_iff_toNat.mp h
  -- The digits lie between the blanks at 32 and at 133.
  rw [← Bool.not_eq_true]
  simp only [isBlank, blankRanges, List.any_cons, List.any_nil, Bool.or_eq_true,
    Bool.and_eq_true, decide_eq_true_eq, Bool.false_eq_true, or_false]
  omega

/-- The digits of a number are unbroken. -/
theorem unbroken_toDigits (n : Nat) : Unbroken (Nat.toDigits 10 n) :=
  ⟨Nat.toDigits_ne_nil,
    fun _ hc => not_isBlank_of_isDigit
      (Nat.isDigit_of_mem_toDigits (by decide) (by decide) hc)⟩

/-! ## Trimmed texts -/

/-- Trimming adds no character. -/
theorem mem_of_mem_trim {c : Char} {text : List Char} (h : c ∈ trim text) : c ∈ text := by
  have hsub : ∀ text : List Char, ∀ c ∈ text.dropWhile isBlank, c ∈ text :=
    fun text _ hc => (List.dropWhile_suffix _).mem hc
  unfold trim trimEnd trimStart at h
  have hstart := hsub _ c (List.mem_reverse.mp h)
  exact hsub _ c (List.mem_reverse.mp hstart)

/-- A blank at the end of a text is not in the trimmed text. -/
theorem trim_append_blank {c : Char} (hc : isBlank c = true) (text : List Char) :
    trim (text ++ [c]) = trim text := by
  unfold trim trimStart
  rw [List.dropWhile_append]
  split
  · -- There is nothing but blanks.
    rename_i hblank
    rw [List.isEmpty_iff.mp hblank, List.dropWhile_cons_of_pos hc, List.dropWhile_nil]
  · unfold trimEnd
    rw [List.reverse_append, List.reverse_singleton, List.singleton_append,
      List.dropWhile_cons_of_pos hc]

/-- A trimmed text neither starts nor ends with a blank. -/
def Trimmed (text : List Char) : Prop :=
  (∀ c ∈ text.head?, isBlank c = false) ∧ ∀ c ∈ text.getLast?, isBlank c = false

/-- The first character after the blanks at the start of a text is not blank. -/
theorem not_isBlank_of_mem_head?_dropWhile {text : List Char} {c : Char}
    (h : c ∈ (text.dropWhile isBlank).head?) : isBlank c = false := by
  have hhead := List.head?_dropWhile_not isBlank text
  rw [h] at hhead
  exact hhead

/-- What trimming leaves is trimmed. -/
theorem trimmed_trim (text : List Char) : Trimmed (trim text) := by
  have hprefix : trim text <+: trimStart text := by
    have hsuffix : (trimStart text).reverse.dropWhile isBlank <:+ (trimStart text).reverse :=
      List.dropWhile_suffix _
    have hreverse := List.reverse_prefix.mpr hsuffix
    rwa [List.reverse_reverse] at hreverse
  constructor
  · intro c hc
    -- The blanks at the end are taken off last, and what was first stays first.
    obtain ⟨rest, hrest⟩ := hprefix
    have hstart : c ∈ (trimStart text).head? := by
      rw [← hrest, List.head?_append, Option.mem_def.mp hc]
      rfl
    exact not_isBlank_of_mem_head?_dropWhile hstart
  · intro c hc
    rw [trim, trimEnd, List.getLast?_reverse] at hc
    exact not_isBlank_of_mem_head?_dropWhile hc

/-- Trimming leaves exactly the trimmed texts as they are. -/
theorem trim_eq_self_iff {text : List Char} : trim text = text ↔ Trimmed text := by
  constructor
  · intro h
    rw [← h]
    exact trimmed_trim text
  · rintro ⟨hhead, hlast⟩
    have hdrop : ∀ text : List Char, (∀ c ∈ text.head?, isBlank c = false) →
        text.dropWhile isBlank = text := by
      intro text h
      cases text with
      | nil => rfl
      | cons c text => rw [List.dropWhile_cons_of_neg (by simp [h c rfl])]
    unfold trim trimEnd trimStart
    rw [hdrop text hhead, hdrop text.reverse (by rwa [List.head?_reverse]), List.reverse_reverse]

/-- A text without blanks is its own trimmed text. -/
theorem trim_of_not_blank {text : List Char} (h : ∀ c ∈ text, isBlank c = false) :
    trim text = text := by
  rw [trim_eq_self_iff]
  exact ⟨fun c hc => h c (List.mem_of_mem_head? hc), fun c hc => h c (List.mem_of_getLast? hc)⟩

/-! ## Blanks around and between fields -/

/-- Blanks at the start of a text do not show in the trimmed text. -/
theorem trim_blanks_append {blanks : List Char} (h : ∀ c ∈ blanks, isBlank c = true)
    (text : List Char) : trim (blanks ++ text) = trim text := by
  unfold trim trimStart
  rw [List.dropWhile_append_of_pos h]

/-- Blanks at the end of a text do not show in the trimmed text. -/
theorem trim_append_blanks {blanks : List Char} (h : ∀ c ∈ blanks, isBlank c = true)
    (text : List Char) : trim (text ++ blanks) = trim text := by
  induction blanks generalizing text with
  | nil => rw [List.append_nil]
  | cons c blanks ih =>
    obtain ⟨hc, hblanks⟩ := List.forall_mem_cons.mp h
    calc trim (text ++ c :: blanks)
        = trim (text ++ [c] ++ blanks) := by rw [List.append_assoc, List.singleton_append]
      _ = trim (text ++ [c]) := ih hblanks _
      _ = trim text := trim_append_blank hc text

/-- Blanks at the start of a line belong to no field. -/
theorem fields_blanks_append {blanks : List Char} (h : ∀ c ∈ blanks, isBlank c = true)
    (line : List Char) : fields (blanks ++ line) = fields line := by
  induction blanks with
  | nil => rfl
  | cons c blanks ih =>
    obtain ⟨hc, hblanks⟩ := List.forall_mem_cons.mp h
    calc fields (c :: blanks ++ line)
        = fields [] ++ fields (blanks ++ line) := fields_append_blank hc [] _
      _ = fields line := ih hblanks

/-- Blanks within a line keep apart what stands before and after them, however many they are. -/
theorem fields_append_blanks_append {blanks : List Char} (hne : blanks ≠ [])
    (h : ∀ c ∈ blanks, isBlank c = true) (before after : List Char) :
    fields (before ++ blanks ++ after) = fields before ++ fields after := by
  obtain ⟨c, others, rfl⟩ := List.exists_cons_of_ne_nil hne
  obtain ⟨hc, hothers⟩ := List.forall_mem_cons.mp h
  rw [List.append_assoc, List.cons_append, fields_append_blank hc, fields_blanks_append hothers]

/-- Blanks at the end of a line belong to no field. -/
theorem fields_append_blanks {blanks : List Char} (h : ∀ c ∈ blanks, isBlank c = true)
    (line : List Char) : fields (line ++ blanks) = fields line := by
  cases blanks with
  | nil => rw [List.append_nil]
  | cons c others =>
    have hblanks := fields_append_blanks_append (List.cons_ne_nil c others) h line []
    rwa [List.append_nil, fields_nil, List.append_nil] at hblanks

/-- A text is its trimmed text with blanks on both sides. -/
theorem exists_blanks_trim (text : List Char) :
    ∃ start stop, text = start ++ trim text ++ stop ∧ (∀ c ∈ start, isBlank c = true) ∧
      ∀ c ∈ stop, isBlank c = true := by
  have hblank : ∀ text : List Char, ∀ c ∈ text.takeWhile isBlank, isBlank c = true :=
    fun _ c hc => List.all_eq_true.mp List.all_takeWhile c hc
  have hstart : text = text.takeWhile isBlank ++ trimStart text :=
    List.takeWhile_append_dropWhile.symm
  have hstop : trimStart text =
      trim text ++ ((trimStart text).reverse.takeWhile isBlank).reverse := by
    unfold trim trimEnd
    rw [← List.reverse_append, List.takeWhile_append_dropWhile, List.reverse_reverse]
  have hend : ∀ c ∈ ((trimStart text).reverse.takeWhile isBlank).reverse, isBlank c = true :=
    fun c hc => hblank _ c (List.mem_reverse.mp hc)
  refine ⟨_, _, ?_, hblank text, hend⟩
  rw [List.append_assoc, ← hstop, ← hstart]

/-- Trimming a line leaves its fields as they are. -/
theorem fields_trim (line : List Char) : fields (trim line) = fields line := by
  obtain ⟨start, stop, hline, hstart, hstop⟩ := exists_blanks_trim line
  calc fields (trim line)
      = fields (start ++ (trim line ++ stop)) := by
        rw [fields_blanks_append hstart, fields_append_blanks hstop]
    _ = fields line := by rw [← List.append_assoc, ← hline]

/-- A line has no field exactly if all of its characters are blank. -/
theorem fields_eq_nil_iff {line : List Char} :
    fields line = [] ↔ ∀ c ∈ line, isBlank c = true := by
  constructor
  · intro h
    induction line with
    | nil => simp
    | cons c line ih =>
      have hc : isBlank c = true := by
        -- A character that is not blank would belong to the first field.
        refine Decidable.byContradiction fun hc => ?_
        obtain ⟨first, others, hsplit⟩ :=
          List.exists_cons_of_ne_nil (List.splitOnP_ne_nil isBlank line)
        rw [fields, List.splitOnP_cons_eq_if_modifyHead, if_neg hc, hsplit] at h
        simp at h
      have hrest : fields (c :: line) = fields line := fields_append_blank hc [] line
      exact List.forall_mem_cons.mpr ⟨hc, ih (hrest ▸ h)⟩
  · intro h
    have hblanks := fields_blanks_append h []
    rwa [List.append_nil] at hblanks

/-- Nothing is left of a text when it is trimmed exactly if all of its characters are blank. -/
theorem trim_eq_nil_iff {text : List Char} : trim text = [] ↔ ∀ c ∈ text, isBlank c = true := by
  constructor
  · intro h
    rw [← fields_eq_nil_iff, ← fields_trim, h]
    rfl
  · intro h
    have hblanks := trim_blanks_append h []
    rwa [List.append_nil] at hblanks

end StoreTrial.Text
