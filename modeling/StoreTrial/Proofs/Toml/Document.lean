import StoreTrial.Toml
import StoreTrial.Proofs.Text.Decimal
import StoreTrial.Proofs.Text.Lines

/-!
# Documents of decimal numbers

A document can be made of bare names and natural numbers, with one assignment to a line and each
number in its digits (`document`). Every line of such a document has the form that is asked for, so
all that counts is the size of the numbers: what is assigned are the integers of 64 signed bits, and
of the natural numbers those are the ones below `2 ^ 63` (`integer?_toDigits`). `parse?_document`
says that the document is read as what it was made from if all of its numbers are below that bound,
and that it is refused otherwise.
-/

namespace StoreTrial.Toml

open Text

/-! ## Numbers -/

/-- The least natural number that is no integer of 64 signed bits, `2 ^ 63`. -/
def limit : Nat := 0x8000000000000000

/-- Digits in base ten have the value that they have as a decimal number. -/
theorem ofDigits?_of_isDigit {digits : List Char} (h : ∀ c ∈ digits, c.isDigit = true) :
    ofDigits? 10 digits = some (Nat.ofDigitChars 10 digits 0) := by
  unfold ofDigits?
  -- The value of the digits that were read so far has to stay general.
  generalize 0 = value
  induction digits generalizing value with
  | nil => rfl
  | cons c digits ih =>
    obtain ⟨hc, hdigits⟩ := List.forall_mem_cons.mp h
    have hrange : '0' ≤ c ∧ c ≤ '9' := by
      simpa [Char.isDigit, Char.le_def] using hc
    have hvalue : digitValue? 10 c = some (c.toNat - '0'.toNat) := by
      have hlt : c.toNat - '0'.toNat < 10 := by
        have hle : c.toNat ≤ '9'.toNat := hrange.2
        have hnine : '9'.toNat = 57 := rfl
        have hzero : '0'.toNat = 48 := rfl
        omega
      simp only [digitValue?, if_pos hrange, if_pos hlt]
    rw [List.foldlM_cons, hvalue, Nat.ofDigitChars_cons]
    exact ih hdigits _

/-- The digits of a number denote it in base ten. -/
theorem decimal?_toDigits (n : Nat) : decimal? (Nat.toDigits 10 n) = some n := by
  have hdigit : ∀ c ∈ Nat.toDigits 10 n, c.isDigit = true := fun c hc =>
    Nat.isDigit_of_mem_toDigits (by decide) (by decide) hc
  have hzero := Decimal.not_leading_zero_toDigits n
  have hwithout : withoutUnderscores? (Nat.toDigits 10 n) = some (Nat.toDigits 10 n) := by
    have hsplit : (Nat.toDigits 10 n).splitOn '_' = [Nat.toDigits 10 n] :=
      List.splitOn_eq_singleton Nat.underscore_not_in_toDigits
    have hne : (Nat.toDigits 10 n).isEmpty = false :=
      List.isEmpty_eq_false_iff.mpr Nat.toDigits_ne_nil
    simp [withoutUnderscores?, hsplit, hne]
  rw [decimal?, if_neg hzero, natural?, hwithout]
  exact (ofDigits?_of_isDigit hdigit).trans (congrArg some Nat.ofDigitChars_ten_toDigits)

/-- The digits of a number denote an integer of 64 signed bits if the number is small enough. -/
theorem integer?_toDigits (n : Nat) :
    integer? (Nat.toDigits 10 n) = if n < limit then some (n : Int) else none := by
  have hdigit : ∀ c ∈ Nat.toDigits 10 n, c.isDigit = true := fun c hc =>
    Nat.isDigit_of_mem_toDigits (by decide) (by decide) hc
  have hbounds : (Int64.minValue.toInt ≤ (n : Int) ∧ (n : Int) ≤ Int64.maxValue.toInt) ↔
      n < limit := by
    have hmin : Int64.minValue.toInt = -0x8000000000000000 := rfl
    have hmax : Int64.maxValue.toInt = 0x8000000000000000 - 1 := rfl
    have hlimit : limit = 0x8000000000000000 := rfl
    omega
  have hdecimal := decimal?_toDigits n
  unfold integer?
  -- Digits have neither a base mark nor a sign.
  split
  case h_6 =>
    rw [hdecimal]
    show (if Int64.minValue.toInt ≤ (n : Int) ∧ (n : Int) ≤ Int64.maxValue.toInt then
      some (n : Int) else none) = _
    simp only [hbounds]
  all_goals
    rename_i heq
    rw [heq] at hdigit
    simp [Char.isDigit] at hdigit

/-! ## Lines -/

/-- A bare word is not empty, and all of its characters may stand in a name without quotation
marks. -/
def Bare (word : List Char) : Prop := word ≠ [] ∧ ∀ c ∈ word, isBare c = true

instance (word : List Char) : Decidable (Bare word) :=
  have : Decidable (∀ c ∈ word, isBare c = true) := List.decidableBAll _ word
  inferInstanceAs (Decidable (word ≠ [] ∧ ∀ c ∈ word, isBare c = true))

/-- The digits of a number are a bare word. -/
theorem bare_toDigits (n : Nat) : Bare (Nat.toDigits 10 n) := by
  refine ⟨Nat.toDigits_ne_nil, fun c hc => ?_⟩
  have hdigit : c.isDigit = true := Nat.isDigit_of_mem_toDigits (by decide) (by decide) hc
  simp [isBare, Char.isAlphanum, hdigit]

section

variable {word : List Char}

/-- A character that no bare word can have is not in one. -/
theorem Bare.notMem (h : Bare word) {c : Char} (hc : isBare c = false) : c ∉ word := by
  intro hmem
  have hbare := h.2 c hmem
  rw [hc] at hbare
  contradiction

/-- A text that starts with a bare word starts with a character of that word. -/
theorem Bare.exists_cons (h : Bare word) (rest : List Char) :
    ∃ c ∈ word, ∃ others, word ++ rest = c :: others := by
  obtain ⟨first, others, rfl⟩ := List.exists_cons_of_ne_nil h.1
  exact ⟨first, List.mem_cons_self, others ++ rest, rfl⟩

/-- No gap stands before a bare word, and none in it. -/
theorem Bare.not_isGap (h : Bare word) {c : Char} (hc : c ∈ word) : isGap c = false := by
  rw [← Bool.not_eq_true]
  intro hgap
  simp only [isGap, Bool.or_eq_true, beq_iff_eq] at hgap
  rcases hgap with rfl | rfl
  · exact h.notMem (by decide) hc
  · exact h.notMem (by decide) hc

/-- A text that starts with a bare word has no gap before it. -/
theorem skipGap_append (h : Bare word) (rest : List Char) :
    skipGap (word ++ rest) = word ++ rest := by
  obtain ⟨c, hc, others, hcons⟩ := h.exists_cons rest
  rw [hcons, skipGap, List.dropWhile_cons_of_neg (by simp [h.not_isGap hc])]

/-- A text that starts with a bare word is no comment. -/
theorem isComment_append (h : Bare word) (rest : List Char) :
    isComment (word ++ rest) = false := by
  obtain ⟨c, hc, others, hcons⟩ := h.exists_cons rest
  have hmark : c ≠ '#' := fun heq => h.notMem (c := '#') (by decide) (heq ▸ hc)
  rw [hcons]
  unfold isComment
  split <;> simp_all

/-- A bare word is read as a name, up to a character that no bare word can have. -/
theorem readName_append (h : Bare word) {c : Char} (hc : isBare c = false) (rest : List Char) :
    readName (word ++ c :: rest) = some (String.ofList word, c :: rest) := by
  have htake : (word ++ c :: rest).takeWhile isBare = word := by
    rw [List.takeWhile_append_of_pos h.2, List.takeWhile_cons_of_neg (by simp [hc]),
      List.append_nil]
  have hdrop : (word ++ c :: rest).dropWhile isBare = c :: rest := by
    rw [List.dropWhile_append_of_pos h.2, List.dropWhile_cons_of_neg (by simp [hc])]
  have hne : word.isEmpty = false := List.isEmpty_eq_false_iff.mpr h.1
  obtain ⟨first, hfirst, others, hcons⟩ := h.exists_cons (c :: rest)
  unfold readName
  -- The word does not start with a quotation mark of either kind.
  split
  · rename_i heq
    obtain ⟨rfl, -⟩ := List.cons.inj (hcons.symm.trans heq)
    exact absurd hfirst (h.notMem (by decide))
  · rename_i heq
    obtain ⟨rfl, -⟩ := List.cons.inj (hcons.symm.trans heq)
    exact absurd hfirst (h.notMem (by decide))
  · simp only [htake, hdrop, hne, Bool.false_eq_true, if_false]

/-- A line with a bare word on either side of an `=` assigns the integer that the second denotes to
the first. -/
theorem readLine_assignment {name : List Char} (hname : Bare name) (h : Bare word) :
    readLine (name ++ ' ' :: '=' :: ' ' :: word) =
      (integer? word).map fun value => some (String.ofList name, value) := by
  have hequals : skipGap (' ' :: '=' :: ' ' :: word) = '=' :: ' ' :: word := rfl
  have hvalue : skipGap (' ' :: word) = word := by
    have hskip := skipGap_append h []
    rwa [List.append_nil] at hskip
  have hword : ∀ c ∈ word, (!isGap c && c != '#') = true := by
    intro c hc
    have hmark : c ≠ '#' := fun heq => h.notMem (c := '#') (by decide) (heq ▸ hc)
    simp [h.not_isGap hc, hmark]
  have htake : word.takeWhile (fun c => !isGap c && c != '#') = word := by
    rw [← List.append_nil word, List.takeWhile_append_of_pos hword, List.takeWhile_nil]
  have hdrop : word.dropWhile (fun c => !isGap c && c != '#') = [] := by
    rw [← List.append_nil word, List.dropWhile_append_of_pos hword, List.dropWhile_nil]
  simp only [readLine, skipGap_append hname, isComment_append hname,
    readName_append hname (show isBare ' ' = false by decide), hequals, hvalue, htake, hdrop,
    bind, Option.bind, Bool.false_eq_true, if_false]
  cases integer? word <;> rfl

end

/-! ## Documents -/

/-- The line that assigns a number to a name. -/
def numberLine (assignment : String × Nat) : List Char :=
  assignment.1.toList ++ ' ' :: '=' :: ' ' :: Nat.toDigits 10 assignment.2

/-- The document with one line for each number. -/
def document (assignments : List (String × Nat)) : String :=
  String.ofList (joinLines (assignments.map numberLine))

/-- The line of a number is bare apart from the `=` and the spaces around it. -/
theorem notMem_numberLine {assignment : String × Nat} (h : Bare assignment.1.toList) {c : Char}
    (hc : isBare c = false) (hspace : c ≠ ' ') (hequals : c ≠ '=') : c ∉ numberLine assignment := by
  have hname : c ∉ assignment.1.toList := h.notMem hc
  have hdigits : c ∉ Nat.toDigits 10 assignment.2 := (bare_toDigits _).notMem hc
  simp [numberLine, hname, hdigits, hspace, hequals]

/-- The line of a number assigns it if it is small enough, and is refused otherwise. -/
theorem readLine_numberLine {assignment : String × Nat} (h : Bare assignment.1.toList) :
    readLine (numberLine assignment) =
      if assignment.2 < limit then some (some (assignment.1, (assignment.2 : Int))) else none := by
  rw [numberLine, readLine_assignment h (bare_toDigits _), integer?_toDigits, String.ofList_toList]
  split <;> rfl

/-- Lines of numbers assign all of them if all are small enough, and one that is not is refused. -/
theorem mapM_readLine {assignments : List (String × Nat)}
    (h : ∀ assignment ∈ assignments, Bare assignment.1.toList) :
    (assignments.map numberLine).mapM readLine =
      if ∀ assignment ∈ assignments, assignment.2 < limit then
        some (assignments.map fun assignment => some (assignment.1, (assignment.2 : Int)))
      else none := by
  induction assignments with
  | nil => rfl
  | cons assignment assignments ih =>
    obtain ⟨hfirst, hothers⟩ := List.forall_mem_cons.mp h
    rw [List.map_cons, List.mapM_cons, readLine_numberLine hfirst, ih hothers]
    simp only [List.forall_mem_cons]
    by_cases hsmall : assignment.2 < limit
    · by_cases hall : ∀ other ∈ assignments, other.2 < limit
      · rw [if_pos hsmall, if_pos hall, if_pos ⟨hsmall, hall⟩]
        rfl
      · rw [if_pos hsmall, if_neg hall, if_neg fun hboth => hall hboth.2]
        rfl
    · have hnot : ¬(assignment.2 < limit ∧ ∀ other ∈ assignments, other.2 < limit) :=
        fun hboth => hsmall hboth.1
      rw [if_neg hsmall, if_neg hnot]
      rfl

/-- A document of numbers has the lines of these numbers, and no others. -/
theorem lines_document {assignments : List (String × Nat)}
    (h : ∀ assignment ∈ assignments, Bare assignment.1.toList) :
    lines (skipMark (document assignments).toList) = assignments.map numberLine := by
  have hlineFeed : ∀ line ∈ assignments.map numberLine, '\n' ∉ line := by
    intro line hline
    obtain ⟨assignment, hmem, rfl⟩ := List.mem_map.mp hline
    exact notMem_numberLine (h assignment hmem) (by decide) (by decide) (by decide)
  have hreturn : (assignments.map numberLine).map dropReturn = assignments.map numberLine := by
    rw [List.map_map]
    refine List.map_congr_left fun assignment hmem => dropReturn_of_notMem ?_
    exact notMem_numberLine (h assignment hmem) (by decide) (by decide) (by decide)
  have hmark : skipMark (document assignments).toList = joinLines (assignments.map numberLine) := by
    rw [document, String.toList_ofList]
    cases assignments with
    | nil => rfl
    | cons assignment assignments =>
      -- The document starts with a character of the first name, which is not a mark.
      have hname : Bare assignment.1.toList := h assignment List.mem_cons_self
      obtain ⟨c, hc, others, hcons⟩ := hname.exists_cons
        (' ' :: '=' :: ' ' :: Nat.toDigits 10 assignment.2 ++
          '\n' :: joinLines (assignments.map numberLine))
      have htext : joinLines ((assignment :: assignments).map numberLine) = c :: others := by
        rw [← hcons, List.map_cons, joinLines_cons, numberLine, List.append_assoc]
      rw [htext]
      unfold skipMark
      split
      · rename_i heq
        obtain ⟨rfl, -⟩ := List.cons.inj heq
        exact absurd hc (hname.notMem (by decide))
      · rfl
  rw [hmark, lines_joinLines hlineFeed, hreturn]

/-- A document of numbers under different bare names is read as what it was made from if all numbers
are below the limit, and refused otherwise. -/
theorem parse?_document {assignments : List (String × Nat)}
    (h : ∀ assignment ∈ assignments, Bare assignment.1.toList)
    (hnodup : (assignments.map Prod.fst).Nodup) :
    parse? (document assignments) =
      if ∀ assignment ∈ assignments, assignment.2 < limit then
        some (assignments.map fun assignment => (assignment.1, (assignment.2 : Int)))
      else none := by
  unfold parse?
  rw [lines_document h, mapM_readLine h]
  split
  · have hassigned : (assignments.map fun assignment =>
        some (assignment.1, (assignment.2 : Int))).filterMap id =
        assignments.map fun assignment => (assignment.1, (assignment.2 : Int)) := by
      rw [List.filterMap_map]
      show assignments.filterMap (some ∘ fun assignment => (assignment.1, (assignment.2 : Int))) = _
      rw [List.filterMap_eq_map]
    have hnames : ((assignments.map fun assignment =>
        (assignment.1, (assignment.2 : Int))).map (·.1)).Nodup := by
      rw [List.map_map]
      exact hnodup
    show (if _ then _ else _) = _
    rw [hassigned, if_pos hnames]
    rfl
  · rfl

end StoreTrial.Toml
