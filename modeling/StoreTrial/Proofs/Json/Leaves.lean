import StoreTrial.Json.Parser
import StoreTrial.Json.Printer
import StoreTrial.Proofs.Text.Decimal

/-!
# Strings and numbers in JSON are read back

The parts of a value that have no parts of their own. A character of a string is read back from its
escape, be it a letter after a backslash, four hexadecimal digits or the character itself
(`readParts_escape`), so a quoted string is read back whatever is in it (`readString_quote`). The
digits of a number are read back where no text follows that would belong to the number
(`readUnsigned_toDigits`).
-/

namespace StoreTrial.Json

open Text

/-! ## Strings -/

/-- A hexadecimal digit has the value that it was written for. -/
theorem hexValue?_hexDigit : ∀ n < 16, hexValue? (hexDigit n) = some n := by decide

/-- Two hexadecimal digits after two zeros have the value that they were written for. -/
theorem unit?_hexDigits {n : Nat} (h : n < 256) :
    unit? '0' '0' (hexDigit (n / 16)) (hexDigit (n % 16)) = some n := by
  have hzero : hexValue? '0' = some 0 := by decide
  have hhigh := hexValue?_hexDigit (n / 16) (by omega)
  have hlow := hexValue?_hexDigit (n % 16) (by omega)
  have hvalue : ((0 * 16 + 0) * 16 + n / 16) * 16 + n % 16 = n := by omega
  simp only [unit?, hzero, hhigh, hlow, Option.bind_eq_bind, Option.bind_some, hvalue]
  rfl

/-- A letter after a backslash is read as the character that it stands for. -/
theorem readParts_letter {letter c : Char} (hletter : unescape? letter = some c)
    (hu : letter ≠ 'u') (text : List Char) :
    readParts ('\\' :: letter :: text) =
      (readParts text).map fun result => (.char c :: result.1, result.2) := by
  rw [readParts, hletter]
  · cases readParts text <;> rfl
  · intro a b c d rest hletter
    exact absurd hletter hu

/-- Four hexadecimal digits after a backslash and `u` are read as their value. -/
theorem readParts_unit {n : Nat} (h : n < 256) (text : List Char) :
    readParts ('\\' :: 'u' :: '0' :: '0' :: hexDigit (n / 16) :: hexDigit (n % 16) :: text) =
      (readParts text).map fun result => (.unit n :: result.1, result.2) := by
  rw [readParts, unit?_hexDigits h]
  cases readParts text <;> rfl

/-- A character that needs no escape is read as itself. -/
theorem readParts_char {c : Char} (hquote : c ≠ '"') (hslash : c ≠ '\\') (hspace : 0x20 ≤ c.toNat)
    (text : List Char) :
    readParts (c :: text) =
      (readParts text).map fun result => (.char c :: result.1, result.2) := by
  rw [readParts, if_neg (by omega)]
  · cases readParts text <;> rfl
  · exact hquote
  · intro a b c' d rest hc
    exact absurd hc hslash
  · intro letter rest hc
    exact absurd hc hslash

/-- A number below the surrogates stands for its character. -/
theorem assemble_unit {n : Nat} (h : n < 0xD800) (parts : List Part) :
    assemble (.unit n :: parts) = (assemble parts).map (Char.ofNat n :: ·) := by
  rw [assemble.eq_def]
  exact if_pos (Or.inl h)

/-- The escape of a character is read as one part, which stands for that character. -/
theorem readParts_escape (c : Char) (text : List Char) :
    ∃ part, readParts (escape c ++ text) =
        (readParts text).map (fun result => (part :: result.1, result.2)) ∧
      ∀ parts, assemble (part :: parts) = (assemble parts).map (c :: ·) := by
  have hchar : ∀ letter, unescape? letter = some c → letter ≠ 'u' →
      ∃ part, readParts (['\\', letter] ++ text) =
          (readParts text).map (fun result => (part :: result.1, result.2)) ∧
        ∀ parts, assemble (part :: parts) = (assemble parts).map (c :: ·) :=
    fun letter hletter hu => ⟨.char c, readParts_letter hletter hu text, fun _ => rfl⟩
  unfold escape
  by_cases hquote : c = '"'
  · subst hquote
    exact hchar '"' rfl (by decide)
  rw [if_neg hquote]
  by_cases hslash : c = '\\'
  · subst hslash
    exact hchar '\\' rfl (by decide)
  rw [if_neg hslash]
  by_cases hspace : 0x20 ≤ c.toNat
  · rw [if_pos hspace]
    exact ⟨.char c, readParts_char hquote hslash hspace text, fun _ => rfl⟩
  rw [if_neg hspace]
  -- The control characters: five have a letter, and the others are written by their numbers.
  split
  · subst c
    exact hchar 'b' rfl (by decide)
  split
  · subst c
    exact hchar 't' rfl (by decide)
  split
  · subst c
    exact hchar 'n' rfl (by decide)
  split
  · subst c
    exact hchar 'f' rfl (by decide)
  split
  · subst c
    exact hchar 'r' rfl (by decide)
  · refine ⟨.unit c.toNat, readParts_unit (by omega) text, fun parts => ?_⟩
    rw [assemble_unit (by omega), Char.ofNat_toNat]

/-- The escapes of characters up to a quotation mark are read as those characters. -/
theorem readParts_flatMap_escape (cs rest : List Char) :
    ∃ parts, readParts (cs.flatMap escape ++ '"' :: rest) = some (parts, rest) ∧
      assemble parts = some cs := by
  induction cs with
  | nil => exact ⟨[], by rw [List.flatMap_nil, List.nil_append, readParts], rfl⟩
  | cons c cs ih =>
    obtain ⟨parts, hread, hassemble⟩ := ih
    obtain ⟨part, hescape, hpart⟩ := readParts_escape c (cs.flatMap escape ++ '"' :: rest)
    refine ⟨part :: parts, ?_, ?_⟩
    · rw [List.flatMap_cons, List.append_assoc, hescape, hread]
      rfl
    · rw [hpart, hassemble]
      rfl

/-- A quoted string is read back, whatever is in it and whatever follows it. -/
theorem readString_quote (s : String) (rest : List Char) :
    ∃ text, quote s ++ rest = '"' :: text ∧ readString text = some (some s, rest) := by
  obtain ⟨parts, hread, hassemble⟩ := readParts_flatMap_escape s.toList rest
  refine ⟨s.toList.flatMap escape ++ '"' :: rest, ?_, ?_⟩
  · simp [quote]
  · rw [readString, hread]
    simp [hassemble]

/-! ## Numbers -/

/-- A text that does not go on with a number: it does not start with a digit, and neither with a
fraction nor with an exponent. -/
def Ends (rest : List Char) : Prop :=
  ∀ c ∈ rest.head?, c.isDigit = false ∧ c ≠ '.' ∧ c ≠ 'e' ∧ c ≠ 'E'

/-- A number ends where a mark stands that no number goes on with. -/
theorem ends_cons {c : Char} (h : c.isDigit = false ∧ c ≠ '.' ∧ c ≠ 'e' ∧ c ≠ 'E')
    (rest : List Char) : Ends (c :: rest) := by
  intro c' hc'
  rw [List.head?_cons, Option.mem_some] at hc'
  rw [← hc']
  exact h

/-- A text that does not go on with a number has no more digits. -/
theorem Ends.takeWhile_isDigit {rest : List Char} (h : Ends rest) :
    rest.takeWhile Char.isDigit = [] ∧ rest.dropWhile Char.isDigit = rest := by
  cases rest with
  | nil => exact ⟨rfl, rfl⟩
  | cons c rest =>
    have hdigit := (h c rfl).1
    exact ⟨List.takeWhile_cons_of_neg (by simp [hdigit]),
      List.dropWhile_cons_of_neg (by simp [hdigit])⟩

/-- A text that does not go on with a number starts with no fraction. -/
theorem Ends.readFraction {rest : List Char} (h : Ends rest) :
    readFraction rest = some (false, rest) := by
  unfold Json.readFraction
  split
  · exact absurd rfl (h '.' rfl).2.1
  · rfl

/-- A text that does not go on with a number starts with no exponent. -/
theorem Ends.readExponent {rest : List Char} (h : Ends rest) :
    readExponent rest = some (false, rest) := by
  unfold Json.readExponent
  split
  · exact absurd rfl (h 'e' rfl).2.2.1
  · exact absurd rfl (h 'E' rfl).2.2.2
  · rfl

/-- The digits of a number are read back if the number ends after them. -/
theorem readUnsigned_toDigits (n : Nat) {rest : List Char} (h : Ends rest) :
    readUnsigned (Nat.toDigits 10 n ++ rest) = some (number n, rest) := by
  have hdigits : ∀ c ∈ Nat.toDigits 10 n, c.isDigit = true := fun c hc =>
    Nat.isDigit_of_mem_toDigits (by decide) (by decide) hc
  have htake : (Nat.toDigits 10 n ++ rest).takeWhile Char.isDigit = Nat.toDigits 10 n := by
    rw [List.takeWhile_append_of_pos hdigits, h.takeWhile_isDigit.1, List.append_nil]
  have hdrop : (Nat.toDigits 10 n ++ rest).dropWhile Char.isDigit = rest := by
    rw [List.dropWhile_append_of_pos hdigits, h.takeWhile_isDigit.2]
  have hform : ¬((Nat.toDigits 10 n).isEmpty ∨
      ((Nat.toDigits 10 n).head? = some '0' ∧ Nat.toDigits 10 n ≠ ['0'])) :=
    not_or.mpr ⟨by simp [Nat.toDigits_ne_nil], Decimal.not_leading_zero_toDigits n⟩
  simp only [readUnsigned, htake, hdrop, if_neg hform, h.readFraction, h.readExponent,
    Option.bind_eq_bind, Option.bind_some, Nat.ofDigitChars_ten_toDigits]
  rfl

/-- The digits of a number start with a digit. -/
theorem exists_toDigits_eq_cons (n : Nat) :
    ∃ c text, Nat.toDigits 10 n = c :: text ∧ c.isDigit = true := by
  obtain ⟨c, text, hdigits⟩ : ∃ c text, Nat.toDigits 10 n = c :: text :=
    List.exists_cons_of_ne_nil Nat.toDigits_ne_nil
  have hmem : c ∈ Nat.toDigits 10 n := hdigits ▸ List.mem_cons_self
  exact ⟨c, text, hdigits, Nat.isDigit_of_mem_toDigits (by decide) (by decide) hmem⟩

end StoreTrial.Json
