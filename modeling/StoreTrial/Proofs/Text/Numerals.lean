import StoreTrial.Proofs.Text.Decimal
import StoreTrial.Proofs.Text.Fields

/-!
# How numbers are spelled

Every number has one spelling without a sign and leading zeros, and all others come from that one:
`Spells` puts zeros, a sign and blanks around it. Digits are zeros and the digits of their number
(`exists_zeros`), so a trimmed text denotes a number exactly if the text spells it
(`denotes_trim_iff`).
-/

namespace StoreTrial.Text.Decimal

/-- The text has the digits of `n`, with zeros and then an optional `+` before them, and blanks
around all that. -/
def Spells (text : List Char) (n : Nat) : Prop :=
  ∃ (before after sign : List Char) (zeros : Nat), (∀ c ∈ before, isBlank c = true) ∧
    (∀ c ∈ after, isBlank c = true) ∧ (sign = [] ∨ sign = ['+']) ∧
    text = before ++ (sign ++ (List.replicate zeros '0' ++ Nat.toDigits 10 n)) ++ after

/-- A digit stands for a number below ten. -/
theorem digitChar_of_isDigit {c : Char} (h : c.isDigit = true) :
    c.toNat - '0'.toNat < 10 ∧ Nat.digitChar (c.toNat - '0'.toNat) = c := by
  have hbounds : 48 ≤ c.toNat ∧ c.toNat ≤ 57 := Char.isDigit_iff_toNat.mp h
  have hcode : '0'.toNat = 48 := rfl
  have hlt : c.toNat - '0'.toNat < 10 := by omega
  refine ⟨hlt, Char.toNat_inj.mp ?_⟩
  rw [Nat.toNat_digitChar_of_lt_ten hlt]
  omega

/-- Digits after those of a positive number are the digits of the number of all of them. -/
theorem toDigits_ofDigitChars {digits : List Char} (h : ∀ c ∈ digits, c.isDigit = true) {n : Nat}
    (hn : 0 < n) :
    Nat.toDigits 10 (Nat.ofDigitChars 10 digits n) = Nat.toDigits 10 n ++ digits := by
  induction digits generalizing n with
  | nil => exact (List.append_nil _).symm
  | cons c digits ih =>
    obtain ⟨hc, hdigits⟩ := List.forall_mem_cons.mp h
    obtain ⟨hlt, hchar⟩ := digitChar_of_isDigit hc
    rw [Nat.ofDigitChars_cons, ih hdigits (by omega),
      ← Nat.toDigits_append_toDigits (by decide) hn hlt, Nat.toDigits_of_lt_base hlt, hchar,
      List.append_assoc, List.singleton_append]

/-- Digits are zeros and the digits of their number. -/
theorem exists_zeros {digits : List Char} (hne : digits ≠ [])
    (h : ∀ c ∈ digits, c.isDigit = true) : ∃ zeros,
      digits = List.replicate zeros '0' ++ Nat.toDigits 10 (Nat.ofDigitChars 10 digits 0) := by
  induction digits with
  | nil => contradiction
  | cons c digits ih =>
    obtain ⟨hc, hdigits⟩ := List.forall_mem_cons.mp h
    obtain ⟨hlt, hchar⟩ := digitChar_of_isDigit hc
    rw [Nat.ofDigitChars_cons, Nat.mul_zero, Nat.zero_add]
    rcases Nat.eq_zero_or_pos (c.toNat - '0'.toNat) with hzero | hpos
    · -- A zero is the number zero if it is the last digit, and otherwise one more leading zero.
      rw [hzero] at hchar ⊢
      obtain rfl : c = '0' := hchar.symm
      by_cases hlast : digits = []
      · exact ⟨0, by rw [hlast]; rfl⟩
      · obtain ⟨zeros, hzeros⟩ := ih hlast hdigits
        refine ⟨zeros + 1, ?_⟩
        rw [List.replicate_succ, List.cons_append, ← hzeros]
    · refine ⟨0, ?_⟩
      rw [toDigits_ofDigitChars hdigits hpos, Nat.toDigits_of_lt_base hlt, hchar]
      rfl

/-- Zeros before the digits of a number make no difference to what they denote. -/
theorem ofDigitChars_zeros_append (zeros n : Nat) :
    Nat.ofDigitChars 10 (List.replicate zeros '0' ++ Nat.toDigits 10 n) 0 = n := by
  rw [Nat.ofDigitChars_append, Nat.ofDigitChars_replicate_zero, Nat.mul_zero,
    Nat.ofDigitChars_ten_toDigits]

/-- A text denotes a number exactly if it has the digits of that number, with zeros and then an
optional sign before them. -/
theorem denotes_iff_exists_zeros {text : List Char} {n : Nat} :
    Denotes text n ↔ ∃ (sign : List Char) (zeros : Nat), (sign = [] ∨ sign = ['+']) ∧
      text = sign ++ (List.replicate zeros '0' ++ Nat.toDigits 10 n) := by
  constructor
  · rintro ⟨digits, hsign, hne, hdigit, rfl⟩
    obtain ⟨zeros, hzeros⟩ := exists_zeros hne hdigit
    rcases hsign with rfl | rfl
    · exact ⟨[], zeros, .inl rfl, hzeros⟩
    · exact ⟨['+'], zeros, .inr rfl, congrArg (List.cons '+') hzeros⟩
  · rintro ⟨sign, zeros, hsign, rfl⟩
    refine ⟨List.replicate zeros '0' ++ Nat.toDigits 10 n, ?_, ?_, ?_,
      ofDigitChars_zeros_append zeros n⟩
    · rcases hsign with rfl | rfl
      · exact .inl rfl
      · exact .inr rfl
    · exact List.append_ne_nil_of_right_ne_nil _ Nat.toDigits_ne_nil
    · rw [List.forall_mem_append]
      refine ⟨fun c hc => ?_, fun c hc => Nat.isDigit_of_mem_toDigits (by decide) (by decide) hc⟩
      rw [List.eq_of_mem_replicate hc]
      rfl

/-- No character of a text that denotes a number is blank. -/
theorem Denotes.not_isBlank {text : List Char} {n : Nat} (h : Denotes text n) :
    ∀ c ∈ text, isBlank c = false := by
  obtain ⟨digits, hsign, -, hdigit, -⟩ := h
  have hdigits : ∀ c ∈ digits, isBlank c = false := fun c hc => not_isBlank_of_isDigit (hdigit c hc)
  rcases hsign with rfl | rfl
  · exact hdigits
  · exact List.forall_mem_cons.mpr ⟨by decide, hdigits⟩

/-- A trimmed text denotes a number exactly if the text spells it. -/
theorem denotes_trim_iff {text : List Char} {n : Nat} :
    Denotes (trim text) n ↔ Spells text n := by
  constructor
  · intro h
    obtain ⟨sign, zeros, hsign, htrim⟩ := denotes_iff_exists_zeros.mp h
    obtain ⟨before, after, htext, hbefore, hafter⟩ := exists_blanks_trim text
    rw [htrim] at htext
    exact ⟨before, after, sign, zeros, hbefore, hafter, hsign, htext⟩
  · rintro ⟨before, after, sign, zeros, hbefore, hafter, hsign, rfl⟩
    have h : Denotes (sign ++ (List.replicate zeros '0' ++ Nat.toDigits 10 n)) n :=
      denotes_iff_exists_zeros.mpr ⟨sign, zeros, hsign, rfl⟩
    rwa [trim_append_blanks hafter, trim_blanks_append hbefore, trim_of_not_blank h.not_isBlank]

/-- A text spells one number at most. -/
theorem Spells.unique {text : List Char} {m n : Nat} (hm : Spells text m) (hn : Spells text n) :
    m = n :=
  (denotes_trim_iff.mpr hm).unique (denotes_trim_iff.mpr hn)

/-- The digits of a number spell it. -/
theorem spells_write (n : Nat) : Spells (write n).toList n :=
  ⟨[], [], [], 0, nofun, nofun, .inl rfl, by simp [write]⟩

end StoreTrial.Text.Decimal
