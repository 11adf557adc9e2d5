import StoreTrial.Text.Decimal

/-!
# What a decimal text denotes

`Denotes` says which number a text stands for, whether or not the number fits in 64 bits. Reading a
text gives the number that it denotes, exactly when that number fits (`read?_eq_some_iff`), and the
digits that are written for a number denote it, without a zero before them.
-/

namespace StoreTrial.Text.Decimal

/-- The text is an optional `+` and one or more ASCII digits, whose number is `n`. -/
def Denotes (text : List Char) (n : Nat) : Prop :=
  ∃ digits : List Char, (text = digits ∨ text = '+' :: digits) ∧ digits ≠ [] ∧
    (∀ c ∈ digits, c.isDigit = true) ∧ Nat.ofDigitChars 10 digits 0 = n

/-- A text of digits has no sign. -/
theorem unsigned_of_isDigit {digits : List Char} (h : ∀ c ∈ digits, c.isDigit = true) :
    unsigned digits = digits := by
  unfold unsigned
  split
  · have := h '+' List.mem_cons_self
    contradiction
  · rfl

/-- A text denotes a number if what stands after its sign is digits. -/
theorem denotes_iff {text : List Char} {n : Nat} :
    Denotes text n ↔ unsigned text ≠ [] ∧ (∀ c ∈ unsigned text, c.isDigit = true) ∧
      Nat.ofDigitChars 10 (unsigned text) 0 = n := by
  constructor
  · rintro ⟨digits, rfl | rfl, hne, hdigit, hvalue⟩
    · rw [unsigned_of_isDigit hdigit]
      exact ⟨hne, hdigit, hvalue⟩
    · exact ⟨hne, hdigit, hvalue⟩
  · rintro ⟨hne, hdigit, hvalue⟩
    refine ⟨unsigned text, ?_, hne, hdigit, hvalue⟩
    unfold unsigned
    split
    · exact .inr rfl
    · exact .inl rfl

/-- A text denotes at most one number. -/
theorem Denotes.unique {text : List Char} {m n : Nat} (hm : Denotes text m) (hn : Denotes text n) :
    m = n := by
  rw [denotes_iff] at hm hn
  rw [← hm.2.2, ← hn.2.2]

/-- Reading a text gives the number that it denotes, if that number fits in 64 bits. -/
theorem read?_eq_some_iff {text : List Char} {n : UInt64} :
    read? text = some n ↔ Denotes text n.toNat := by
  rw [denotes_iff]
  unfold read?
  -- Two tests in a row: the form of the text, and then the size of its number.
  by_cases hform : unsigned text ≠ [] ∧ ∀ c ∈ unsigned text, c.isDigit = true
  · have hcheck : ((unsigned text).isEmpty || !(unsigned text).all Char.isDigit) = false := by
      simpa using hform
    simp only [hcheck, Bool.false_eq_true, if_false]
    split
    · rename_i hlt
      rw [Option.some.injEq, ← UInt64.toNat_inj, UInt64.toNat_ofNatLT]
      exact ⟨fun hvalue => ⟨hform.1, hform.2, hvalue⟩, fun h => h.2.2⟩
    · rename_i hlt
      refine ⟨fun h => absurd h (by simp), fun h => absurd ?_ hlt⟩
      rw [h.2.2]
      exact n.toNat_lt
  · have hcheck : ((unsigned text).isEmpty || !(unsigned text).all Char.isDigit) = true := by
      rw [← Bool.not_eq_false]
      exact fun h => hform (by simpa using h)
    simp only [hcheck, if_true]
    exact ⟨fun h => absurd h (by simp), fun h => absurd ⟨h.1, h.2.1⟩ hform⟩

/-- A text is read exactly when it denotes a number that fits in 64 bits. -/
theorem read?_map_toNat_eq_some_iff {text : List Char} {n : Nat} :
    (read? text).map UInt64.toNat = some n ↔ Denotes text n ∧ n < UInt64.size := by
  rw [Option.map_eq_some_iff]
  constructor
  · rintro ⟨word, hread, rfl⟩
    exact ⟨read?_eq_some_iff.mp hread, word.toNat_lt⟩
  · rintro ⟨hdenotes, hlt⟩
    refine ⟨.ofNatLT n hlt, ?_, UInt64.toNat_ofNatLT ..⟩
    rw [read?_eq_some_iff, UInt64.toNat_ofNatLT]
    exact hdenotes

/-- The digits of a number denote it. -/
theorem denotes_toDigits (n : Nat) : Denotes (Nat.toDigits 10 n) n :=
  ⟨_, .inl rfl, Nat.toDigits_ne_nil,
    fun _ hc => Nat.isDigit_of_mem_toDigits (by decide) (by decide) hc,
    Nat.ofDigitChars_ten_toDigits⟩

/-- The digits of a number start with a zero only if it is zero. -/
theorem head?_toDigits_ne_zero {n : Nat} (h : 0 < n) : (Nat.toDigits 10 n).head? ≠ some '0' := by
  induction n using Nat.base_induction 10 (by decide) with
  | single n hlt =>
    rw [Nat.toDigits_of_lt_base hlt, List.head?_cons, ne_eq, Option.some.injEq,
      Nat.digitChar_eq_zero]
    exact Nat.pos_iff_ne_zero.mp h
  | digit n k hk hn ih =>
    -- One more digit at the end leaves the first one as it is.
    obtain ⟨first, others, hdigits⟩ : ∃ first others, Nat.toDigits 10 n = first :: others :=
      List.exists_cons_of_ne_nil Nat.toDigits_ne_nil
    rw [← Nat.toDigits_append_toDigits (by decide) hn hk, hdigits]
    rw [hdigits] at ih
    exact ih hn

/-- Further digits make a number no less. -/
theorem le_ofDigitChars (digits : List Char) (start : Nat) :
    start ≤ Nat.ofDigitChars 10 digits start := by
  induction digits generalizing start with
  | nil => exact Nat.le_refl start
  | cons digit digits ih =>
    rw [Nat.ofDigitChars_cons]
    have hrest := ih (10 * start + (digit.toNat - '0'.toNat))
    omega

/-- A text that starts with another digit than zero does not denote zero. -/
theorem not_denotes_zero {digit : Char} {others : List Char} (hdigit : digit.isDigit = true)
    (hne : digit ≠ '0') : ¬ Denotes (digit :: others) 0 := by
  rintro ⟨digits, rfl | hsign, -, -, hvalue⟩
  · have hfirst : 0 < digit.toNat - '0'.toNat := by
      have hbounds : 48 ≤ digit.toNat ∧ digit.toNat ≤ 57 := Char.isDigit_iff_toNat.mp hdigit
      have hzero : digit.toNat ≠ 48 := fun heq => hne (Char.toNat_inj.mp heq)
      have hcode : '0'.toNat = 48 := rfl
      omega
    rw [Nat.ofDigitChars_cons] at hvalue
    have hrest := le_ofDigitChars others (10 * 0 + (digit.toNat - '0'.toNat))
    omega
  · obtain ⟨rfl, -⟩ := List.cons.inj hsign
    contradiction

/-- The digits of a number have no zero before them, unless they are a zero. -/
theorem not_leading_zero_toDigits (n : Nat) :
    ¬((Nat.toDigits 10 n).head? = some '0' ∧ Nat.toDigits 10 n ≠ ['0']) := by
  rintro ⟨hhead, hne⟩
  rcases Nat.eq_zero_or_pos n with rfl | hpos
  · exact hne (Nat.toDigits_zero 10)
  · exact head?_toDigits_ne_zero hpos hhead

end StoreTrial.Text.Decimal
