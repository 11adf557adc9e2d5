import Mathlib.Logic.Function.Iterate
import StoreTrial.Random.Draws

/-!
# Searches in a keystream

A choice is searched for in the words of a keystream, and the search has a bound: where no word of
one period is accepted, it falls back on a fixed result. The bound is no limit. The words of a
keystream depend on its key and a position in it, and the word at a position comes again after a
period (`word_add_period`). So readings that find nothing in a period find nothing later, and a
search that would ever end ends within the bound, whatever it falls back on (`firstOf_eq_of_ends`).
Only a search that would have no end falls back (`firstOf_eq_of_not_ends`). `draws_eq_of_ends` says
this of all searches of a keystream.
-/

namespace StoreTrial.Keystream

/-! ## Positions -/

/-- The word at a position of the stream of `key`. Positions are counted on where blocks repeat. -/
def word (key : Key) (position : Nat) : UInt32 :=
  (blockAt key (.ofNat (position / 16)))[position % 16]

/-- The stream is at a position of the stream of `key`. -/
structure IsAt (key : Key) (position : Nat) (stream : Keystream) : Prop where
  /-- The stream is that of `key`. -/
  key_eq : stream.key = key
  /-- A block has sixteen words. -/
  used_le : stream.used ≤ 16
  /-- The block that is being read is the one of the position. -/
  exists_number : ∃ number, position = 16 * number + stream.used ∧
    stream.block = blockAt key (.ofNat number) ∧ stream.nextBlock = .ofNat (number + 1)

/-- Words come again after any number of periods. -/
theorem word_add_period (key : Key) (position count : Nat) :
    word key (position + count * period) = word key position := by
  have hblocks : count * period = 16 * (count * UInt64.size) := Nat.mul_left_comm _ _ _
  have hdiv : (position + count * period) / 16 = position / 16 + count * UInt64.size := by omega
  have hmod : (position + count * period) % 16 = position % 16 := by omega
  have hnumber : UInt64.ofNat (position / 16 + count * UInt64.size) = .ofNat (position / 16) := by
    rw [← UInt64.toNat_inj, UInt64.toNat_ofNat', UInt64.toNat_ofNat']
    exact Nat.add_mul_mod_self_right _ _ _
  unfold word
  simp only [hdiv, hmod, hnumber]

/-- The stream of a key starts at its first position. -/
theorem isAt_ofKey (key : Key) : IsAt key 0 (ofKey key) :=
  ⟨rfl, Nat.zero_le _, 0, rfl, rfl, rfl⟩

section

variable {key : Key} {position : Nat} {stream : Keystream}

/-- The next word is the one at the position, and the stream goes on after it. -/
theorem IsAt.next32 (h : IsAt key position stream) :
    stream.next32.1 = word key position ∧ IsAt key (position + 1) stream.next32.2 := by
  obtain ⟨hkey, hused, number, hposition, hblock, hnext⟩ := h
  unfold Keystream.next32
  by_cases hlt : stream.used < 16
  · have hdiv : position / 16 = number := by omega
    have hmod : position % 16 = stream.used := by omega
    rw [dif_pos hlt]
    refine ⟨?_, hkey, hlt, number, congrArg (· + 1) hposition, hblock, hnext⟩
    unfold word
    simp only [hdiv, hmod, hblock]
  · -- The block is used up, so the position is the start of the next one.
    have hdiv : position / 16 = number + 1 := by omega
    have hmod : position % 16 = 0 := by omega
    rw [dif_neg hlt]
    refine ⟨?_, hkey, (by decide : 1 ≤ 16), number + 1, ?_, ?_, ?_⟩
    · unfold word
      simp only [hdiv, hmod, hkey, hnext]
    · show position + 1 = 16 * (number + 1) + 1
      omega
    · rw [hkey, hnext]
    · rw [hnext, UInt64.ofNat_add (number + 1)]
      rfl

/-- A double word is made of the two words at the position. -/
theorem IsAt.next64 (h : IsAt key position stream) :
    stream.next64.1 = (word key position).toUInt64 ||| ((word key (position + 1)).toUInt64 <<< 32) ∧
      IsAt key (position + 2) stream.next64.2 := by
  obtain ⟨hlow, hbetween⟩ := h.next32
  obtain ⟨hhigh, hafter⟩ := hbetween.next32
  refine ⟨?_, hafter⟩
  rw [← hlow, ← hhigh]
  rfl

end

/-! ## Readings one after the other -/

section

variable {α : Type} (reading : Keystream → Option α × Keystream)

/-- The stream after a number of readings. -/
def skip (count : Nat) (stream : Keystream) : Keystream :=
  (fun stream => (reading stream).2)^[count] stream

/-- A search without a bound ends with `result`, and the stream goes on as `rest`: the first of all
readings that finds something finds that. -/
def Ends (stream : Keystream) (result : α) (rest : Keystream) : Prop :=
  ∃ count, (∀ i < count, (reading (skip reading i stream)).1 = none) ∧
    reading (skip reading count stream) = (some result, rest)

/-- A reading takes `size` words, and what it finds depends on nothing but the words ahead. -/
structure Regular (size : Nat) : Prop where
  /-- The stream goes on after `size` words. -/
  isAt {key : Key} {position : Nat} {stream : Keystream} (h : IsAt key position stream) :
    IsAt key (position + size) (reading stream).2
  /-- Where the words ahead are the same, the same is found. -/
  found_eq {key : Key} {position position' : Nat} {stream stream' : Keystream}
    (h : IsAt key position stream) (h' : IsAt key position' stream')
    (hwords : ∀ i, word key (position' + i) = word key (position + i)) :
    (reading stream').1 = (reading stream).1

variable {reading} {stream : Keystream}

/-- A search with a bound falls back on its default if none of its readings finds anything. -/
theorem firstOf_eq_default {tries : Nat}
    (h : ∀ i < tries, (reading (skip reading i stream)).1 = none) (default : α) :
    firstOf reading default tries stream = (default, skip reading tries stream) := by
  induction tries generalizing stream with
  | zero => rfl
  | succ tries ih =>
    have hfirst : reading stream = (none, (reading stream).2) :=
      Prod.ext (h 0 (Nat.zero_lt_succ tries)) rfl
    unfold firstOf
    rw [hfirst]
    exact ih fun i hi => h (i + 1) (Nat.succ_lt_succ hi)

/-- A search with a bound has the first result that one of its readings finds. -/
theorem firstOf_eq_of_lt {tries count : Nat} (hcount : count < tries)
    (hnone : ∀ i < count, (reading (skip reading i stream)).1 = none) {result : α}
    {rest : Keystream} (hfound : reading (skip reading count stream) = (some result, rest))
    (default : α) : firstOf reading default tries stream = (result, rest) := by
  induction count generalizing stream tries with
  | zero =>
    obtain ⟨tries, rfl⟩ := Nat.exists_eq_add_one_of_ne_zero (Nat.ne_zero_of_lt hcount)
    have hfirst : reading stream = (some result, rest) := hfound
    unfold firstOf
    rw [hfirst]
  | succ count ih =>
    obtain ⟨tries, rfl⟩ := Nat.exists_eq_add_one_of_ne_zero (Nat.ne_zero_of_lt hcount)
    have hfirst : reading stream = (none, (reading stream).2) :=
      Prod.ext (hnone 0 (Nat.zero_lt_succ count)) rfl
    unfold firstOf
    rw [hfirst]
    exact ih (Nat.lt_of_succ_lt_succ hcount) (fun i hi => hnone (i + 1) (Nat.succ_lt_succ hi))
      hfound

/-- Where a search without a bound has no end, one with a bound falls back on its default. -/
theorem firstOf_eq_of_not_ends (h : ∀ result rest, ¬Ends reading stream result rest) (tries : Nat)
    (default : α) :
    firstOf reading default tries stream = (default, skip reading tries stream) := by
  have hnone : ∀ i, (reading (skip reading i stream)).1 = none := by
    intro i
    -- The first reading that found something would be the end.
    induction i using Nat.strongRecOn with
    | _ i ih =>
      rcases hreading : reading (skip reading i stream) with ⟨found, rest⟩
      cases found with
      | none => rfl
      | some result => exact absurd ⟨i, ih, hreading⟩ (h result rest)
  exact firstOf_eq_default (fun i _ => hnone i) default

variable {key : Key} {position size : Nat}

/-- Readings move on by as many words each. -/
theorem Regular.isAt_skip (h : Regular reading size) (hstream : IsAt key position stream)
    (count : Nat) : IsAt key (position + count * size) (skip reading count stream) := by
  induction count with
  | zero => simpa [skip] using hstream
  | succ count ih =>
    unfold skip at ih ⊢
    rw [Function.iterate_succ_apply', Nat.succ_mul, ← Nat.add_assoc]
    exact h.isAt ih

/-- After a period of readings, readings find the same again. -/
theorem Regular.found_add_period (h : Regular reading size) (hstream : IsAt key position stream)
    (count : Nat) : (reading (skip reading (count + period) stream)).1 =
      (reading (skip reading count stream)).1 := by
  refine h.found_eq (h.isAt_skip hstream count) (h.isAt_skip hstream (count + period)) fun i => ?_
  have hposition : position + (count + period) * size + i =
      position + count * size + i + size * period := by
    rw [Nat.add_mul, Nat.mul_comm period size]
    omega
  rw [hposition, word_add_period]

/-- A search over one period has the result of the search without a bound, wherever that ends. -/
theorem firstOf_eq_of_ends (h : Regular reading size) (hstream : IsAt key position stream)
    {result : α} {rest : Keystream} (hends : Ends reading stream result rest) (default : α) :
    firstOf reading default period stream = (result, rest) := by
  obtain ⟨count, hnone, hfound⟩ := hends
  refine firstOf_eq_of_lt (Nat.lt_of_not_le fun hle => ?_) hnone hfound default
  -- A reading found the same a period earlier, where none is said to find anything.
  have hagain := h.found_add_period hstream (count - period)
  rw [Nat.sub_add_cancel hle, hfound, hnone _ (Nat.sub_lt_of_pos_le (by decide) hle)] at hagain
  contradiction

end

/-! ## The searches of a keystream -/

section

variable {key : Key} {position position' : Nat} {stream stream' : Keystream}
  (h : IsAt key position stream) (h' : IsAt key position' stream')
  (hwords : ∀ i, word key (position' + i) = word key (position + i))

include h h' hwords

/-- Where the words ahead are the same, so is the next word. -/
theorem next32_eq_of_words : stream'.next32.1 = stream.next32.1 := by
  rw [h.next32.1, h'.next32.1]
  exact hwords 0

/-- Where the words ahead are the same, so is the next double word. -/
theorem next64_eq_of_words : stream'.next64.1 = stream.next64.1 := by
  have hlow : word key position' = word key position := hwords 0
  rw [h.next64.1, h'.next64.1, hlow, hwords 1]

end

/-- A reading of a character takes one word. -/
theorem regular_readCharacter : Regular readCharacter 1 where
  isAt h := h.next32.2
  found_eq h h' hwords := by
    unfold readCharacter
    simp only [next32_eq_of_words h h' hwords]

/-- A reading of a kind takes one word. -/
theorem regular_readKind : Regular readKind 1 where
  isAt h := h.next32.2
  found_eq h h' hwords := by
    unfold readKind
    simp only [next32_eq_of_words h h' hwords]

/-- A reading of an index takes two words. -/
theorem regular_readIndex (n : Nat) (nonempty : 0 < n) : Regular (readIndex n nonempty) 2 where
  isAt h := h.next64.2
  found_eq h h' hwords := by
    unfold readIndex
    simp only [next64_eq_of_words h h' hwords]

/-- The stream of a seed after a number of words. -/
def afterWords (seed : UInt64) (count : Nat) : Keystream :=
  (fun stream => stream.next32.2)^[count] (ofSeed seed)

/-- The position in the stream of a seed is the number of words that were read. -/
theorem isAt_afterWords (seed : UInt64) (count : Nat) :
    IsAt (keyOfSeed seed) count (afterWords seed count) := by
  induction count with
  | zero => exact isAt_ofKey (keyOfSeed seed)
  | succ count ih =>
    unfold afterWords at ih ⊢
    rw [Function.iterate_succ_apply']
    exact ih.next32.2

/-- Wherever the stream of a seed is read, a search with a bound has the result of the search
without one, if that ends at all. So it makes no difference what the searches fall back on. -/
theorem draws_eq_of_ends (seed : UInt64) (count : Nat) :
    let stream := afterWords seed count
    (∀ found rest, Ends readCharacter stream found rest → character stream = (found, rest)) ∧
    (∀ found rest, Ends readKind stream found rest → kind stream = (found, rest)) ∧
    ∀ n nonempty found rest, Ends (readIndex n nonempty) stream found rest →
      index n nonempty stream = (found, rest) := by
  intro stream
  have hstream : IsAt (keyOfSeed seed) count stream := isAt_afterWords seed count
  refine ⟨fun found rest hends => ?_, fun found rest hends => ?_, ?_⟩
  · exact firstOf_eq_of_ends regular_readCharacter hstream hends alphabet[0]
  · exact firstOf_eq_of_ends regular_readKind hstream hends .read
  · intro n nonempty found rest hends
    exact firstOf_eq_of_ends (regular_readIndex n nonempty) hstream hends ⟨0, nonempty⟩

end StoreTrial.Keystream
