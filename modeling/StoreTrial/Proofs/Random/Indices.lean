import StoreTrial.Random.Words

/-!
# Indices from double words

A keystream passes over some double words to make the choice of an index uniform, and the index that
it draws is the high half of the first one that it does not pass over
(`Keystream.index_eq_highHalf`). So it is a source that draws its indices by words.
-/

namespace StoreTrial

namespace Keystream

/-- If one reading finds the image of what another one finds, so do the searches. -/
theorem firstOf_map {α β : Type} {reading : Keystream → Option α × Keystream}
    {reading' : Keystream → Option β × Keystream} (f : α → β)
    (hreading : ∀ stream, reading' stream = (reading stream).map (Option.map f) id) (default : α)
    (tries : Nat) (stream : Keystream) :
    firstOf reading' (f default) tries stream =
      (firstOf reading default tries stream).map f id := by
  induction tries generalizing stream with
  | zero => rfl
  | succ tries ih =>
    unfold firstOf
    rw [hreading]
    rcases reading stream with ⟨found, rest⟩
    cases found with
    | none => exact ih rest
    | some result => rfl

/-- The index that a keystream draws is the high half of the product with its double word. -/
theorem index_eq_highHalf (n : Nat) (nonempty : 0 < n) (stream : Keystream) :
    index n nonempty stream =
      (⟨highHalf (indexWord n stream).1 n, highHalf_lt _ nonempty⟩, (indexWord n stream).2) := by
  let ofWord (word : UInt64) : Fin n := ⟨highHalf word n, highHalf_lt word nonempty⟩
  -- The search falls back on the first member, which is the index of the word zero.
  have hzero : (⟨0, nonempty⟩ : Fin n) = ofWord 0 := by
    refine Fin.ext ?_
    change 0 = 0 * n / UInt64.size
    rw [Nat.zero_mul, Nat.zero_div]
  have hreading : ∀ stream, readIndex n nonempty stream =
      (readIndexWord n stream).map (Option.map ofWord) id := by
    intro stream
    simp only [readIndex, readIndexWord, Prod.map, apply_ite (Option.map ofWord)]
    rfl
  rw [index, hzero, firstOf_map ofWord hreading]
  rfl

end Keystream

instance : IndexedByWord Keystream where
  word := Keystream.indexWord
  index_eq := Keystream.index_eq_highHalf

end StoreTrial
