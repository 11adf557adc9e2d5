import StoreTrial.Random.Draws

/-!
# Double words behind indices

An index below `n` is the high half of the product of `n` and a double word. It is below `n` because
a double word has no more than 64 bits (`highHalf_lt`), whichever word it is. `IndexedByWord` is a
source that draws its indices in this way.
-/

namespace StoreTrial

/-- The high half of the product of a double word and `n`. -/
def highHalf (word : UInt64) (n : Nat) : Nat := word.toNat * n / UInt64.size

/-- The high half of a product with `n` is below `n`. -/
theorem highHalf_lt (word : UInt64) {n : Nat} (h : 0 < n) : highHalf word n < n :=
  Nat.div_lt_of_lt_mul (Nat.mul_lt_mul_of_pos_right word.toNat_lt h)

/-- A source of choices that draws an index as the high half of a product with a double word. -/
class IndexedByWord (σ : Type) [Draws σ] where
  /-- The double word for an index into a list of `n` members. -/
  word (n : Nat) (source : σ) : UInt64 × σ
  /-- The index is the high half of the product, and the source goes on after the word. -/
  index_eq (n : Nat) (nonempty : 0 < n) (source : σ) :
    Draws.index n nonempty source =
      (⟨highHalf (word n source).1 n, highHalf_lt _ nonempty⟩, (word n source).2)

namespace Keystream

/-- Reads the double word for an index below `n`, if it makes the choice uniform. -/
def readIndexWord (n : Nat) (stream : Keystream) : Option UInt64 × Keystream :=
  let (word, stream) := stream.next64
  (if word.toNat * n % UInt64.size ≤ zone n then some word else none, stream)

/-- The double word for an index below `n`. -/
def indexWord (n : Nat) : Keystream → UInt64 × Keystream := firstOf (readIndexWord n) 0 period

end Keystream

end StoreTrial
