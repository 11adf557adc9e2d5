/-!
# The keystream

The random words of a workload are a ChaCha keystream with twelve rounds, a 64-bit block counter
that starts at zero, and a zero nonce. Its key is derived from a 64-bit seed by a linear
congruential generator whose states are permuted into words. The stream is read word after word,
across the ends of its blocks.
-/

namespace StoreTrial

/-- A ChaCha key. -/
abbrev Keystream.Key := Vector UInt32 8

/-- The sixteen words that a block is computed on. -/
abbrev Keystream.Block := Vector UInt32 16

/-- A position in a keystream. -/
structure Keystream where
  /-- The key of the stream. -/
  key : Keystream.Key
  /-- The number of the block after the one in `block`. -/
  nextBlock : UInt64
  /-- The block that is being read. -/
  block : Keystream.Block
  /-- The number of words of `block` that were read. -/
  used : Nat

namespace Keystream

/-- The word `x` rotated left by `n` bits, for `n` between 1 and 31. -/
def rotateLeft (x n : UInt32) : UInt32 := (x <<< n) ||| (x >>> (32 - n))

/-- A quarter of a quarter round: word `b` is added to word `a`, and word `d` becomes its exclusive
or with the sum, rotated left by `n` bits. -/
def mixWords (a b d : Fin 16) (n : UInt32) (block : Block) : Block :=
  let sum := block[a] + block[b]
  (block.set a sum).set d (rotateLeft (block[d] ^^^ sum) n)

/-- The quarter round on four words of a block. -/
def quarterRound (a b c d : Fin 16) (block : Block) : Block :=
  mixWords c d b 7 (mixWords a b d 8 (mixWords c d b 12 (mixWords a b d 16 block)))

/-- Two rounds: a quarter round on each column and then on each diagonal. -/
def doubleRound (block : Block) : Block :=
  let columns := quarterRound 3 7 11 15 (quarterRound 2 6 10 14 (quarterRound 1 5 9 13
    (quarterRound 0 4 8 12 block)))
  quarterRound 3 4 9 14 (quarterRound 2 7 8 13 (quarterRound 1 6 11 12
    (quarterRound 0 5 10 15 columns)))

/-- The words that every block starts with. -/
def constants : Vector UInt32 4 := #v[0x61707865, 0x3320646e, 0x79622d32, 0x6b206574]

/-- The block with number `number` before its rounds. -/
def start (key : Key) (number : UInt64) : Block :=
  constants ++ key ++ #v[number.toUInt32, (number >>> 32).toUInt32, 0, 0]

/-- The number of double rounds. -/
def doubleRounds : Nat := 6

/-- The block with number `number` of the stream of `key`. -/
def blockAt (key : Key) (number : UInt64) : Block :=
  let start := start key number
  Vector.zipWith (· + ·) (Nat.repeat doubleRound doubleRounds start) start

/-- The first position in the stream of `key`. -/
def ofKey (key : Key) : Keystream := ⟨key, 1, blockAt key 0, 0⟩

/-- The state of the congruential generator after `state`. -/
def advance (state : UInt64) : UInt64 := state * 6364136223846793005 + 11634580027462260723

/-- The word of a state of the congruential generator: its high bits folded together and rotated
right by the number in its five highest bits. -/
def permute (state : UInt64) : UInt32 :=
  let folded := (((state >>> 18) ^^^ state) >>> 27).toUInt32
  let count := (state >>> 59).toUInt32
  if count = 0 then folded else rotateLeft folded (32 - count)

/-- The key of a seed: the words of the first eight states after it. -/
def keyOfSeed (seed : UInt64) : Key :=
  Vector.ofFn fun i => permute (Nat.repeat advance (i.val + 1) seed)

/-- The first position in the stream of a seed. -/
def ofSeed (seed : UInt64) : Keystream := ofKey (keyOfSeed seed)

/-- The next word and the position after it. -/
def next32 (stream : Keystream) : UInt32 × Keystream :=
  if h : stream.used < 16 then
    (stream.block[stream.used], { stream with used := stream.used + 1 })
  else
    let block := blockAt stream.key stream.nextBlock
    (block[0], ⟨stream.key, stream.nextBlock + 1, block, 1⟩)

/-- The next two words as one, the first as its low half, and the position after them. -/
def next64 (stream : Keystream) : UInt64 × Keystream :=
  let (low, stream) := stream.next32
  let (high, stream) := stream.next32
  (low.toUInt64 ||| (high.toUInt64 <<< 32), stream)

/-- The number of words after which a keystream repeats: sixteen for each value of the counter. -/
def period : Nat := 16 * UInt64.size

end Keystream

end StoreTrial
