import StoreTrial.Operation
import StoreTrial.Random.Keystream

/-!
# Draws

The choices that a workload makes at random: tokens, kinds of operation, coins, and members of a
list by their index. A workload is defined over any source of such choices. The source in use is a
keystream, which is read until it offers a word that makes the choice uniform. A keystream repeats,
so a search that fails over one period would never end; it is given a fixed result.
-/

namespace StoreTrial

/-- A source of random choices. Each choice leaves the source in a new state. -/
class Draws (σ : Type) where
  /-- A token of `length` characters. -/
  token (length : Nat) (source : σ) : String × σ
  /-- A kind of operation. -/
  kind (source : σ) : Kind × σ
  /-- A side of a coin. -/
  coin (source : σ) : Bool × σ
  /-- An index into a list of `n` members. -/
  index (n : Nat) (nonempty : 0 < n) (source : σ) : Fin n × σ

namespace Keystream

/-- The result of the first of `tries` readings that has one, and `default` if none does. -/
def firstOf {α : Type} (reading : Keystream → Option α × Keystream) (default : α) :
    (tries : Nat) → Keystream → α × Keystream
  | 0, stream => (default, stream)
  | tries + 1, stream =>
    match reading stream with
    | (some result, stream) => (result, stream)
    | (none, stream) => firstOf reading default tries stream

/-- The characters of tokens: the capital and small letters and the digits of ASCII. -/
def alphabet : Vector Char 62 :=
  #v['A', 'B', 'C', 'D', 'E', 'F', 'G', 'H', 'I', 'J', 'K', 'L', 'M', 'N', 'O', 'P', 'Q', 'R', 'S',
    'T', 'U', 'V', 'W', 'X', 'Y', 'Z', 'a', 'b', 'c', 'd', 'e', 'f', 'g', 'h', 'i', 'j', 'k', 'l',
    'm', 'n', 'o', 'p', 'q', 'r', 's', 't', 'u', 'v', 'w', 'x', 'y', 'z', '0', '1', '2', '3', '4',
    '5', '6', '7', '8', '9']

/-- Reads a character of a token: the six highest bits of a word as an index into the alphabet. -/
def readCharacter (stream : Keystream) : Option Char × Keystream :=
  let (word, stream) := stream.next32
  (alphabet[(word >>> 26).toNat]?, stream)

/-- A character of a token. -/
def character : Keystream → Char × Keystream := firstOf readCharacter alphabet[0] period

/-- A token of `length` characters. -/
def token (length : Nat) (stream : Keystream) : String × Keystream :=
  let characters := (List.replicate length ()).mapM (m := StateM Keystream) fun _ => character
  let (characters, stream) := StateT.run (m := Id) characters stream
  (String.ofList characters, stream)

/-- Reads a kind: the high half of three times a word. The highest low half is left out, since the
words are not a multiple of three in number. -/
def readKind (stream : Keystream) : Option Kind × Keystream :=
  let (word, stream) := stream.next32
  let product := word.toNat * 3
  let kind :=
    match product / UInt32.size with
    | 0 => Kind.read
    | 1 => Kind.write
    | _ => Kind.delete
  (if product % UInt32.size ≤ UInt32.size - 2 then some kind else none, stream)

/-- A kind of operation. -/
def kind : Keystream → Kind × Keystream := firstOf readKind .read period

/-- A side of a coin: whether the highest bit of a double word is clear. -/
def coin (stream : Keystream) : Bool × Keystream :=
  let (word, stream) := stream.next64
  (word >>> 63 == 0, stream)

/-- The greatest low half with which a product with `n` is taken: one less than `n` shifted left
until it fills 64 bits. -/
def zone (n : Nat) : Nat := (n <<< (63 - n.log2)) - 1

/-- Reads an index below `n`: the high half of `n` times a double word. -/
def readIndex (n : Nat) (nonempty : 0 < n) (stream : Keystream) : Option (Fin n) × Keystream :=
  let (word, stream) := stream.next64
  let product := word.toNat * n
  have bound : product / UInt64.size < n :=
    Nat.div_lt_of_lt_mul (Nat.mul_lt_mul_of_pos_right word.toNat_lt nonempty)
  (if product % UInt64.size ≤ zone n then some ⟨product / UInt64.size, bound⟩ else none, stream)

/-- An index below `n`. -/
def index (n : Nat) (nonempty : 0 < n) : Keystream → Fin n × Keystream :=
  firstOf (readIndex n nonempty) ⟨0, nonempty⟩ period

end Keystream

instance : Draws Keystream where
  token := Keystream.token
  kind := Keystream.kind
  coin := Keystream.coin
  index := Keystream.index

end StoreTrial
