import Chip8.Random.ChaCha

/-!
# Random bytes

The bytes that random instructions draw. A seed of sixty-four bits is expanded to a
ChaCha key by `Chip8.Seed.key`; each word of the key stream gives one byte, its low
eight bits. `Chip8.RandomStream` is the generator, which works a block ahead: it
holds the words of the current block that are not drawn yet. What it draws is
`Chip8.ChaCha.byteAt`, the byte at a position of the stream, for the positions in
order.
-/

namespace Chip8

/-! ### Seeds -/

namespace Seed

/-- The state of the key expansion after a step. -/
def next (s : UInt64) : UInt64 := s * 6364136223846793005 + 11634580027462260723

/-- The key word of a state: a mix of its high bits, rotated right by its five
highest. -/
def word (s : UInt64) : UInt32 :=
  let mixed := (((s >>> 18) ^^^ s) >>> 27).toUInt32
  let amount := (s >>> 59).toUInt32
  (mixed >>> amount) ||| (mixed <<< ((32 - amount) % 32))

/-- The first `count` key words that follow a state. -/
def words (s : UInt64) : Nat → List UInt32
  | 0 => []
  | count + 1 => word (next s) :: words (next s) count

theorem length_words (s : UInt64) (count : Nat) : (words s count).length = count := by
  induction count generalizing s with
  | zero => rfl
  | succ count ih => simp [words, ih]

/-- The key of a seed. -/
def key (seed : UInt64) : ChaCha.Key := ⟨(words seed 8).toArray, length_words seed 8⟩

end Seed

/-! ### The stream -/

/-- The byte at a position of the stream of a key: the low byte of a word, sixteen
words to the block. -/
def ChaCha.byteAt (key : ChaCha.Key) (position : Nat) : UInt8 :=
  (ChaCha.block key (UInt64.ofNat (position / 16)))[position % 16].toUInt8

/-- The generator of random bytes. -/
structure RandomStream where
  /-- The key of the stream. -/
  key : ChaCha.Key
  /-- The number of the block to be generated next. -/
  counter : UInt64
  /-- The words of the current block that are not drawn yet. -/
  pending : List UInt32
  deriving DecidableEq

namespace RandomStream

/-- The generator at the beginning of the stream of a seed. -/
def ofSeed (seed : UInt64) : RandomStream := ⟨Seed.key seed, 0, []⟩

/-- Draw a byte. -/
def draw (r : RandomStream) : UInt8 × RandomStream :=
  match r.pending with
  | word :: words => (word.toUInt8, { r with pending := words })
  | [] =>
    let block := ChaCha.block r.key r.counter
    (block[0].toUInt8, { r with counter := r.counter + 1, pending := block.toList.tail })

end RandomStream

end Chip8
