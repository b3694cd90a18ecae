/-!
# The ChaCha block function

The block function behind the random bytes of the machine: ChaCha with twelve
rounds, a key of eight words, a counter of sixty-four bits and no nonce.
`Chip8.ChaCha.block` gives the sixteen words of the block with a given number.
-/

namespace Chip8

namespace ChaCha

/-- The sixteen words that the rounds work on. -/
abbrev Block := Vector UInt32 16

/-- The eight words of a key. -/
abbrev Key := Vector UInt32 8

/-- Rotate a word to the left. -/
def rotateLeft (w amount : UInt32) : UInt32 := (w <<< amount) ||| (w >>> (32 - amount))

/-- Mix four words of a block. -/
def quarterRound (s : Block) (i j k l : Fin 16) : Block :=
  let a := s[i] + s[j]
  let d := rotateLeft (s[l] ^^^ a) 16
  let c := s[k] + d
  let b := rotateLeft (s[j] ^^^ c) 12
  let a := a + b
  let d := rotateLeft (d ^^^ a) 8
  let c := c + d
  let b := rotateLeft (b ^^^ c) 7
  (((s.set i a).set j b).set k c).set l d

/-- The place of a word when a block is written in four rows of four; columns count
modulo four. -/
def cell (row column : Nat) : Fin 16 := ⟨(4 * row + column % 4) % 16, Nat.mod_lt _ (by decide)⟩

/-- Mix the words, one from each row, that begin at a column and move on by `shift`
columns from row to row. -/
def mixLine (shift : Nat) (s : Block) (column : Nat) : Block :=
  quarterRound s (cell 0 column) (cell 1 (column + shift)) (cell 2 (column + 2 * shift))
    (cell 3 (column + 3 * shift))

/-- Mix the four columns of a block, then its four diagonals. -/
def doubleRound (s : Block) : Block :=
  let s := (List.range 4).foldl (mixLine 0) s
  (List.range 4).foldl (mixLine 1) s

/-- The words before the rounds: four constants, the key, the counter with its low
half first, and an empty nonce. -/
def initial (key : Key) (counter : UInt64) : Block :=
  #v[0x61707865, 0x3320646e, 0x79622d32, 0x6b206574,
    key[0], key[1], key[2], key[3], key[4], key[5], key[6], key[7],
    counter.toUInt32, (counter >>> 32).toUInt32, 0, 0]

/-- The block with a given number: twelve rounds, and the words before them added. -/
def block (key : Key) (counter : UInt64) : Block :=
  Vector.zipWith (· + ·) (Nat.repeat doubleRound 6 (initial key counter)) (initial key counter)

end ChaCha

end Chip8
