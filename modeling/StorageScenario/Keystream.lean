/-!
Pseudo-random bytes from a 64-bit seed. The seed is stretched to a ChaCha20 key,
the key stream is cut into words from block zero on, and every word gives its
lowest byte. A generator makes one block at a time and keeps the words of it that
are left for the next call.
-/

namespace StorageScenario.Keystream

def rotateLeft (word amount : UInt32) : UInt32 :=
  (word <<< amount) ||| (word >>> (32 - amount))

def advance (state : UInt64) : UInt64 :=
  state * 6364136223846793005 + 11634580027462260723

/-- The word shown by a state: its high bits, rotated by the five highest. -/
def output (state : UInt64) : UInt32 :=
  let word := (((state >>> 18) ^^^ state) >>> 27).toUInt32
  let amount := (state >>> 59).toUInt32
  (word >>> amount) ||| (word <<< ((32 - amount) % 32))

def keyWords : Nat → UInt64 → List UInt32
  | 0, _ => []
  | count + 1, state => output (advance state) :: keyWords count (advance state)

def key (seed : UInt64) : Vector UInt32 8 :=
  Vector.ofFn fun index => (keyWords 8 seed).getD index.val 0

abbrev Block := Vector UInt32 16

def quarterRound (a b c d : Fin 16) (block : Block) : Block :=
  let block := block.set a (block[a] + block[b])
  let block := block.set d (rotateLeft (block[d] ^^^ block[a]) 16)
  let block := block.set c (block[c] + block[d])
  let block := block.set b (rotateLeft (block[b] ^^^ block[c]) 12)
  let block := block.set a (block[a] + block[b])
  let block := block.set d (rotateLeft (block[d] ^^^ block[a]) 8)
  let block := block.set c (block[c] + block[d])
  block.set b (rotateLeft (block[b] ^^^ block[c]) 7)

/-- A round on the columns and a round on the diagonals. -/
def doubleRound (block : Block) : Block :=
  let columns := quarterRound 3 7 11 15 (quarterRound 2 6 10 14
    (quarterRound 1 5 9 13 (quarterRound 0 4 8 12 block)))
  quarterRound 3 4 9 14 (quarterRound 2 7 8 13
    (quarterRound 1 6 11 12 (quarterRound 0 5 10 15 columns)))

/-- Constants, key, block counter and a zero stream number. -/
def setup (key : Vector UInt32 8) (counter : UInt64) : Block :=
  #v[0x61707865, 0x3320646e, 0x79622d32, 0x6b206574,
    key[0], key[1], key[2], key[3], key[4], key[5], key[6], key[7],
    counter.toUInt32, (counter >>> 32).toUInt32, 0, 0]

def mix (start : Block) : Block :=
  let mixed := (List.range 10).foldl (fun block _ => doubleRound block) start
  Vector.zipWith (· + ·) mixed start

def blockBytes (key : Vector UInt32 8) (counter : Nat) : List UInt8 :=
  (mix (setup key (UInt64.ofNat counter))).toList.map UInt32.toUInt8

/-- A generator under way: the number of the block that it makes next, and the words
of the one before that nobody has taken. -/
structure Generator where
  key : Vector UInt32 8
  counter : UInt64
  words : List UInt32

namespace Generator

def ofSeed (seed : UInt64) : Generator := ⟨Keystream.key seed, 0, []⟩

def nextWord (generator : Generator) : UInt32 × Generator :=
  match generator.words with
  | word :: words => (word, { generator with words := words })
  | [] =>
      let block := mix (setup generator.key generator.counter)
      (block[0], ⟨generator.key, generator.counter + 1, block.toList.tail⟩)

def drawOnto (drawn : Array UInt8) (generator : Generator) : Nat → Array UInt8 × Generator
  | 0 => (drawn, generator)
  | count + 1 =>
      let (word, next) := generator.nextWord
      next.drawOnto (drawn.push word.toUInt8) count

def draw (generator : Generator) (count : Nat) : List UInt8 × Generator :=
  let (drawn, next) := generator.drawOnto #[] count
  (drawn.toList, next)

end Generator

end StorageScenario.Keystream
