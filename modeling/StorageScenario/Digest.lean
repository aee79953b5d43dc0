import StorageScenario.Text

/-!
SHA-256 of a byte list, one byte at a time: bytes gather into big-endian words,
sixteen words into a block, and each full block is compressed into the chain.
-/

namespace StorageScenario

structure Digest where
  bytes : List UInt8
  deriving DecidableEq

namespace Digest

structure Chain where
  a : UInt32
  b : UInt32
  c : UInt32
  d : UInt32
  e : UInt32
  f : UInt32
  g : UInt32
  h : UInt32

def initial : Chain :=
  ⟨0x6a09e667, 0xbb67ae85, 0x3c6ef372, 0xa54ff53a,
    0x510e527f, 0x9b05688c, 0x1f83d9ab, 0x5be0cd19⟩

def roundConstants : List UInt32 :=
  [0x428a2f98, 0x71374491, 0xb5c0fbcf, 0xe9b5dba5, 0x3956c25b, 0x59f111f1, 0x923f82a4, 0xab1c5ed5,
    0xd807aa98, 0x12835b01, 0x243185be, 0x550c7dc3, 0x72be5d74, 0x80deb1fe, 0x9bdc06a7, 0xc19bf174,
    0xe49b69c1, 0xefbe4786, 0x0fc19dc6, 0x240ca1cc, 0x2de92c6f, 0x4a7484aa, 0x5cb0a9dc, 0x76f988da,
    0x983e5152, 0xa831c66d, 0xb00327c8, 0xbf597fc7, 0xc6e00bf3, 0xd5a79147, 0x06ca6351, 0x14292967,
    0x27b70a85, 0x2e1b2138, 0x4d2c6dfc, 0x53380d13, 0x650a7354, 0x766a0abb, 0x81c2c92e, 0x92722c85,
    0xa2bfe8a1, 0xa81a664b, 0xc24b8b70, 0xc76c51a3, 0xd192e819, 0xd6990624, 0xf40e3585, 0x106aa070,
    0x19a4c116, 0x1e376c08, 0x2748774c, 0x34b0bcb5, 0x391c0cb3, 0x4ed8aa4a, 0x5b9cca4f, 0x682e6ff3,
    0x748f82ee, 0x78a5636f, 0x84c87814, 0x8cc70208, 0x90befffa, 0xa4506ceb, 0xbef9a3f7, 0xc67178f2]

def rotateRight (word amount : UInt32) : UInt32 :=
  (word >>> amount) ||| (word <<< (32 - amount))

/-- Forty-eight words on from the block, each from four before it. -/
def schedule (block : Array UInt32) : Array UInt32 :=
  (List.range 48).foldl (fun words index =>
    let early := words.getD (index + 1) 0
    let late := words.getD (index + 14) 0
    let mixEarly := rotateRight early 7 ^^^ rotateRight early 18 ^^^ (early >>> 3)
    let mixLate := rotateRight late 17 ^^^ rotateRight late 19 ^^^ (late >>> 10)
    words.push (words.getD index 0 + mixEarly + words.getD (index + 9) 0 + mixLate)) block

def round (chain : Chain) (key word : UInt32) : Chain :=
  let mixE := rotateRight chain.e 6 ^^^ rotateRight chain.e 11 ^^^ rotateRight chain.e 25
  let choice := (chain.e &&& chain.f) ^^^ (~~~chain.e &&& chain.g)
  let first := chain.h + mixE + choice + key + word
  let mixA := rotateRight chain.a 2 ^^^ rotateRight chain.a 13 ^^^ rotateRight chain.a 22
  let majority := (chain.a &&& chain.b) ^^^ (chain.a &&& chain.c) ^^^ (chain.b &&& chain.c)
  ⟨first + (mixA + majority), chain.a, chain.b, chain.c,
    chain.d + first, chain.e, chain.f, chain.g⟩

def Chain.add (first second : Chain) : Chain :=
  ⟨first.a + second.a, first.b + second.b, first.c + second.c, first.d + second.d,
    first.e + second.e, first.f + second.f, first.g + second.g, first.h + second.h⟩

def runRounds (words : Array UInt32) (chain : Chain) : Chain :=
  (roundConstants.foldl (fun progress key =>
    (round progress.1 key (words.getD progress.2 0), progress.2 + 1)) (chain, 0)).1

def compress (chain : Chain) (block : Array UInt32) : Chain :=
  chain.add (runRounds (schedule block) chain)

/-- A hash under way: `count` bytes taken, of which the last ones are still in
`word` and `block`. -/
structure Progress where
  chain : Chain
  block : Array UInt32
  word : UInt32
  count : Nat

def start : Progress := ⟨initial, #[], 0, 0⟩

def absorb (progress : Progress) (byte : UInt8) : Progress :=
  let word := (progress.word <<< 8) ||| byte.toUInt32
  let count := progress.count + 1
  if count % 64 = 0 then
    ⟨compress progress.chain (progress.block.push word), #[], 0, count⟩
  else if count % 4 = 0 then ⟨progress.chain, progress.block.push word, 0, count⟩
  else ⟨progress.chain, progress.block, word, count⟩

/-- The lowest eight bytes of a number, the highest of them first. -/
def lengthBytes (length : Nat) : List UInt8 :=
  [56, 48, 40, 32, 24, 16, 8, 0].map fun (shift : Nat) => UInt8.ofNat (length >>> shift)

/-- A one bit, zeros up to the last eight bytes of a block, the length in bits. -/
def padding (length : Nat) : List UInt8 :=
  0x80 :: List.replicate ((119 - length % 64) % 64) 0 ++ lengthBytes (length * 8)

def wordBytes (word : UInt32) : List UInt8 :=
  [(word >>> 24).toUInt8, (word >>> 16).toUInt8, (word >>> 8).toUInt8, word.toUInt8]

def Chain.bytes (chain : Chain) : List UInt8 :=
  [chain.a, chain.b, chain.c, chain.d, chain.e, chain.f, chain.g, chain.h].flatMap wordBytes

def Progress.finish (progress : Progress) : Digest :=
  ⟨((padding progress.count).foldl absorb progress).chain.bytes⟩

def ofBytes (bytes : List UInt8) : Digest := (bytes.foldl absorb start).finish

def hex (digest : Digest) : String := Text.hexBytes digest.bytes

end Digest

end StorageScenario
