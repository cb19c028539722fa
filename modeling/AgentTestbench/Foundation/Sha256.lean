import Mathlib

/-! # SHA-256

The hash function of FIPS 180-4 on lists of bytes. A digest is eight words.
-/

namespace Sha256

abbrev Byte := BitVec 8

abbrev Word := BitVec 32

structure Registers where
  a : Word
  b : Word
  c : Word
  d : Word
  e : Word
  f : Word
  g : Word
  h : Word

def initialHash : Registers :=
  ⟨0x6a09e667, 0xbb67ae85, 0x3c6ef372, 0xa54ff53a, 0x510e527f, 0x9b05688c, 0x1f83d9ab,
    0x5be0cd19⟩

def roundConstants : List Word :=
  [0x428a2f98, 0x71374491, 0xb5c0fbcf, 0xe9b5dba5, 0x3956c25b, 0x59f111f1,
    0x923f82a4, 0xab1c5ed5, 0xd807aa98, 0x12835b01, 0x243185be, 0x550c7dc3,
    0x72be5d74, 0x80deb1fe, 0x9bdc06a7, 0xc19bf174, 0xe49b69c1, 0xefbe4786,
    0x0fc19dc6, 0x240ca1cc, 0x2de92c6f, 0x4a7484aa, 0x5cb0a9dc, 0x76f988da,
    0x983e5152, 0xa831c66d, 0xb00327c8, 0xbf597fc7, 0xc6e00bf3, 0xd5a79147,
    0x06ca6351, 0x14292967, 0x27b70a85, 0x2e1b2138, 0x4d2c6dfc, 0x53380d13,
    0x650a7354, 0x766a0abb, 0x81c2c92e, 0x92722c85, 0xa2bfe8a1, 0xa81a664b,
    0xc24b8b70, 0xc76c51a3, 0xd192e819, 0xd6990624, 0xf40e3585, 0x106aa070,
    0x19a4c116, 0x1e376c08, 0x2748774c, 0x34b0bcb5, 0x391c0cb3, 0x4ed8aa4a,
    0x5b9cca4f, 0x682e6ff3, 0x748f82ee, 0x78a5636f, 0x84c87814, 0x8cc70208,
    0x90befffa, 0xa4506ceb, 0xbef9a3f7, 0xc67178f2]

/-! ## Padding -/

/-- The bits of the message length, as eight bytes with the most significant first. -/
def lengthBytes (length : Nat) : List Byte :=
  (List.range 8).map fun index => BitVec.ofNat 8 ((8 * length) >>> (56 - 8 * index))

def pad (message : List Byte) : List Byte :=
  message ++ 0x80 :: List.replicate ((119 - message.length % 64) % 64) 0 ++
    lengthBytes message.length

def words : List Byte → List Word
  | first :: second :: third :: fourth :: rest =>
      ((first ++ second) ++ (third ++ fourth)) :: words rest
  | _ => []

def blocks : Nat → List Word → List (List Word)
  | 0, _ => []
  | count + 1, message => message.take 16 :: blocks count (message.drop 16)

/-! ## Compression -/

def smallSigma0 (word : Word) : Word :=
  word.rotateRight 7 ^^^ word.rotateRight 18 ^^^ (word >>> 3)

def smallSigma1 (word : Word) : Word :=
  word.rotateRight 17 ^^^ word.rotateRight 19 ^^^ (word >>> 10)

def bigSigma0 (word : Word) : Word :=
  word.rotateRight 2 ^^^ word.rotateRight 13 ^^^ word.rotateRight 22

def bigSigma1 (word : Word) : Word :=
  word.rotateRight 6 ^^^ word.rotateRight 11 ^^^ word.rotateRight 25

def choose (x y z : Word) : Word :=
  (x &&& y) ^^^ (~~~x &&& z)

def majority (x y z : Word) : Word :=
  (x &&& y) ^^^ (x &&& z) ^^^ (y &&& z)

/-- Extend a schedule, kept with the latest word first, by `count` words. -/
def extendSchedule : Nat → List Word → List Word
  | 0, latest => latest
  | count + 1, latest =>
      let word := smallSigma1 (latest.getD 1 0) + latest.getD 6 0 +
        smallSigma0 (latest.getD 14 0) + latest.getD 15 0
      extendSchedule count (word :: latest)

def schedule (block : List Word) : List Word :=
  (extendSchedule 48 block.reverse).reverse

def round (state : Registers) (input : Word × Word) : Registers :=
  let first := state.h + bigSigma1 state.e + choose state.e state.f state.g + input.1 + input.2
  let second := bigSigma0 state.a + majority state.a state.b state.c
  ⟨first + second, state.a, state.b, state.c, state.d + first, state.e, state.f, state.g⟩

def compress (hash : Registers) (block : List Word) : Registers :=
  let final := (roundConstants.zip (schedule block)).foldl round hash
  ⟨hash.a + final.a, hash.b + final.b, hash.c + final.c, hash.d + final.d, hash.e + final.e,
    hash.f + final.f, hash.g + final.g, hash.h + final.h⟩

def digest (message : List Byte) : List Word :=
  let input := words (pad message)
  let final := (blocks (input.length / 16) input).foldl compress initialHash
  [final.a, final.b, final.c, final.d, final.e, final.f, final.g, final.h]

theorem length_digest (message : List Byte) : (digest message).length = 8 := rfl

example : digest [0x61, 0x62, 0x63] =
    [0xba7816bf, 0x8f01cfea, 0x414140de, 0x5dae2223, 0xb00361a3, 0x96177a9c, 0xb410ff61,
      0xf20015ad] := by
  decide +kernel

end Sha256
