import IsoLightK0.Support.Bytes

/-!
# SHA-256

This module is independent of any particular program.  It writes down the
SHA-256 of FIPS 180-4, on words that are natural numbers below `2 ^ 32`.

The definitions are meant to be run by the kernel.  Every number that the
schedule and the rounds make is therefore evaluated before it is used, by
`force`.
-/

namespace Sha256

open Bytes

/-- `f n`; the case distinction evaluates `n` first. -/
def force {α : Type} (n : ℕ) (f : ℕ → α) : α :=
  match n with
  | 0 => f 0
  | m + 1 => f (m + 1)

def rotr (n x : ℕ) : ℕ := (x >>> n) ^^^ ((x <<< (32 - n)) % 2 ^ 32)

def ch (x y z : ℕ) : ℕ := (x &&& y) ^^^ ((2 ^ 32 - 1 - x) &&& z)

def maj (x y z : ℕ) : ℕ := (x &&& y) ^^^ (x &&& z) ^^^ (y &&& z)

def bigSigma0 (x : ℕ) : ℕ := rotr 2 x ^^^ rotr 13 x ^^^ rotr 22 x

def bigSigma1 (x : ℕ) : ℕ := rotr 6 x ^^^ rotr 11 x ^^^ rotr 25 x

def smallSigma0 (x : ℕ) : ℕ := rotr 7 x ^^^ rotr 18 x ^^^ (x >>> 3)

def smallSigma1 (x : ℕ) : ℕ := rotr 17 x ^^^ rotr 19 x ^^^ (x >>> 10)

def constants : List ℕ :=
  [0x428a2f98, 0x71374491, 0xb5c0fbcf, 0xe9b5dba5, 0x3956c25b, 0x59f111f1,
   0x923f82a4, 0xab1c5ed5, 0xd807aa98, 0x12835b01, 0x243185be, 0x550c7dc3,
   0x72be5d74, 0x80deb1fe, 0x9bdc06a7, 0xc19bf174, 0xe49b69c1, 0xefbe4786,
   0x0fc19dc6, 0x240ca1cc, 0x2de92c6f, 0x4a7484aa, 0x5cb0a9dc, 0x76f988da,
   0x983e5152, 0xa831c66d, 0xb00327c8, 0xbf597fc7, 0xc6e00bf3, 0xd5a79147,
   0x06ca6351, 0x14292967, 0x27b70a85, 0x2e1b2138, 0x4d2c6dfc, 0x53380d13,
   0x650a7354, 0x766a0abb, 0x81c2c92e, 0x92722c85, 0xa2bfe8a1, 0xa81a664b,
   0xc24b8b70, 0xc76c51a3, 0xd192e819, 0xd6990624, 0xf40e3585, 0x106aa070,
   0x19a4c116, 0x1e376c08, 0x2748774c, 0x34b0bcb5, 0x391c0cb3, 0x4ed8aa4a,
   0x5b9cca4f, 0x682e6ff3, 0x748f82ee, 0x78a5636f, 0x84c87814, 0x8cc70208,
   0x90befffa, 0xa4506ceb, 0xbef9a3f7, 0xc67178f2]

/-- The number of a list of digits, the most significant first. -/
def ofDigits (base : ℕ) (digits : List ℕ) : ℕ :=
  digits.foldl (fun n d => n * base + d) 0

/-- A digit to the base `2 ^ 32`; digit `0` is the least significant one. -/
def word (i n : ℕ) : ℕ := (n >>> (32 * i)) % 2 ^ 32

/-- `n` more words of the message schedule, each as a new last digit. -/
def schedule : (n ws : ℕ) → ℕ
  | 0, ws => ws
  | n + 1, ws =>
    force (ws * 2 ^ 32 + (smallSigma1 (word 1 ws) + word 6 ws +
      smallSigma0 (word 14 ws) + word 15 ws) % 2 ^ 32) (schedule n)

structure State where
  (a b c d e f g h : ℕ)

/-- The last `n` rounds, for the constants and the schedule as digits. -/
def rounds (ks ws : ℕ) : (n : ℕ) → State → State
  | 0, s => s
  | n + 1, ⟨a, b, c, d, e, f, g, h⟩ =>
    force (h + bigSigma1 e + ch e f g + word n ks + word n ws) fun t₁ =>
      force ((t₁ + bigSigma0 a + maj a b c) % 2 ^ 32) fun a' =>
        force ((d + t₁) % 2 ^ 32) fun e' =>
          rounds ks ws n ⟨a', a, b, c, e', e, f, g⟩

/-- The hash value after one more block. -/
def compress (ks hash block : ℕ) : ℕ :=
  let s := force (schedule 48 block) fun ws =>
    rounds ks ws 64 ⟨word 7 hash, word 6 hash, word 5 hash, word 4 hash,
      word 3 hash, word 2 hash, word 1 hash, word 0 hash⟩
  ofDigits (2 ^ 32) [(word 7 hash + s.a) % 2 ^ 32,
    (word 6 hash + s.b) % 2 ^ 32, (word 5 hash + s.c) % 2 ^ 32,
    (word 4 hash + s.d) % 2 ^ 32, (word 3 hash + s.e) % 2 ^ 32,
    (word 2 hash + s.f) % 2 ^ 32, (word 1 hash + s.g) % 2 ^ 32,
    (word 0 hash + s.h) % 2 ^ 32]

/-- The hash value after the last `n` blocks of a message. -/
def process (ks message : ℕ) : (n hash : ℕ) → ℕ
  | 0, hash => hash
  | n + 1, hash =>
    force (compress ks hash ((message >>> (512 * n)) % 2 ^ 512))
      (process ks message n)

def initial : ℕ :=
  0x6a09e667bb67ae853c6ef372a54ff53a510e527f9b05688c1f83d9ab5be0cd19

/-- The message with a one bit, zeros and its length in bits, as a number of
`64 * blocks` octets. -/
def pad (text : List Byte) (blocks : ℕ) : ℕ :=
  (ofDigits 256 (text.map BitVec.toNat) * 256 + 0x80) *
    256 ^ (64 * blocks - text.length - 1) + 8 * text.length

/-- The digest as a number. -/
def digest (text : List Byte) : ℕ :=
  let blocks := (text.length + 72) / 64
  force (ofDigits (2 ^ 32) constants) fun ks =>
    force (pad text blocks) fun message => process ks message blocks initial

def sha256 (text : List Byte) : Buf 32 :=
  Buf.ofList 32 (toLe 32 (digest text)).reverse

-- the first example of the standard
example : digest [0x61, 0x62, 0x63] =
    0xba7816bf8f01cfea414140de5dae2223b00361a396177a9cb410ff61f20015ad := by
  decide +kernel

end Sha256
