/-
**SHA-256 and its keyed form.**

* `digest` is the digest of a byte string: eight words of 32 bits, run over blocks of 64 bytes;
* `keyed` is the message authentication code built on it.
-/

import StakingDirectory.Bytes

namespace StakingDirectory.Sha256

/-- The chaining state: eight words. -/
abbrev Words := Vector UInt32 8

/-- Right rotation of a word. -/
def rotate (word amount : UInt32) : UInt32 :=
  (word >>> amount) ||| (word <<< (32 - amount))

/-- The first 32 bits of the fractional parts of the cube roots of the first 64 primes. -/
def roundConstants : List UInt32 :=
  [0x428a2f98, 0x71374491, 0xb5c0fbcf, 0xe9b5dba5, 0x3956c25b, 0x59f111f1, 0x923f82a4, 0xab1c5ed5,
   0xd807aa98, 0x12835b01, 0x243185be, 0x550c7dc3, 0x72be5d74, 0x80deb1fe, 0x9bdc06a7, 0xc19bf174,
   0xe49b69c1, 0xefbe4786, 0x0fc19dc6, 0x240ca1cc, 0x2de92c6f, 0x4a7484aa, 0x5cb0a9dc, 0x76f988da,
   0x983e5152, 0xa831c66d, 0xb00327c8, 0xbf597fc7, 0xc6e00bf3, 0xd5a79147, 0x06ca6351, 0x14292967,
   0x27b70a85, 0x2e1b2138, 0x4d2c6dfc, 0x53380d13, 0x650a7354, 0x766a0abb, 0x81c2c92e, 0x92722c85,
   0xa2bfe8a1, 0xa81a664b, 0xc24b8b70, 0xc76c51a3, 0xd192e819, 0xd6990624, 0xf40e3585, 0x106aa070,
   0x19a4c116, 0x1e376c08, 0x2748774c, 0x34b0bcb5, 0x391c0cb3, 0x4ed8aa4a, 0x5b9cca4f, 0x682e6ff3,
   0x748f82ee, 0x78a5636f, 0x84c87814, 0x8cc70208, 0x90befffa, 0xa4506ceb, 0xbef9a3f7, 0xc67178f2]

/-- The first 32 bits of the fractional parts of the square roots of the first eight primes. -/
def initial : Words :=
  #v[0x6a09e667, 0xbb67ae85, 0x3c6ef372, 0xa54ff53a, 0x510e527f, 0x9b05688c, 0x1f83d9ab, 0x5be0cd19]

/-! ### One block -/

/-- The word that four bytes spell, most significant byte first. -/
def wordOfBytes (bytes : Bytes) : UInt32 :=
  bytes.foldl (fun word byte => (word <<< 8) ||| byte.toUInt32) 0

/-- The four bytes of a word, most significant byte first. -/
def bytesOfWord (word : UInt32) : Bytes :=
  [(word >>> 24).toUInt8, (word >>> 16).toUInt8, (word >>> 8).toUInt8, word.toUInt8]

/-- Appends the next word of the schedule, made of four earlier ones. -/
def extend (schedule : Array UInt32) : Array UInt32 :=
  let back (distance : Nat) : UInt32 := schedule.getD (schedule.size - distance) 0
  let near := back 2
  let far := back 15
  schedule.push (back 16 + (rotate far 7 ^^^ rotate far 18 ^^^ (far >>> 3)) + back 7 +
    (rotate near 17 ^^^ rotate near 19 ^^^ (near >>> 10)))

/-- The 64 words of a block: its own sixteen and forty-eight more. -/
def schedule (block : Bytes) : Array UInt32 :=
  (List.range 48).foldl (fun words _ => extend words)
    ((Bytes.blocks 4 16 block).map wordOfBytes).toArray

/-- One round with its constant and its word of the schedule. -/
def round (words : Words) (constant word : UInt32) : Words :=
  let a := words[0]
  let e := words[4]
  let first := words[7] + (rotate e 6 ^^^ rotate e 11 ^^^ rotate e 25) +
    ((e &&& words[5]) ^^^ (~~~e &&& words[6])) + constant + word
  let second := (rotate a 2 ^^^ rotate a 13 ^^^ rotate a 22) +
    ((a &&& words[1]) ^^^ (a &&& words[2]) ^^^ (words[1] &&& words[2]))
  #v[first + second, a, words[1], words[2], words[3] + first, e, words[5], words[6]]

/-- Runs a block through the chaining state. -/
def compress (words : Words) (block : Bytes) : Words :=
  let rounds := roundConstants.zip (schedule block).toList
  let mixed := rounds.foldl (fun state pair => round state pair.1 pair.2) words
  Vector.ofFn fun place : Fin 8 => words[place] + mixed[place]

/-! ### Byte strings -/

/-- The bytes that fill the last block: a one bit, zeros, and the length in bits. -/
def padding (length : Nat) : Bytes :=
  0x80 :: (List.replicate ((119 - length % 64) % 64) 0 ++ Bytes.ofNat 8 (8 * length))

/-- The SHA-256 digest of a byte string. -/
def digest (message : Bytes) : Bytes :=
  let padded := message ++ padding message.length
  ((Bytes.blocks 64 (padded.length / 64) padded).foldl compress initial).toList.flatMap bytesOfWord

/-- A digest has 32 bytes. -/
theorem length_digest (message : Bytes) : (digest message).length = 32 := by
  simp [digest, List.length_flatMap, bytesOfWord, List.map_const']

/-! ### The keyed digest -/

/-- The authentication code of a message under a key of at most 64 bytes. -/
def keyed (key message : Bytes) : Bytes :=
  let block := key ++ List.replicate (64 - key.length) 0
  digest (block.map (· ^^^ 0x5c) ++ digest (block.map (· ^^^ 0x36) ++ message))

end StakingDirectory.Sha256
