/-
**Keccak-256.**

The sponge over twenty-five lanes of 64 bits with rate 136 and the padding that begins with the
byte 1:

* `permute` is the permutation in twenty-four rounds; the lane in column `x` and row `y` stands at
  index `x + 5 * y`;
* `absorb` mixes in one block;
* `digest` is the digest of a byte string, and has 32 bytes (`length_digest`).
-/

import StakingDirectory.Bytes

namespace StakingDirectory.Keccak

/-- The lanes of the sponge. -/
abbrev Lanes := Vector UInt64 25

/-- Left rotation of a lane. -/
def rotate (lane amount : UInt64) : UInt64 :=
  (lane <<< amount) ||| (lane >>> (64 - amount))

/-! ### The steps of a round -/

/-- The lane at a column and a row, both taken modulo five. -/
def laneAt (lanes : Lanes) (column row : Nat) : UInt64 :=
  lanes.get ⟨column % 5 + 5 * (row % 5), by omega⟩

/-- The parity of a column. -/
def parity (lanes : Lanes) (column : Nat) : UInt64 :=
  laneAt lanes column 0 ^^^ laneAt lanes column 1 ^^^ laneAt lanes column 2 ^^^
    laneAt lanes column 3 ^^^ laneAt lanes column 4

/-- Adds to each lane the parities of the columns at its two sides. -/
def diffuse (lanes : Lanes) : Lanes :=
  let parities := Vector.ofFn fun column : Fin 5 => parity lanes column.val
  let effects := Vector.ofFn fun column : Fin 5 =>
    parities.get ⟨(column.val + 4) % 5, by omega⟩ ^^^
      rotate (parities.get ⟨(column.val + 1) % 5, by omega⟩) 1
  Vector.ofFn fun place : Fin 25 => lanes[place] ^^^ effects.get ⟨place.val % 5, by omega⟩

/-- The rotation of each lane. -/
def offsets : Vector UInt64 25 :=
  #v[0, 1, 62, 28, 27,
     36, 44, 6, 55, 20,
     3, 10, 43, 25, 39,
     41, 45, 15, 21, 8,
     18, 2, 61, 56, 14]

/-- Rotates every lane and moves it to its new place. -/
def disperse (lanes : Lanes) : Lanes :=
  let turned := Vector.ofFn fun place : Fin 25 => rotate lanes[place] offsets[place]
  Vector.ofFn fun place : Fin 25 =>
    laneAt turned (place.val % 5 + 3 * (place.val / 5)) (place.val % 5)

/-- Combines each lane with the next two of its row. -/
def combine (lanes : Lanes) : Lanes :=
  Vector.ofFn fun place : Fin 25 =>
    lanes[place] ^^^ (~~~(laneAt lanes (place.val % 5 + 1) (place.val / 5)) &&&
      laneAt lanes (place.val % 5 + 2) (place.val / 5))

/-- The constant that each round adds to the first lane. -/
def roundConstants : List UInt64 :=
  [0x0000000000000001, 0x0000000000008082, 0x800000000000808a, 0x8000000080008000,
   0x000000000000808b, 0x0000000080000001, 0x8000000080008081, 0x8000000000008009,
   0x000000000000008a, 0x0000000000000088, 0x0000000080008009, 0x000000008000000a,
   0x000000008000808b, 0x800000000000008b, 0x8000000000008089, 0x8000000000008003,
   0x8000000000008002, 0x8000000000000080, 0x000000000000800a, 0x800000008000000a,
   0x8000000080008081, 0x8000000000008080, 0x0000000080000001, 0x8000000080008008]

/-- One round. -/
def round (lanes : Lanes) (constant : UInt64) : Lanes :=
  let mixed := combine (disperse (diffuse lanes))
  mixed.set 0 (mixed[0] ^^^ constant)

/-- The permutation of the lanes. -/
def permute (lanes : Lanes) : Lanes :=
  roundConstants.foldl round lanes

/-! ### The sponge -/

/-- The bytes of a block. -/
def rate : Nat := 136

/-- The bytes that fill the last block, from 1 to 136 of them. -/
def padding (length : Nat) : Bytes :=
  let gap := rate - length % rate
  if gap = 1 then [0x81] else 0x01 :: (List.replicate (gap - 2) 0 ++ [0x80])

/-- The lane that eight bytes spell, least significant byte first. -/
def laneOfBytes (bytes : Bytes) : UInt64 :=
  bytes.foldr (fun byte lane => (lane <<< 8) ||| byte.toUInt64) 0

/-- The eight bytes of a lane, least significant byte first. -/
def bytesOfLane (lane : UInt64) : Bytes :=
  (List.range 8).map fun place => (lane >>> UInt64.ofNat (8 * place)).toUInt8

/-- Mixes one block into the lanes and permutes them. -/
def absorb (lanes : Lanes) (block : Bytes) : Lanes :=
  let words := ((Bytes.blocks 8 17 block).map laneOfBytes).toArray
  permute (Vector.ofFn fun place : Fin 25 => lanes[place] ^^^ words.getD place.val 0)

/-- The Keccak-256 digest of a byte string. -/
def digest (message : Bytes) : Bytes :=
  let padded := message ++ padding message.length
  let blocks := Bytes.blocks rate (padded.length / rate) padded
  let lanes := blocks.foldl absorb (Vector.replicate 25 0)
  (lanes.toList.take 4).flatMap bytesOfLane

theorem length_bytesOfLane (lane : UInt64) : (bytesOfLane lane).length = 8 := by
  simp [bytesOfLane]

/-- A digest has 32 bytes. -/
theorem length_digest (message : Bytes) : (digest message).length = 32 := by
  simp [digest, List.length_flatMap, length_bytesOfLane, List.map_const']

end StakingDirectory.Keccak
