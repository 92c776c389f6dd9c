/-
**Keccak-256 on lists.**

The lanes of the sponge as a list, which is quicker to compute with in a proof than a vector:

* `listRound` is a round on such a list, and `toList_round` says so;
* `digest_eq`: the digest is that of the sponge on lists.
-/

import Mathlib.Data.List.Basic
import StakingDirectory.Digest.Keccak

namespace StakingDirectory.Keccak

/-! ### Lists of lanes -/

/-- The lane at a column and a row, both taken modulo five. -/
def entry (lanes : List UInt64) (column row : Nat) : UInt64 :=
  lanes.getD (column % 5 + 5 * (row % 5)) 0

/-- The parity of a column. -/
def listParity (lanes : List UInt64) (column : Nat) : UInt64 :=
  entry lanes column 0 ^^^ entry lanes column 1 ^^^ entry lanes column 2 ^^^
    entry lanes column 3 ^^^ entry lanes column 4

/-- Adds to each lane the parities of the columns at its two sides. -/
def listDiffuse (lanes : List UInt64) : List UInt64 :=
  let parities := (List.range 5).map fun column => listParity lanes column
  let effects := (List.range 5).map fun column =>
    parities.getD ((column + 4) % 5) 0 ^^^ rotate (parities.getD ((column + 1) % 5) 0) 1
  (List.range 25).map fun place => lanes.getD place 0 ^^^ effects.getD (place % 5) 0

/-- Rotates every lane and moves it to its new place. -/
def listDisperse (lanes : List UInt64) : List UInt64 :=
  let turned := (List.range 25).map fun place =>
    rotate (lanes.getD place 0) (offsets.toList.getD place 0)
  (List.range 25).map fun place => entry turned (place % 5 + 3 * (place / 5)) (place % 5)

/-- Combines each lane with the next two of its row. -/
def listCombine (lanes : List UInt64) : List UInt64 :=
  (List.range 25).map fun place =>
    lanes.getD place 0 ^^^ (~~~(entry lanes (place % 5 + 1) (place / 5)) &&&
      entry lanes (place % 5 + 2) (place / 5))

/-- One round. -/
def listRound (lanes : List UInt64) (constant : UInt64) : List UInt64 :=
  let mixed := listCombine (listDisperse (listDiffuse lanes))
  mixed.set 0 (mixed.getD 0 0 ^^^ constant)

/-- Mixes one block into the lanes and permutes them. -/
def listAbsorb (lanes : List UInt64) (block : Bytes) : List UInt64 :=
  let words := (Bytes.blocks 8 17 block).map laneOfBytes
  roundConstants.foldl listRound
    ((List.range 25).map fun place => lanes.getD place 0 ^^^ words.getD place 0)

/-- The digest of a byte string, from lists of lanes. -/
def listDigest (message : Bytes) : Bytes :=
  let padded := message ++ padding message.length
  let blocks := Bytes.blocks rate (padded.length / rate) padded
  ((blocks.foldl listAbsorb (List.replicate 25 0)).take 4).flatMap bytesOfLane

/-! ### Agreement -/

theorem toList_ofFn {size : Nat} {f : Fin size → UInt64} {g : Nat → UInt64}
    (same : ∀ place, f place = g place.val) :
    (Vector.ofFn f).toList = (List.range size).map g := by
  refine List.ext_getElem (by simp) fun place inside inside' => ?_
  simp [same]

theorem getElem_eq {size : Nat} (lanes : Vector UInt64 size) (place : Fin size) :
    lanes[place] = lanes.toList.getD place.val 0 := by
  simp [List.getD_eq_getElem?_getD]

theorem get_eq {size : Nat} (lanes : Vector UInt64 size) (place : Fin size) :
    lanes.get place = lanes.toList.getD place.val 0 :=
  getElem_eq lanes place

theorem laneAt_eq (lanes : Lanes) (column row : Nat) :
    laneAt lanes column row = entry lanes.toList column row :=
  get_eq lanes _

theorem toList_diffuse (lanes : Lanes) : (diffuse lanes).toList = listDiffuse lanes.toList := by
  have parities : (Vector.ofFn fun column : Fin 5 => parity lanes column.val).toList =
      (List.range 5).map fun column => listParity lanes.toList column := by
    refine toList_ofFn fun column => ?_
    simp only [parity, listParity, laneAt_eq]
  unfold diffuse listDiffuse
  simp only
  refine toList_ofFn fun place => ?_
  rw [getElem_eq, get_eq]
  congr 2
  refine toList_ofFn fun column => ?_
  rw [get_eq, get_eq, parities]

theorem toList_disperse (lanes : Lanes) :
    (disperse lanes).toList = listDisperse lanes.toList := by
  have turned : (Vector.ofFn fun place : Fin 25 => rotate lanes[place] offsets[place]).toList =
      (List.range 25).map fun place =>
        rotate (lanes.toList.getD place 0) (offsets.toList.getD place 0) := by
    refine toList_ofFn fun place => ?_
    rw [getElem_eq, getElem_eq]
  unfold disperse listDisperse
  simp only
  refine toList_ofFn fun place => ?_
  rw [laneAt_eq, turned]

theorem toList_combine (lanes : Lanes) : (combine lanes).toList = listCombine lanes.toList := by
  unfold combine listCombine
  refine toList_ofFn fun place => ?_
  rw [laneAt_eq, laneAt_eq, getElem_eq]

theorem toList_round (lanes : Lanes) (constant : UInt64) :
    (round lanes constant).toList = listRound lanes.toList constant := by
  have mixed : (combine (disperse (diffuse lanes))).toList =
      listCombine (listDisperse (listDiffuse lanes.toList)) := by
    rw [toList_combine, toList_disperse, toList_diffuse]
  have first : (combine (disperse (diffuse lanes)))[0] =
      (listCombine (listDisperse (listDiffuse lanes.toList))).getD 0 0 := by
    rw [← mixed]
    exact getElem_eq _ (0 : Fin 25)
  unfold round listRound
  simp only [Vector.toList_set, mixed, first]

theorem toList_rounds (constants : List UInt64) (lanes : Lanes) :
    (constants.foldl round lanes).toList = constants.foldl listRound lanes.toList := by
  induction constants generalizing lanes with
  | nil => rfl
  | cons constant rest ih => rw [List.foldl_cons, List.foldl_cons, ih, toList_round]

theorem toList_absorb (lanes : Lanes) (block : Bytes) :
    (absorb lanes block).toList = listAbsorb lanes.toList block := by
  let words := (Bytes.blocks 8 17 block).map laneOfBytes
  have mixed : (Vector.ofFn fun place : Fin 25 =>
      lanes[place] ^^^ words.toArray.getD place.val 0).toList =
        (List.range 25).map fun place => lanes.toList.getD place 0 ^^^ words.getD place 0 := by
    refine toList_ofFn fun place => ?_
    rw [getElem_eq]
    simp [Array.getD_eq_getD_getElem?, List.getD_eq_getElem?_getD]
  unfold absorb permute listAbsorb
  rw [toList_rounds, mixed]

/-- **The digest from lists of lanes is the digest.** -/
theorem digest_eq (message : Bytes) : digest message = listDigest message := by
  have absorbed : ∀ (blocks : List Bytes) (lanes : Lanes),
      (blocks.foldl absorb lanes).toList = blocks.foldl listAbsorb lanes.toList := by
    intro blocks
    induction blocks with
    | nil => exact fun _ => rfl
    | cons block rest ih =>
      intro lanes
      rw [List.foldl_cons, List.foldl_cons, ih, toList_absorb]
  unfold digest listDigest
  simp only [absorbed, Vector.toList_replicate]

end StakingDirectory.Keccak
