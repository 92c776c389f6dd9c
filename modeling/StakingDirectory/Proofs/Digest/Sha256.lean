/-
**SHA-256 on numbers.**

The words of the digest as natural numbers, which are quicker to compute with in a proof than
machine words. Every function on words has its counterpart on numbers below `2 ^ 32`, step for step;
only the schedule is turned around, with its latest word first, so that the words that make the next
one stand at fixed places. `digest_eq` says that the digest is that on numbers.
-/

import Mathlib.Data.List.Basic
import StakingDirectory.Digest.Sha256

namespace StakingDirectory.Sha256

/-! ### Words -/

/-- The sum of two words. -/
def numAdd (first second : Nat) : Nat := (first + second) % 4294967296

/-- Left shift of a word. -/
def numShift (word amount : Nat) : Nat := word <<< amount % 4294967296

/-- Right rotation of a word. -/
def numRotate (word amount : Nat) : Nat := (word >>> amount) ||| numShift word (32 - amount)

/-- The word with every bit turned. -/
def numNot (word : Nat) : Nat := 4294967295 - word

theorem toNat_sum (first second : UInt32) :
    (first + second).toNat = numAdd first.toNat second.toNat :=
  UInt32.toNat_add first second

theorem toNat_turned (word : UInt32) : (~~~word).toNat = numNot word.toNat :=
  UInt32.toNat_not word

theorem toNat_rotate (word : UInt32) {amount : UInt32} (positive : 0 < amount.toNat)
    (small : amount.toNat < 32) :
    (rotate word amount).toNat = numRotate word.toNat amount.toNat := by
  have rest : (32 - amount).toNat = 32 - amount.toNat :=
    UInt32.toNat_sub_of_le _ _ (UInt32.le_iff_toNat_le.mpr (Nat.le_of_lt small))
  have inside : 32 - amount.toNat < 32 := by omega
  rw [rotate, UInt32.toNat_or, UInt32.toNat_shiftRight, UInt32.toNat_shiftLeft, rest,
    Nat.mod_eq_of_lt small, Nat.mod_eq_of_lt inside]
  rfl

/-- The word that bytes spell. -/
def numWord (bytes : Bytes) : Nat :=
  bytes.foldl (fun word byte => numShift word 8 ||| byte.toNat) 0

theorem toNat_wordOfBytes (bytes : Bytes) : (wordOfBytes bytes).toNat = numWord bytes := by
  have general : ∀ (bytes : Bytes) (word : UInt32),
      (bytes.foldl (fun (word : UInt32) byte => (word <<< 8) ||| byte.toUInt32) word).toNat =
        bytes.foldl (fun word byte => numShift word 8 ||| byte.toNat) word.toNat := by
    intro bytes
    induction bytes with
    | nil => exact fun _ => rfl
    | cons byte rest ih =>
      intro word
      rw [List.foldl_cons, List.foldl_cons, ih, UInt32.toNat_or, UInt32.toNat_shiftLeft,
        UInt8.toNat_toUInt32]
      rfl
  exact general bytes 0

/-- The bytes of a word. -/
def numBytes (word : Nat) : Bytes :=
  [UInt8.ofNat (word >>> 24), UInt8.ofNat (word >>> 16), UInt8.ofNat (word >>> 8),
    UInt8.ofNat word]

theorem bytesOfWord_eq (word : UInt32) : bytesOfWord word = numBytes word.toNat := by
  simp [bytesOfWord, numBytes, ← UInt8.toNat_inj]

/-! ### The schedule -/

/-- Puts the next word in front of the schedule. -/
def numExtend (recent : List Nat) : List Nat :=
  let near := recent.getD 1 0
  let far := recent.getD 14 0
  numAdd (numAdd (numAdd (recent.getD 15 0)
      (numRotate far 7 ^^^ numRotate far 18 ^^^ (far >>> 3))) (recent.getD 6 0))
    (numRotate near 17 ^^^ numRotate near 19 ^^^ (near >>> 10)) :: recent

/-- The words of a block, the latest first. -/
def numSchedule (block : Bytes) : List Nat :=
  (List.range 48).foldl (fun recent _ => numExtend recent)
    ((Bytes.blocks 4 16 block).map numWord).reverse

/-- The numbers of a schedule, the latest first. -/
def recentOf (schedule : Array UInt32) : List Nat :=
  (schedule.toList.map UInt32.toNat).reverse

theorem getD_recentOf {schedule : Array UInt32} {place : Nat} (inside : place < schedule.size) :
    (schedule.getD (schedule.size - (place + 1)) 0).toNat = (recentOf schedule).getD place 0 := by
  have turned : schedule.size - 1 - place = schedule.size - (place + 1) := by omega
  have valid : schedule.size - (place + 1) < schedule.size := by omega
  rw [recentOf, List.getD_eq_getElem?_getD, List.getElem?_reverse (by simpa using inside),
    List.length_map, Array.length_toList, turned, List.getElem?_map, Array.getElem?_toList,
    Array.getD_eq_getD_getElem?, Array.getElem?_eq_getElem valid]
  rfl

theorem recentOf_extend {schedule : Array UInt32} (long : 16 ≤ schedule.size) :
    recentOf (extend schedule) = numExtend (recentOf schedule) := by
  have pushed : ∀ word, recentOf (schedule.push word) = word.toNat :: recentOf schedule := by
    simp [recentOf]
  have word := fun place (early : place < 16) =>
    getD_recentOf (Nat.lt_of_lt_of_le early long)
  rw [extend, pushed, numExtend]
  simp (disch := decide) only [toNat_sum, toNat_rotate, UInt32.toNat_xor, UInt32.toNat_shiftRight,
    word 1, word 6, word 14, word 15, UInt32.reduceToNat, Nat.reduceMod]

theorem length_blocks (size count : Nat) (bytes : Bytes) :
    (Bytes.blocks size count bytes).length = count := by
  induction count generalizing bytes with
  | zero => rfl
  | succ count ih => rw [Bytes.blocks, List.length_cons, ih]

theorem recentOf_schedule (block : Bytes) : recentOf (schedule block) = numSchedule block := by
  have general : ∀ (steps : List Nat) (start : Array UInt32), 16 ≤ start.size →
      recentOf (steps.foldl (fun words _ => extend words) start) =
        steps.foldl (fun recent _ => numExtend recent) (recentOf start) := by
    intro steps
    induction steps with
    | nil => exact fun _ _ => rfl
    | cons step rest ih =>
      intro start long
      have longer : 16 ≤ (extend start).size := by
        rw [extend, Array.size_push]
        omega
      rw [List.foldl_cons, List.foldl_cons, ih _ longer, recentOf_extend long]
  rw [schedule, general _ _ (by simp [length_blocks]), numSchedule, recentOf]
  simp only [List.map_map, Function.comp_def, toNat_wordOfBytes]

/-! ### Rounds -/

theorem exists_eight (words : Words) :
    ∃ a b c d e f g h, words = ⟨#[a, b, c, d, e, f, g, h], rfl⟩ := by
  rcases words with ⟨⟨words⟩, eight⟩
  match words, eight with
  | [a, b, c, d, e, f, g, h], _ => exact ⟨a, b, c, d, e, f, g, h, rfl⟩

/-- The numbers of the chaining state. -/
def numbersOf (words : Words) : List Nat := words.toList.map UInt32.toNat

/-- One round with its constant and its word of the schedule. -/
def numRound (words : List Nat) (constant word : Nat) : List Nat :=
  match words with
  | [a, b, c, d, e, f, g, h] =>
    let first := numAdd (numAdd (numAdd (numAdd h
      (numRotate e 6 ^^^ numRotate e 11 ^^^ numRotate e 25))
      ((e &&& f) ^^^ (numNot e &&& g))) constant) word
    let second := numAdd (numRotate a 2 ^^^ numRotate a 13 ^^^ numRotate a 22)
      ((a &&& b) ^^^ (a &&& c) ^^^ (b &&& c))
    [numAdd first second, a, b, c, numAdd d first, e, f, g]
  | _ => []

theorem numbersOf_round (words : Words) (constant word : UInt32) :
    numbersOf (round words constant word) =
      numRound (numbersOf words) constant.toNat word.toNat := by
  obtain ⟨a, b, c, d, e, f, g, h, rfl⟩ := exists_eight words
  let first := h + (rotate e 6 ^^^ rotate e 11 ^^^ rotate e 25) +
    ((e &&& f) ^^^ (~~~e &&& g)) + constant + word
  let second := (rotate a 2 ^^^ rotate a 13 ^^^ rotate a 22) +
    ((a &&& b) ^^^ (a &&& c) ^^^ (b &&& c))
  show [(first + second).toNat, a.toNat, b.toNat, c.toNat, (d + first).toNat, e.toNat, f.toNat,
    g.toNat] = numRound [_, _, _, _, _, _, _, _] _ _
  simp (disch := decide) only [first, second, toNat_sum, toNat_rotate, toNat_turned,
    UInt32.toNat_xor, UInt32.toNat_and, UInt32.reduceToNat, numRound]

/-- Runs a block through the numbers of the chaining state. -/
def numCompress (words : List Nat) (block : Bytes) : List Nat :=
  let rounds := (roundConstants.map UInt32.toNat).zip (numSchedule block).reverse
  List.zipWith numAdd words
    (rounds.foldl (fun state pair => numRound state pair.1 pair.2) words)

theorem numbersOf_compress (words : Words) (block : Bytes) :
    numbersOf (compress words block) = numCompress (numbersOf words) block := by
  have mixed : ∀ (rounds : List (UInt32 × UInt32)) (state : Words),
      numbersOf (rounds.foldl (fun state pair => round state pair.1 pair.2) state) =
        (rounds.map fun pair => (pair.1.toNat, pair.2.toNat)).foldl
          (fun state pair => numRound state pair.1 pair.2) (numbersOf state) := by
    intro rounds
    induction rounds with
    | nil => exact fun _ => rfl
    | cons pair rest ih =>
      intro state
      rw [List.foldl_cons, ih, numbersOf_round, List.map_cons, List.foldl_cons]
  have scheduled : (numSchedule block).reverse = (schedule block).toList.map UInt32.toNat := by
    rw [← recentOf_schedule, recentOf, List.reverse_reverse]
  have sum : ∀ first second : Words,
      numbersOf (Vector.ofFn fun place => first[place] + second[place]) =
        List.zipWith numAdd (numbersOf first) (numbersOf second) := by
    intro first second
    obtain ⟨_, _, _, _, _, _, _, _, rfl⟩ := exists_eight first
    obtain ⟨_, _, _, _, _, _, _, _, rfl⟩ := exists_eight second
    rfl
  rw [compress, sum, mixed, numCompress, scheduled, List.zip_map]
  rfl

/-! ### Digests -/

/-- The digest of a byte string. -/
def numDigest (message : Bytes) : Bytes :=
  let padded := message ++ padding message.length
  ((Bytes.blocks 64 (padded.length / 64) padded).foldl numCompress
    (numbersOf initial)).flatMap numBytes

/-- **The digest on numbers is the digest.** -/
theorem digest_eq (message : Bytes) : digest message = numDigest message := by
  have absorbed : ∀ (blocks : List Bytes) (words : Words),
      numbersOf (blocks.foldl compress words) = blocks.foldl numCompress (numbersOf words) := by
    intro blocks
    induction blocks with
    | nil => exact fun _ => rfl
    | cons block rest ih =>
      intro words
      rw [List.foldl_cons, List.foldl_cons, ih, numbersOf_compress]
  have written : ∀ words : Words,
      words.toList.flatMap bytesOfWord = (numbersOf words).flatMap numBytes := by
    intro words
    rw [numbersOf, List.flatMap_map, funext bytesOfWord_eq]
  unfold digest numDigest
  simp only [written, absorbed]

end StakingDirectory.Sha256
