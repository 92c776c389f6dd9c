/-
**Byte strings of a fixed length.**

* `FixedBytes.ofBytes` and `FixedBytes.ofHex` accept exactly the byte strings of that length;
* `FixedBytes.alignRight` takes the last bytes of any byte string, with zeros in front of a short
  one;
* the order is the order of the bytes.
-/

import Std.Data.ExtTreeMap
import Std.Data.ExtTreeSet
import StakingDirectory.Text.Hex

namespace StakingDirectory

/-- A string of exactly `size` bytes. -/
structure FixedBytes (size : Nat) where
  bytes : Bytes
  length_bytes : bytes.length = size
deriving DecidableEq

namespace FixedBytes

variable {size : Nat}

theorem ext_bytes {first second : FixedBytes size} (same : first.bytes = second.bytes) :
    first = second := by
  cases first
  cases second
  simp_all

/-! ### Building -/

/-- The bytes, if there are as many as needed. -/
def ofBytes (bytes : Bytes) : Except Hex.Fault (FixedBytes size) :=
  if fits : bytes.length = size then .ok ⟨bytes, fits⟩
  else .error (.wrongLength bytes.length size)

/-- Reads hexadecimal text of exactly `size` bytes. -/
def ofHex (text : String) : Except Hex.Fault (FixedBytes size) :=
  match Hex.decode text with
  | .ok bytes => ofBytes bytes
  | .error fault => .error fault

/-- The last `size` bytes, behind zeros where there are fewer. -/
def alignRight (bytes : Bytes) : FixedBytes size where
  bytes := List.replicate (size - bytes.length) 0 ++ bytes.drop (bytes.length - size)
  length_bytes := by
    simp only [List.length_append, List.length_replicate, List.length_drop]
    omega

/-! ### Order -/

instance : Ord (FixedBytes size) where
  compare first second := compare first.bytes second.bytes

theorem compare_eq (first second : FixedBytes size) :
    compare first second = compare first.bytes second.bytes := rfl

instance : Std.TransOrd (FixedBytes size) where
  eq_swap {first second} := by
    simp only [compare_eq]
    exact Std.OrientedOrd.eq_swap
  isLE_trans {first second third} := by
    simp only [compare_eq]
    exact Std.TransOrd.isLE_trans

instance : Std.LawfulEqOrd (FixedBytes size) where
  compare_self {value} := by
    simp only [compare_eq]
    exact Std.ReflOrd.compare_self
  eq_of_compare {first second} := by
    simp only [compare_eq]
    intro same
    exact ext_bytes (Std.LawfulEqOrd.eq_of_compare same)

end FixedBytes

end StakingDirectory
