/-
**The curve secp256k1.**

The curve is `y² = x³ + 7` over the field of `fieldOrder` elements, and its points other than the
one at infinity are counted by the prime `groupOrder`. Points are held in projective coordinates, so
that one formula adds any two of them:

* `Point.add` is the complete addition of points on a curve without linear and quadratic terms;
* `Point.scale` adds a point to itself a number of times;
* `Point.affine` is the pair of coordinates, `none` at infinity;
* `Point.lift` finds the point over an abscissa with a root of the wanted parity.
-/

import StakingDirectory.Curve.Field

namespace StakingDirectory.Curve

/-- The order of the field of coordinates. -/
def fieldOrder : Nat := 0xfffffffffffffffffffffffffffffffffffffffffffffffffffffffefffffc2f

/-- The order of the group of points. -/
def groupOrder : Nat := 0xfffffffffffffffffffffffffffffffebaaedce6af48a03bbfd25e8cd0364141

instance : Modulus fieldOrder := ⟨by decide⟩

instance : Modulus groupOrder := ⟨by decide⟩

/-- A coordinate. -/
abbrev Coordinate := Fin fieldOrder

/-- A multiplier of points. -/
abbrev Scalar := Fin groupOrder

/-- A point in projective coordinates: `(x / z, y / z)`, or infinity where `z` is zero. -/
structure Point where
  x : Coordinate
  y : Coordinate
  z : Coordinate
deriving DecidableEq

namespace Point

/-- The point at infinity. -/
def infinity : Point := ⟨residue 0, residue 1, residue 0⟩

/-- The point whose multiples are the whole group. -/
def generator : Point where
  x := residue 0x79be667ef9dcbbac55a06295ce870b07029bfcdb2dce28d959f2815b16f81798
  y := residue 0x483ada7726a3c4655da4fbfc0e1108a8fd17b448a68554199c47d08ffb10d4b8
  z := residue 1

/-- The sum of two points. The formula holds for all pairs, equal and infinite points included. -/
def add (first second : Point) : Point :=
  let xx := first.x * second.x
  let yy := first.y * second.y
  let zz := residue 21 * (first.z * second.z)
  let xy := first.x * second.y + second.x * first.y
  let yz := first.y * second.z + second.y * first.z
  let xz := residue 21 * (first.x * second.z + second.x * first.z)
  { x := xy * (yy - zz) - yz * xz
    y := (yy - zz) * (yy + zz) + residue 3 * xx * xz
    z := (yy + zz) * yz + residue 3 * xx * xy }

/-- A point added to itself as often as the multiplier says. -/
def scale (multiplier : Scalar) (point : Point) : Point :=
  places.foldl (fun sum place =>
    let double := add sum sum
    if multiplier.val.testBit place then add double point else double) infinity

/-- The coordinates of a point, if it has any. -/
def affine (point : Point) : Option (Coordinate × Coordinate) :=
  if point.z.val = 0 then none
  else
    let scale := inverse point.z
    some (point.x * scale, point.y * scale)

/-- The point over an abscissa whose ordinate has the wanted parity, if the curve has one. -/
def lift (x : Coordinate) (odd : Bool) : Option Point :=
  let square := x * x * x + residue 7
  let y := root square
  if y * y = square then
    some ⟨x, if (y.val % 2 == 1) = odd then y else -y, residue 1⟩
  else none

end Point

end StakingDirectory.Curve
