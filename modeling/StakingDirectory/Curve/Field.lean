/-
**Arithmetic modulo a prime.**

Residues are the type `Fin m`. Powers are taken over the binary digits of the exponent, inverses and
square roots are powers:

* `residue` is the residue of a number;
* `power` is exponentiation, for exponents below `2 ^ 256`;
* `inverse` is the power `m - 2`, the inverse modulo a prime `m` of every residue but zero;
* `root` is the power `(m + 1) / 4`, a root of every square modulo a prime `m` that leaves the
  remainder 3 on division by 4.
-/

namespace StakingDirectory.Curve

/-- A modulus that leaves residues. -/
class Modulus (m : Nat) : Prop where
  positive : 0 < m

/-- The residue of a number. -/
def residue {m : Nat} [Modulus m] (value : Nat) : Fin m :=
  ⟨value % m, Nat.mod_lt value Modulus.positive⟩

@[simp] theorem val_residue {m : Nat} [Modulus m] (value : Nat) :
    (residue value : Fin m).val = value % m := rfl

/-- The places of a 256-bit number, highest first. -/
def places : List Nat := (List.range 256).reverse

/-- A residue raised to a power. -/
def power {m : Nat} [Modulus m] (base : Fin m) (exponent : Nat) : Fin m :=
  places.foldl (fun value place =>
    if exponent.testBit place then value * value * base else value * value) (residue 1)

/-- The inverse of a residue modulo a prime. -/
def inverse {m : Nat} [Modulus m] (value : Fin m) : Fin m :=
  power value (m - 2)

/-- A root of a square modulo a prime with remainder 3 on division by 4. -/
def root {m : Nat} [Modulus m] (value : Fin m) : Fin m :=
  power value ((m + 1) / 4)

end StakingDirectory.Curve
