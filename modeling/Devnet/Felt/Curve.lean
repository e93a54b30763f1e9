import Devnet.Felt.Basic

/-
The curve `y ^ 2 = x ^ 3 + x + b` over the field. Points are kept in Jacobian coordinates:
`(X, Y, Z)` stands for `(X / Z ^ 2, Y / Z ^ 3)`, and `Z = 0` for the point at infinity.
-/
set_option autoImplicit false

namespace Devnet

structure Curve.Point where
  x : Felt
  y : Felt
  z : Felt
  deriving DecidableEq

namespace Curve

def infinity : Point := ⟨1, 1, 0⟩

def affine (x y : Nat) : Point := ⟨Felt.ofNat x, Felt.ofNat y, 1⟩

def double (p : Point) : Point :=
  if p.y = 0 then infinity
  else
    let yy := p.y * p.y
    let s := 4 * p.x * yy
    let zz := p.z * p.z
    let m := 3 * p.x * p.x + zz * zz
    let x := m * m - 2 * s
    ⟨x, m * (s - x) - 8 * yy * yy, 2 * p.y * p.z⟩

def add (p q : Point) : Point :=
  if p.z = 0 then q
  else if q.z = 0 then p
  else
    let pz := p.z * p.z
    let qz := q.z * q.z
    let u := p.x * qz
    let v := q.x * pz
    let s := p.y * q.z * qz
    let t := q.y * p.z * pz
    let h := v - u
    let r := t - s
    if h = 0 then if r = 0 then double p else infinity
    else
      let hh := h * h
      let hhh := h * hh
      let w := u * hh
      let x := r * r - hhh - 2 * w
      ⟨x, r * (w - x) - s * hhh, h * p.z * q.z⟩

-- `sum + n * p`, where `n` has at most `bits` binary digits.
def addMultiple (sum p : Point) (n : Nat) : Nat → Point
  | 0 => sum
  | bits + 1 => addMultiple (if n % 2 = 1 then add sum p else sum) (double p) (n / 2) bits

def power (product x : Felt) (n : Nat) : Nat → Felt
  | 0 => product
  | bits + 1 => power (if n % 2 = 1 then product * x else product) (x * x) (n / 2) bits

def inverse (x : Felt) : Felt := power 1 x (fieldOrder - 2) 252

def abscissa (p : Point) : Felt :=
  let z := inverse p.z
  p.x * (z * z)

end Curve
end Devnet
