import Devnet.Felt.Curve

set_option autoImplicit false

namespace Devnet.Pedersen

def shift : Curve.Point :=
  Curve.affine 0x49ee3eba8c1600700ee1b87eb599f16716b0b1022947733551fde4050ca6804
    0x3ca0cfe4b3bc6ddf346d49d06ea0ed34e621062c0e056c1d0405d266e10268a

def leftLow : Curve.Point :=
  Curve.affine 0x234287dcbaffe7f969c748655fca9e58fa8120b6d56eb0c1080d17957ebe47b
    0x3b056f100f96fb21e889527d41f4e39940135dd7a6c94cc6ed0268ee89e5615

def leftHigh : Curve.Point :=
  Curve.affine 0x4fa56f376c83db33f9dab2656558f3399099ec1de5e3018b7a6932dba8aa378
    0x3fa0984c931c9e38113e0c0e47e4401562761f92a7a23b45168f4e80ff5b54d

def rightLow : Curve.Point :=
  Curve.affine 0x4ba4cc166be8dec764910f75b45f74b40c690c74709e90f3aa372f0bd2d6997
    0x40301cf5c1751f4b971e46c4ede85fcac5c59a5ce5ae7c48151f27b24b219c

def rightHigh : Curve.Point :=
  Curve.affine 0x54302dcb0e6cc1c6e44cca8f61a63bb2ca65048d53fb325d36ff12c49a58202
    0x1b77b3e37d13504b348046268d8ae25ce98ad783c25561a879dcc77e99c2426

def highWeight : Nat := Nat.pow 2 248

def absorb (sum low high : Curve.Point) (x : Felt) : Curve.Point :=
  Curve.addMultiple (Curve.addMultiple sum low (x.val % highWeight) 248) high (x.val / highWeight) 4

def hash (a b : Felt) : Felt :=
  Curve.abscissa (absorb (absorb shift leftLow leftHigh a) rightLow rightHigh b)

-- The hash of a list: folded from zero, its length last.
def hashList (xs : List Felt) : Felt := hash (xs.foldl hash 0) (Felt.ofNat xs.length)

end Devnet.Pedersen
