import FlatNet.Feature.Basic
import FlatNet.Scalar

/-!
Bilinear resizing.

Along each axis an output position lies between two input positions, its taps, at a
fraction of the way from the lower to the upper one.

* `Taps`, `tapsOf`: the taps of an output position;
* `FeatureMap.resizeBilinear`: the resized feature map.
-/

namespace FlatNet

/-- Where pixel centres lie. -/
structure Sampling where
  /-- The outermost pixels of input and output coincide. -/
  alignCorners : Bool
  /-- Centres lie half a pixel from the border. -/
  halfPixelCenters : Bool
  deriving DecidableEq, Repr, Inhabited

/-- The input positions around an output position. -/
structure Taps where
  /-- The position before it. -/
  lower : Nat
  /-- The position after it. -/
  upper : Nat
  /-- The fraction of the way between them. -/
  lerp : Float32

/-- The place of an output position on the input axis.  With aligned corners the last output
position goes to the last input position. -/
def sourceOf {ε : Type} (outLen inLen : Nat) (s : Sampling) (dst : Nat) : Outcome ε Float32 :=
  if s.alignCorners then
    if 1 < outLen then do
      let product ← Size.mul dst (← Size.sub inLen 1)
      return Scalar.ofSize product / Scalar.ofSize (outLen - 1)
    else .value 0
  else
    let scale := Scalar.ofSize inLen / Scalar.ofSize outLen
    if s.halfPixelCenters then .value ((Scalar.ofSize dst + 0.5) * scale - 0.5)
    else .value (Scalar.ofSize dst * scale)

/-- The taps of an output position: its neighbours on the input axis, kept inside it. -/
def tapsOf {ε : Type} (outLen inLen : Nat) (s : Sampling) (dst : Nat) : Outcome ε Taps := do
  let src ← sourceOf outLen inLen s dst
  let last ← Size.sub inLen 1
  let floor := Scalar.floor src
  return {
    lower := min (Scalar.toIndex (Scalar.max floor 0)) last
    upper := min (Scalar.toIndex (Scalar.max (Scalar.ceil src) 0)) last
    lerp := src - floor }

namespace FeatureMap

/-- The number a fraction of the way from `x` to `y`. -/
def mix (x y lerp : Float32) : Float32 := x + (y - x) * lerp

/-- Resize every image to `size`, its height and width. -/
def resizeBilinear (m : FeatureMap) (size : Nat × Nat) (s : Sampling) :
    KernelOutcome FeatureMap := do
  Outcome.require (size.1 ≠ 0 && size.2 ≠ 0) .resizeEmpty
  Outcome.require (!(s.alignCorners && s.halfPixelCenters)) .resizeModes
  let hwc : Hwc := ⟨size.1, size.2, m.hwc.channels⟩
  reserve m.batch hwc
  let ys := (← (List.range size.1).mapM (tapsOf size.1 m.hwc.height s)).toArray
  let xs := (← (List.range size.2).mapM (tapsOf size.2 m.hwc.width s)).toArray
  tabulate m.batch hwc fun n y x c => do
    let ty ← Outcome.orFault ys[y]?
    let tx ← Outcome.orFault xs[x]?
    let topLeft ← m.at n ty.lower tx.lower c
    let topRight ← m.at n ty.lower tx.upper c
    let bottomLeft ← m.at n ty.upper tx.lower c
    let bottomRight ← m.at n ty.upper tx.upper c
    return mix (mix topLeft topRight tx.lerp) (mix bottomLeft bottomRight tx.lerp) ty.lerp

end FeatureMap

end FlatNet
