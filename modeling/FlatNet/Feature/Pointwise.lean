import FlatNet.Feature.Basic
import FlatNet.Layer.Activation

/-!
Operations that keep every element at its position.

* `FeatureMap.activate`: an activation function everywhere;
* `FeatureMap.add`: the sum of two feature maps of one shape;
* `FeatureMap.batchNorm`: an affine change per channel;
* `FeatureMap.concat`: several feature maps side by side along the channels.
-/

namespace FlatNet.FeatureMap

/-- Apply an activation function to every element. -/
def activate (m : FeatureMap) (a : Activation) : FeatureMap :=
  { m with data := m.data.map a.apply }

/-- The activated sum of two feature maps of one shape. -/
def add (lhs rhs : FeatureMap) (a : Activation) : KernelOutcome FeatureMap := do
  Outcome.require (lhs.batch = rhs.batch && lhs.hwc = rhs.hwc) (.addMismatch lhs.hwc rhs.hwc)
  make lhs.batch lhs.hwc (lhs.data.zipWith (fun x y => a.apply (x + y)) rhs.data)

/-- The parameters of a normalisation, one number per channel. -/
structure Norm where
  /-- The factors. -/
  gamma : Array Float32
  /-- The summands. -/
  beta : Array Float32
  /-- The means. -/
  mean : Array Float32
  /-- The variances. -/
  variance : Array Float32

/-- Refuse a parameter that does not have one number per channel. -/
def Norm.check (name : String) (values : Array Float32) (channels : Nat) : KernelOutcome Unit :=
  Outcome.require (values.size = channels) (.normLength name values.size channels)

/-- The factor of a channel. -/
def Norm.scale {ε : Type} (p : Norm) (epsilon : Float32) (c : Nat) : Outcome ε Float32 := do
  let gamma ← Outcome.orFault p.gamma[c]?
  let variance ← Outcome.orFault p.variance[c]?
  return gamma / (variance + epsilon).sqrt

/-- Normalise every channel by its mean and variance, then scale and shift it. -/
def batchNorm (m : FeatureMap) (p : Norm) (epsilon : Float32) : KernelOutcome FeatureMap := do
  let channels := m.hwc.channels
  Norm.check "gamma" p.gamma channels
  Norm.check "beta" p.beta channels
  Norm.check "mean" p.mean channels
  Norm.check "variance" p.variance channels
  let scales := (← (List.range channels).mapM (p.scale epsilon)).toArray
  let data ← m.data.toList.zipIdx.mapM fun (x, i) => do
    let c := i % channels
    let mean ← Outcome.orFault p.mean[c]?
    let scale ← Outcome.orFault scales[c]?
    let beta ← Outcome.orFault p.beta[c]?
    return (x - mean) * scale + beta
  make m.batch m.hwc data.toArray

/-- The feature maps side by side along the channels, pixel by pixel. -/
def concat (ms : List FeatureMap) : KernelOutcome FeatureMap :=
  match ms with
  | [] => .error .concatEmpty
  | first :: _ => do
    Outcome.require (ms.all fun m => m.batch = first.batch && m.hwc.height = first.hwc.height
      && m.hwc.width = first.hwc.width) .concatMismatch
    let channels ← Size.sum (ms.map (·.hwc.channels))
    let hwc : Hwc := ⟨first.hwc.height, first.hwc.width, channels⟩
    let pixels ← Size.mul (← Size.mul first.batch first.hwc.height) first.hwc.width
    reserve first.batch hwc
    let parts ← (List.range pixels).mapM fun p => ms.mapM fun m => do
      part m.data (← Size.mul p m.hwc.channels) m.hwc.channels
    make first.batch hwc (parts.flatten.foldl (· ++ ·) #[])

end FlatNet.FeatureMap
