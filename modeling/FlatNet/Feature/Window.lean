import FlatNet.Feature.Basic
import FlatNet.Layer.Activation

/-!
Operations that slide a window over every image.

Window elements over the padding are left out.  Sums run over the rows of the window, its
columns and the input channels, in this order and from left to right.

* `Window.place`: the shape of the result and the padding in front;
* `FeatureMap.conv2d`, `FeatureMap.depthwiseConv2d`, `FeatureMap.maxPool2d`: the
  operations;
* `hwioToOhwi`: the transposition of a kernel into filter order.
-/

namespace FlatNet

/-- The shape of the result with the given channels, and the padding above and to the
left. -/
def Window.place (w : Window) (input : Hwc) (channels : Nat) : KernelOutcome (Hwc × Nat × Nat) := do
  Outcome.require (!w.degenerate) .degenerateWindow
  let h ← w.padding.outputLen input.height w.kernel.1 w.strides.1
  let v ← w.padding.outputLen input.width w.kernel.2 w.strides.2
  match h, v with
  | some h, some v =>
    let top ← w.padding.padBefore input.height w.kernel.1 w.strides.1
    let left ← w.padding.padBefore input.width w.kernel.2 w.strides.2
    return (⟨h, v, channels⟩, top, left)
  | _, _ => .error (.windowMisfit w.kernel input)

/-- Fold over the window elements at an output position that lie over the input: `step`
receives the element of the window and the pixel under it. -/
def Window.foldM {ε α : Type} (w : Window) (input : Hwc) (pad : Nat × Nat) (oy ox : Nat)
    (start : α) (step : α → Nat × Nat → Nat × Nat → Outcome ε α) : Outcome ε α :=
  (List.range w.kernel.1).foldlM (fun acc ky => do
    match ← Window.source oy ky w.strides.1 pad.1 input.height with
    | none => return acc
    | some iy =>
      (List.range w.kernel.2).foldlM (fun acc kx => do
        match ← Window.source ox kx w.strides.2 pad.2 input.width with
        | none => return acc
        | some ix => step acc (ky, kx) (iy, ix)) acc) start

/-- Add the products of two arrays of numbers to a sum, from left to right. -/
def addProducts (acc : Float32) (xs ws : Array Float32) : Float32 :=
  (xs.zip ws).foldl (fun acc p => acc + p.1 * p.2) acc

/-- Add the bias of a channel, if there is one. -/
def addBias {ε : Type} (acc : Float32) (bias : Option (Array Float32)) (c : Nat) :
    Outcome ε Float32 :=
  match bias with
  | none => .value acc
  | some b => do return acc + (← Outcome.orFault b[c]?)

namespace FeatureMap

/-- The convolution with a filter whose elements run over the output channel, the rows and
columns of the window and the input channel. -/
def conv2d (m : FeatureMap) (filter : Array Float32) (outChannels : Nat)
    (bias : Option (Array Float32)) (w : Window) (a : Activation) : KernelOutcome FeatureMap := do
  let channels := m.hwc.channels
  let (kh, kw) := w.kernel
  let expected ← Size.product [outChannels, kh, kw, channels]
  Outcome.require (filter.size = expected) (.convFilter filter.size outChannels w.kernel channels)
  Outcome.require (bias.all fun b => b.size = outChannels) .convBias
  let (hwc, pad) ← w.place m.hwc outChannels
  tabulate m.batch hwc fun n oy ox oc => do
    let sum ← w.foldM m.hwc pad oy ox 0 fun acc (ky, kx) (iy, ix) => do
      let row ← Size.add (← Size.mul oc kh) ky
      let place ← Size.mul (← Size.add (← Size.mul row kw) kx) channels
      let weights ← part filter place channels
      return addProducts acc (← m.pixel n iy ix) weights
    return a.apply (← addBias sum bias oc)

/-- The convolution of every channel with its own filter; the elements of the filter run
over the rows and columns of the window and the channel. -/
def depthwiseConv2d (m : FeatureMap) (filter : Array Float32) (bias : Option (Array Float32))
    (w : Window) (a : Activation) : KernelOutcome FeatureMap := do
  let channels := m.hwc.channels
  let (kh, kw) := w.kernel
  let expected ← Size.product [kh, kw, channels]
  Outcome.require (filter.size = expected) (.depthwiseFilter filter.size w.kernel channels)
  Outcome.require (bias.all fun b => b.size = channels) .depthwiseBias
  let (hwc, pad) ← w.place m.hwc channels
  tabulate m.batch hwc fun n oy ox c => do
    let sum ← w.foldM m.hwc pad oy ox 0 fun acc (ky, kx) (iy, ix) => do
      let place ← Size.mul (← Size.add (← Size.mul ky kw) kx) channels
      let weight ← Outcome.orFault filter[← Size.add place c]?
      return acc + (← m.at n iy ix c) * weight
    return a.apply (← addBias sum bias c)

/-- Negative infinity, the maximum of nothing. -/
def noMaximum : Float32 := -1 / 0

/-- The largest element under the window, per channel. -/
def maxPool2d (m : FeatureMap) (w : Window) : KernelOutcome FeatureMap := do
  let (hwc, pad) ← w.place m.hwc m.hwc.channels
  tabulate m.batch hwc fun n oy ox c =>
    w.foldM m.hwc pad oy ox noMaximum fun best _ (iy, ix) => do
      return Scalar.max best (← m.at n iy ix c)

end FeatureMap

/-- The elements of a kernel that run over rows, columns, input and output channels, in the
order of a filter: output channel, rows, columns, input channel. -/
def hwioToOhwi {α : Type} (kernel : Array α) (dims : Nat × Nat × Nat × Nat) :
    KernelOutcome (Array α) := do
  let (kh, kw, ci, co) := dims
  let expected ← Size.product [kh, kw, ci, co]
  Outcome.require (kernel.size = expected) (.kernelLength kernel.size [kh, kw, ci, co])
  let elements ← (List.range kernel.size).mapM fun place => do
    let i := place % ci
    let x := place / ci % kw
    let y := place / ci / kw % kh
    let o := place / ci / kw / kh
    Outcome.orFault kernel[((y * kw + x) * ci + i) * co + o]?
  return elements.toArray

end FlatNet
