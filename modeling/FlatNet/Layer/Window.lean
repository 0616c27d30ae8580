import FlatNet.Size

/-!
Sliding windows along one axis and over an image.

* `Hwc`: the height, width and channels of an image;
* `Padding.outputLen`, `Padding.padBefore`: the geometry of a window along one axis;
* `Window`: a window over an image, `Window.source`: the input position under a window
  element.
-/

namespace FlatNet

/-- The shape of an image, its batch dimension apart. -/
structure Hwc where
  /-- The number of rows. -/
  height : Nat
  /-- The number of columns. -/
  width : Nat
  /-- The number of channels. -/
  channels : Nat
  deriving DecidableEq, Repr, Inhabited

/-- A description of the shape with its field names. -/
def Hwc.text (s : Hwc) : String :=
  s!"Hwc \x7b height: {s.height}, width: {s.width}, channels: {s.channels} \x7d"

/-! ### One axis -/

/-- How a window treats the border. -/
inductive Padding where
  /-- The window stays inside the input. -/
  | valid
  /-- The input is extended by zeros, so that a unit stride keeps its length. -/
  | same
  deriving DecidableEq, Repr, Inhabited

namespace Padding

variable {ε : Type}

/-- The name of a padding. -/
def name : Padding → String
  | valid => "valid"
  | same => "same"

/-- The padding of a name. -/
def ofName? (s : String) : Option Padding :=
  if s = "valid" then some valid else if s = "same" then some same else none

/-- The number of window positions along an axis; `none` if the window does not fit. -/
def outputLen (p : Padding) (input kernel stride : Nat) : Outcome ε (Option Nat) :=
  match p with
  | same => do return some (← Size.divCeil input stride)
  | valid =>
    if input < kernel then .value none
    else do return some (← Size.add (← Size.div (input - kernel) stride) 1)

/-- The zeros in front of the first element.  The odd one of an uneven total goes behind the
last element. -/
def padBefore (p : Padding) (input kernel stride : Nat) : Outcome ε Nat :=
  match p with
  | valid => .value 0
  | same => do
    let out ← Size.divCeil input stride
    let reach ← Size.add (← Size.mul (out - 1) stride) kernel
    return (reach - input) / 2

end Padding

/-! ### Images -/

/-- A window over an image. -/
structure Window where
  /-- The height and width of the window. -/
  kernel : Nat × Nat
  /-- The steps between positions, down and across. -/
  strides : Nat × Nat
  /-- The treatment of the border. -/
  padding : Padding
  deriving DecidableEq, Repr, Inhabited

namespace Window

/-- Whether a side of the window or a step is zero. -/
def degenerate (w : Window) : Bool :=
  w.kernel.1 = 0 || w.kernel.2 = 0 || w.strides.1 = 0 || w.strides.2 = 0

/-- The input coordinate under an element of the window at an output position; `none` in the
padding. -/
def source {ε : Type} (out k stride pad len : Nat) : Outcome ε (Option Nat) := do
  let reach ← Size.add (← Size.mul out stride) k
  if pad ≤ reach ∧ reach - pad < len then return some (reach - pad) else return none

end Window

/-- A pair of sizes in brackets. -/
def describePair (p : Nat × Nat) : String := s!"[{p.1}, {p.2}]"

end FlatNet
