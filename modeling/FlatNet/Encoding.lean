import FlatNet.Bytes

/-!
The encodings of models.

* `Encoding`: the encodings, with their names;
* `flatMagic`: the first bytes of every model in the flat encoding.
-/

namespace FlatNet

/-- An encoding of models. -/
inductive Encoding where
  /-- A trained model with its training state. -/
  | checkpoint
  /-- A model without training state. -/
  | intermediate
  /-- A model lowered to operators. -/
  | flat
  deriving DecidableEq, Repr, Inhabited

namespace Encoding

/-- The name of an encoding. -/
def name : Encoding → String
  | checkpoint => "checkpoint"
  | intermediate => "intermediate"
  | flat => "flat"

/-- The encoding of a name. -/
def ofName? (s : String) : Option Encoding :=
  if s = "checkpoint" then some checkpoint
  else if s = "intermediate" then some intermediate
  else if s = "flat" then some flat
  else none

end Encoding

/-- The first bytes of a flat model. -/
def flatMagic : Bytes := [0x4c, 0x50, 0x46, 0x42]

end FlatNet
