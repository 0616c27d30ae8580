import FlatNet.Encoding
import FlatNet.Graph.Model

/-!
Containers of layered models.

A container is what a checkpoint or an intermediate file holds: the graph, its parameters
and, in a checkpoint, the training state.  Parameters and optimizer slots share one table;
the names of slots start with a reserved word.

* `Container`: graph, training configuration and tensors;
* `TrainingState`: what a checkpoint holds beside the model;
* `Container.ofModel`, `Container.ofTraining`, `Container.model`: containers of models, and
  back.
-/

namespace FlatNet

/-- What training leaves behind beside the model. -/
structure TrainingState where
  /-- The configuration of the training. -/
  config : Json
  /-- The slots of the optimizer by name. -/
  slots : Table Tensor

/-- The contents of a checkpoint or an intermediate file. -/
structure Container where
  /-- The encoding it claims. -/
  encoding : Encoding
  /-- The graph. -/
  architecture : Architecture
  /-- The configuration of the training. -/
  training : Option Json
  /-- Parameters and slots. -/
  tensors : Table Tensor

namespace Container

/-- The start of the name of a slot. -/
def slotMark : String := "optimizer/"

/-- Whether a tensor is a slot of the optimizer. -/
def isSlot (name : String) : Bool := slotMark.toList.isPrefixOf name.toList

/-- The intermediate form of a model. -/
def ofModel (m : Model) : Container := ⟨.intermediate, m.architecture, none, m.weights⟩

/-- The checkpoint of a model and a training state; a slot replaces a parameter of the same
name. -/
def ofTraining (m : Model) (t : TrainingState) : Container where
  encoding := .checkpoint
  architecture := m.architecture
  training := some t.config
  tensors := t.slots.entries.foldl (fun tensors p => tensors.insert (slotMark ++ p.1) p.2) m.weights

/-- The model of a container, all its tensors taken as parameters. -/
def model (c : Container) : Model := ⟨c.architecture, c.tensors⟩

end Container

end FlatNet
