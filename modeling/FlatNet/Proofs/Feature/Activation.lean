import FlatNet.Feature.Pointwise
import FlatNet.Feature.Window
import FlatNet.Proofs.Outcome

/-!
Activation functions fused into operations.

An operation with a fused activation function is the operation without it, followed by the
function everywhere.

* `FeatureMap.activate_linear`: the identity changes nothing;
* `FeatureMap.tabulate_activate`: a table of activated elements;
* `FeatureMap.conv2d_activate`, `FeatureMap.depthwiseConv2d_activate`: activated
  convolutions.
-/

namespace FlatNet.FeatureMap

lemma activate_linear (m : FeatureMap) : m.activate .linear = m := by
  have same : m.data.map (Activation.apply .linear) = m.data := by
    rw [show Activation.apply .linear = id from rfl, Array.map_id]
  rw [activate, same]

/-- The check of the length looks at no element. -/
lemma make_activate (batch : Nat) (hwc : Hwc) (data : Array Float32) (a : Activation) :
    make batch hwc (data.map a.apply) = do return (← make batch hwc data).activate a := by
  unfold make
  rw [Array.size_map]
  split <;> rfl

lemma tabulate_activate (batch : Nat) (hwc : Hwc) (f : Nat → Nat → Nat → Nat → KernelOutcome Float32)
    (a : Activation) :
    (tabulate batch hwc fun n y x c => do return a.apply (← f n y x c))
      = do return (← tabulate batch hwc f).activate a := by
  simp only [tabulate, bind_assoc]
  refine congrArg (reserve batch hwc >>= ·) (funext fun _ => ?_)
  rw [Outcome.mapM_map fun i =>
    f (position hwc i).1 (position hwc i).2.1 (position hwc i).2.2.1 (position hwc i).2.2.2]
  simp only [bind_assoc, pure_bind, ← List.map_toArray, make_activate]

variable (m : FeatureMap) (filter : Array Float32) (bias : Option (Array Float32)) (w : Window)
  (a : Activation)

lemma conv2d_activate (outChannels : Nat) :
    m.conv2d filter outChannels bias w a
      = do return (← m.conv2d filter outChannels bias w .linear).activate a := by
  -- the bias comes in front of the function, so that the table is one of activated elements
  simp only [conv2d, ← bind_assoc, tabulate_activate]
  simp only [activate_linear, bind_assoc, pure_bind]

lemma depthwiseConv2d_activate :
    m.depthwiseConv2d filter bias w a
      = do return (← m.depthwiseConv2d filter bias w .linear).activate a := by
  simp only [depthwiseConv2d, ← bind_assoc, tabulate_activate]
  simp only [activate_linear, bind_assoc, pure_bind]

end FlatNet.FeatureMap
