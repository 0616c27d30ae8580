import FlatNet.Artifact.Save
import FlatNet.Files.Alias
import FlatNet.Flat.Quantize
import FlatNet.Toml.Document

/-!
Settings of the pipeline.

Settings are read from the table `pipeline` of a TOML text; those that are missing keep their
defaults.  The three paths must be there and name three different files.

* `PipelineConfig`, `PipelineConfig.standard`: settings and their defaults;
* `PipelineConfig.ofToml?`: the settings of a text;
* `Host.checkConfig`: the check of settings;
* `ConfigError`, `Host.loadConfig`: the settings of a file.
-/

namespace FlatNet

/-- The settings of a run. -/
structure PipelineConfig where
  /-- The checkpoint. -/
  input : Path
  /-- Where the intermediate file is written. -/
  intermediate : Path
  /-- Where the flat model is written. -/
  output : Path
  /-- The size that images are resized to where a layer does not say. -/
  resizeSize : Nat
  /-- What to do with an output that is there already. -/
  overwrite : OverwritePolicy
  /-- Which parameters are quantized. -/
  quantize : Quantize
  /-- Whether the intermediate file stays when a later stage fails. -/
  keepOnFailure : Bool
  deriving DecidableEq, Repr

namespace PipelineConfig

/-- The settings unless told otherwise. -/
def standard : PipelineConfig where
  input := ⟨"models/slim-net-157-0.02.ckpt"⟩
  intermediate := ⟨"slim-net.intermediate"⟩
  output := ⟨"models/slim-net.lpfb"⟩
  resizeSize := 157
  overwrite := .fail
  quantize := .none
  keepOnFailure := true

/-! ### Reading -/

/-- A path. -/
def pathOf? : Toml.Value → Option Path
  | .text s => some ⟨s⟩
  | _ => none

/-- A size. -/
def sizeOf? : Toml.Value → Option Nat
  | .number (.integer n) => if 0 ≤ n then some n.toNat else none
  | _ => none

/-- A truth value. -/
def flagOf? : Toml.Value → Option Bool
  | .flag b => some b
  | _ => none

/-- Whether a value is a table or an array without contents. -/
def isVoid : Toml.Value → Bool
  | .table [] => true
  | .array [] => true
  | _ => false

/-- The name of a choice: a string, or the only key of a table, which says nothing more. -/
def nameOf? : Toml.Value → Option String
  | .text s => some s
  | .table [(key, v)] => if isVoid v then some key else none
  | _ => none

/-- A setting that keeps its value if nothing is said about it. -/
def setting {α : Type} (read : Toml.Value → Option α) (start : α) : Option Toml.Value → Option α
  | none => some start
  | some v => read v

/-- The settings, from what is said about each by its name. -/
def ofSettings? (said : String → Option Toml.Value) : Option PipelineConfig := do
  return {
    input := ← setting pathOf? standard.input (said "input")
    intermediate := ← setting pathOf? standard.intermediate (said "intermediate")
    output := ← setting pathOf? standard.output (said "output")
    resizeSize := ← setting sizeOf? standard.resizeSize (said "resize_size")
    overwrite := ← setting (fun v => (nameOf? v).bind OverwritePolicy.ofName?)
      standard.overwrite (said "overwrite")
    quantize := ← setting (fun v => (nameOf? v).bind Quantize.ofName?)
      standard.quantize (said "quantize")
    keepOnFailure := ← setting flagOf? standard.keepOnFailure
      (said "keep_intermediate_on_failure") }

/-- The names of the settings, in the order of their values in an array. -/
def settingNames : List String :=
  ["input", "intermediate", "output", "resize_size", "overwrite", "quantize",
    "keep_intermediate_on_failure"]

/-- The settings of a value: a table of named values, or an array of values in order.  A date
says nothing. -/
def ofValue? : Toml.Value → Option PipelineConfig
  | .table members => ofSettings? fun name => members.lookup name
  | .array items => ofSettings? fun name => (settingNames.zip items).lookup name
  | .moment => some standard
  | _ => none

/-- The settings of a TOML text. -/
def ofToml? (s : String) : Option PipelineConfig := do
  match (← Toml.parse? s).lookup "pipeline" with
  | some v => ofValue? v
  | none => some standard

end PipelineConfig

/-! ### Checking -/

/-- What a path is for. -/
inductive PathRole where
  /-- The checkpoint. -/
  | input
  /-- The intermediate file. -/
  | intermediate
  /-- The flat model. -/
  | output
  deriving DecidableEq, Repr

/-- The name of a role. -/
def PathRole.name : PathRole → String
  | input => "input"
  | intermediate => "intermediate"
  | output => "output"

/-- What is wrong with settings. -/
inductive SettingsFault where
  /-- A path is empty. -/
  | emptyPath (role : PathRole)
  /-- Two paths name one file. -/
  | samePath (first second : PathRole) (path : Path)
  /-- The size is zero. -/
  | zeroSize
  deriving DecidableEq, Repr

/-- The wording of a fault. -/
def SettingsFault.message : SettingsFault → String
  | emptyPath role => s!"{role.name} path is empty"
  | samePath first second path =>
    s!"{first.name} and {second.name} are the same path ({path.text})"
  | zeroSize => "resize_size must be greater than zero"

namespace PipelineConfig

/-- The paths by their roles. -/
def paths (c : PipelineConfig) : List (PathRole × Path) :=
  [(.input, c.input), (.intermediate, c.intermediate), (.output, c.output)]

/-- The first pair of paths that have one place. -/
def samePath? : List (PathRole × Path × Place) → Option SettingsFault
  | [] => none
  | (first, path, place) :: rest =>
    match rest.find? fun other => other.2.2 = place with
    | some (second, _, _) => some (.samePath first second path)
    | none => samePath? rest

end PipelineConfig

/-- Check settings. -/
def Host.checkConfig {m : Type → Type} [Monad m] (h : Host m) (c : PipelineConfig) :
    Action m SettingsFault Unit := do
  match c.paths.find? (·.2.isEmpty) with
  | some (role, _) => .refuse (.emptyPath role)
  | none =>
    let places ← Action.lift (c.paths.mapM fun p => do return (p.1, p.2, ← h.place p.2))
    match PipelineConfig.samePath? places with
    | some fault => .refuse fault
    | none => if c.resizeSize = 0 then .refuse .zeroSize else return

/-! ### Files -/

/-- Why there are no settings. -/
inductive ConfigError where
  /-- The file is not read. -/
  | io (path : Path) (e : IoError)
  /-- The text is refused. -/
  | toml
  /-- The settings are refused. -/
  | invalid (fault : SettingsFault)
  deriving DecidableEq, Repr

namespace ConfigError

/-- The wording of an error. -/
def message : ConfigError → String
  | io path _ => s!"failed to read config {path.text}"
  | toml => "invalid config TOML"
  | invalid fault => s!"invalid pipeline config: {fault.message}"

/-- The wording of an error, followed by the wording of its cause. -/
def chain : ConfigError → List String
  | io path e => [(io path e).message, e.message]
  | e => [e.message]

end ConfigError

/-- The settings of the bytes of a file. -/
def PipelineConfig.ofBytes (path : Path) (bs : Bytes) : Except ConfigError PipelineConfig :=
  match Bytes.text? bs with
  | none => .error (.io path .invalidData)
  | some s =>
    match ofToml? s with
    | some c => .ok c
    | none => .error .toml

/-- The settings of a file. -/
def Host.loadConfig {m : Type → Type} [Monad m] (h : Host m) (path : Path) :
    Action m ConfigError PipelineConfig := do
  let bs ← .attempt (.io path) (h.read path)
  .ofOutcome (.ofExcept (PipelineConfig.ofBytes path bs))

end FlatNet
