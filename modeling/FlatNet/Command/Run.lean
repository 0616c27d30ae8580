import FlatNet.Artifact.Verify
import FlatNet.Command.Arguments
import FlatNet.Command.LogFilter
import FlatNet.Command.Values
import FlatNet.Decimal
import FlatNet.Flat.Description
import FlatNet.Pipeline.Run

/-!
The command line of the program.

Three commands convert a checkpoint, describe a flat model, and compare a checkpoint with a
flat model.

* `Command`, `Command.ofWords`: the commands, and the one that words ask for;
* `CommandError`: why a command fails;
* `Host.execute`: what a command does;
* `Host.runCommand`: the ending of the program.
-/

namespace FlatNet

/-! ### Commands -/

/-- What to convert, and how; what is not said is taken from the settings. -/
structure ConvertOptions where
  /-- A file of settings. -/
  config : Option Path
  /-- The checkpoint. -/
  input : Option Path
  /-- Where the intermediate file is written. -/
  intermediate : Option Path
  /-- Where the flat model is written. -/
  output : Option Path
  /-- The size that images are resized to where a layer does not say. -/
  resizeSize : Option Nat
  /-- Which parameters are quantized. -/
  quantize : Option Quantize
  /-- Whether an output that is there already is replaced. -/
  force : Bool
  /-- Whether the intermediate file stays when a later stage fails. -/
  keepOnFailure : Option Bool
  deriving DecidableEq, Repr

/-- What to compare, and how. -/
structure VerifyOptions where
  /-- The checkpoint. -/
  checkpoint : Path
  /-- The flat model. -/
  flat : Path
  /-- The number of probes. -/
  samples : Nat
  /-- The largest difference that is accepted. -/
  tolerance : Binary32
  /-- The size that images are resized to where a layer does not say. -/
  resizeSize : Option Nat
  deriving DecidableEq, Repr

/-- A command. -/
inductive Command where
  /-- Convert a checkpoint. -/
  | convert (o : ConvertOptions)
  /-- Describe a flat model. -/
  | inspect (path : Path)
  /-- Compare a checkpoint with a flat model. -/
  | verify (o : VerifyOptions)
  deriving DecidableEq, Repr

namespace Command

/-- The option that every command has: a filter of log lines. -/
def logOption : String × OptionKind := ("log", .valued .text)

/-- What stands before the name of a command. -/
def programSignature : Signature := ⟨[logOption], [], true⟩

/-- The arguments of a conversion. -/
def convertSignature : Signature where
  options := [logOption, ("config", .valued .path), ("input", .valued .path),
    ("intermediate", .valued .path), ("output", .valued .path), ("resize-size", .valued .size),
    ("quantize", .valued .quantize), ("force", .switch),
    ("keep-intermediate-on-failure", .valued .flag)]
  operands := []
  hasVersion := false

/-- The arguments of a description. -/
def inspectSignature : Signature := ⟨[logOption], [.path], false⟩

/-- The arguments of a comparison. -/
def verifySignature : Signature where
  options := [logOption, ("checkpoint", .valued .path), ("flat", .valued .path),
    ("samples", .valued .size), ("tolerance", .valued .single), ("resize-size", .valued .size)]
  operands := []
  hasVersion := false

/-- The number of probes unless told otherwise. -/
def defaultSamples : Nat := 8

/-- The value of an option that may be missing. -/
def optional {α : Type} (read : String → Option α) (a : Arguments) (name : String) :
    Except Interrupt (Option α) :=
  match a.value? name with
  | none => .ok none
  | some s =>
    match read s with
    | some v => .ok (some v)
    | none => .error .usage

/-- The value of an option that must be there. -/
def required {α : Type} (read : String → Option α) (a : Arguments) (name : String) :
    Except Interrupt α := do
  match ← optional read a name with
  | some v => return v
  | none => .error .usage

/-- The conversion that arguments ask for. -/
def convertOf (a : Arguments) : Except Interrupt Command := do
  return .convert {
    config := ← optional path? a "config"
    input := ← optional path? a "input"
    intermediate := ← optional path? a "intermediate"
    output := ← optional path? a "output"
    resizeSize := ← optional size? a "resize-size"
    quantize := ← optional Quantize.ofName? a "quantize"
    force := a.has "force"
    keepOnFailure := ← optional flag? a "keep-intermediate-on-failure" }

/-- The description that arguments ask for. -/
def inspectOf (a : Arguments) : Except Interrupt Command :=
  match a.operands.mapM path? with
  | some [path] => .ok (.inspect path)
  | _ => .error .usage

/-- The comparison that arguments ask for. -/
def verifyOf (a : Arguments) : Except Interrupt Command := do
  return .verify {
    checkpoint := ← required path? a "checkpoint"
    flat := ← required path? a "flat"
    samples := (← optional size? a "samples").getD defaultSamples
    tolerance := (← optional single? a "tolerance").getD defaultTolerance
    resizeSize := ← optional size? a "resize-size" }

/-- The filter of log lines unless told otherwise. -/
def defaultLog : String := "info"

/-- The names that words may start with: those of the commands, and the one of help. -/
def names : List String := ["convert", "inspect", "verify", "help"]

/-- The ending of a question for help, for the words after it: at most the name of a command. -/
def helpEnding : List String → Interrupt
  | [] => .help
  | [name] => if names.contains name then .help else .usage
  | _ => .usage

/-- The command that words ask for, and its filter of log lines.  A filter after the name of
the command wins.  The words after the name are read before those in front of it are settled. -/
def ofWords (words : List String) : Except Interrupt (String × Command) := do
  let (before, name, rest) ← programSignature.leading names words
  let finish (sig : Signature) (read : Arguments → Except Interrupt Command) :
      Except Interrupt (String × Command) := do
    let a ← sig.scan rest
    let command ← read a
    let general ← before.settle
    return ((a.value? "log").getD ((general.value? "log").getD defaultLog), command)
  match name with
  | "convert" => finish convertSignature convertOf
  | "inspect" => finish inspectSignature inspectOf
  | "verify" => finish verifySignature verifyOf
  | _ => .error (helpEnding rest)

end Command

/-! ### Failures -/

/-- Why a command fails. -/
inductive CommandError where
  /-- The filter of log lines is refused. -/
  | logFilter (s : String)
  /-- A file of settings is refused. -/
  | config (path : Path) (e : ConfigError)
  /-- The settings are refused. -/
  | settings (fault : SettingsFault)
  /-- The run fails. -/
  | pipeline (e : PipelineError)
  /-- The flat model is not read. -/
  | read (path : Path) (e : IoError)
  /-- The flat model is refused. -/
  | parse (path : Path) (e : FormatError)
  /-- The comparison is refused. -/
  | verify (e : VerifyError)
  /-- A difference is too large. -/
  | deviation
  deriving DecidableEq, Repr

/-- The wording of an error, followed by the wording of its causes. -/
def CommandError.chain : CommandError → List String
  | logFilter s => [s!"invalid log filter `{s}`"]
  | config path e => s!"loading config {path.text}" :: e.chain
  | settings fault => (ConfigError.invalid fault).chain
  | pipeline e => "conversion failed" :: e.chain
  | read path e => [s!"reading {path.text}", e.message]
  | parse path e => [s!"parsing {path.text}", e.message]
  | verify e => e.chain
  | deviation => ["converted model deviates from the checkpoint beyond tolerance"]

/-! ### Reports -/

/-- A time in milliseconds with one place. -/
def millisecondText (microseconds : Nat) : String :=
  let tenths := (microseconds + 50) / 100
  s!"{tenths / 10}.{tenths % 10}"

/-- The line of a run. -/
def PipelineReport.line (r : PipelineReport) : String :=
  s!"wrote {r.output.text} ({r.outputBytes} bytes) from model {r.model}"
    ++ s!" in {millisecondText r.elapsed} ms\n"

/-- The line of a tensor. -/
def FlatTensor.line (i : Nat) (t : FlatTensor) : String :=
  let quantization :=
    match t.quantization with
    | some q => s!" scale={q.scale.text .plain} zero_point={q.zeroPoint}"
    | none => ""
  s!"  [{padLeft 3 (toString i)}] {padRight 32 t.name} {padRight 4 t.dtype.name} "
    ++ s!"{t.shape.text} buffer={t.buffer}{quantization}\n"

/-- The lines of a flat model and its tensors. -/
def FlatModel.report (m : FlatModel) : String :=
  m.text ++ "  tensors:\n" ++ String.join (m.tensors.zipIdx.map fun p => p.1.line p.2)

/-- The line of a comparison. -/
def Fidelity.line (f : Fidelity) : String :=
  let largest := (Binary32.ofFloat f.maxDifference).text .scientific
  let accepted := (Binary32.ofFloat f.tolerance).text .scientific
  s!"{f.samples} samples, max abs diff {largest} (tolerance {accepted})\n"

/-! ### Execution -/

/-- What a command has printed, and how it failed if it did. -/
structure CommandReport where
  /-- What is printed. -/
  output : String
  /-- The failure. -/
  failure : Option CommandError

/-- The settings of a conversion: those of a file, or the standard ones. -/
def ConvertOptions.apply (o : ConvertOptions) (c : PipelineConfig) : PipelineConfig where
  input := o.input.getD c.input
  intermediate := o.intermediate.getD c.intermediate
  output := o.output.getD c.output
  resizeSize := o.resizeSize.getD c.resizeSize
  overwrite := if o.force then .replace else c.overwrite
  quantize := o.quantize.getD c.quantize
  keepOnFailure := o.keepOnFailure.getD c.keepOnFailure

namespace Host

variable {m : Type → Type} [Monad m]

/-- Convert a checkpoint. -/
def executeConvert (h : Host m) (o : ConvertOptions) : Action m CommandError CommandReport := do
  let start ←
    match o.config with
    | some path => (h.loadConfig path).mapError (.config path)
    | none => pure PipelineConfig.standard
  let c := o.apply start
  (h.checkConfig c).mapError .settings
  let r ← (h.runPipeline c (.standard (some c.resizeSize))).mapError .pipeline
  return ⟨r.line, none⟩

/-- Describe a flat model. -/
def executeInspect (h : Host m) (path : Path) : Action m CommandError CommandReport := do
  let bytes ← .attempt (.read path) (h.read path)
  let model ← .ofOutcome ((FlatModel.decode bytes).mapError (.parse path))
  return ⟨model.report, none⟩

/-- Compare a checkpoint with a flat model. -/
def executeVerify (h : Host m) (o : VerifyOptions) : Action m CommandError CommandReport := do
  let f ← (h.verifyFiles o.checkpoint o.flat (.standard o.resizeSize) o.samples
    o.tolerance.value).mapError .verify
  return ⟨f.line, if f.passed then none else some .deviation⟩

/-- Execute a command. -/
def execute (h : Host m) : Command → Action m CommandError CommandReport
  | .convert o => h.executeConvert o
  | .inspect path => h.executeInspect path
  | .verify o => h.executeVerify o

end Host

/-! ### Endings -/

/-- The ending of the program. -/
structure Ending where
  /-- The exit code. -/
  code : Nat
  /-- What is printed. -/
  output : String
  /-- The wording of the error, followed by the wording of its causes. -/
  chain : List String
  deriving DecidableEq, Repr

namespace Ending

/-- The line of the version. -/
def versionLine : String := producer ++ "\n"

/-- The numbered lines of causes; a single one has no number. -/
def causeLines : List String → List String
  | [] => []
  | [cause] => ["", "Caused by:", "    " ++ cause]
  | causes => ["", "Caused by:"] ++ causes.zipIdx.map fun p => s!"    {p.2}: {p.1}"

/-- What is printed about the error. -/
def errorText (e : Ending) : String :=
  match e.chain with
  | [] => ""
  | first :: causes =>
    String.join ((s!"Error: {first}" :: causeLines causes).map (· ++ "\n"))

/-- The ending without a command. -/
def ofInterrupt : Command.Interrupt → Ending
  | .usage => ⟨2, "", []⟩
  | .help => ⟨0, "", []⟩
  | .version => ⟨0, versionLine, []⟩

/-- The ending of a command; one that breaks off has a code of its own. -/
def ofOutcome : Outcome CommandError CommandReport → Ending
  | .value ⟨output, none⟩ => ⟨0, output, []⟩
  | .value ⟨output, some e⟩ => ⟨1, output, e.chain⟩
  | .error e => ⟨1, "", e.chain⟩
  | .fault => ⟨101, "", []⟩

end Ending

/-- The ending of the program for the words of its command line. -/
def Host.runCommand {m : Type → Type} [Monad m] (h : Host m) (words : List String) : m Ending := do
  match Command.ofWords words with
  | .error e => return .ofInterrupt e
  | .ok (log, command) =>
    match LogFilter.check log with
    | .value _ => return .ofOutcome (← (h.execute command).run)
    | .error _ => return .ofOutcome (.error (.logFilter log))
    | .fault => return .ofOutcome .fault

end FlatNet
