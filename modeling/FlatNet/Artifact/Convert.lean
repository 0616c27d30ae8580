import FlatNet.Artifact.Load
import FlatNet.Flat.Lowering

/-!
Conversion of files.

* `ConversionError`: why a file is not converted;
* `Model.lowerFile`: the flat file of the bytes of an intermediate file;
* `Host.convertFile`: the flat file of an intermediate file.
-/

namespace FlatNet

/-- Why a file is not converted. -/
inductive ConversionError where
  /-- The file is not loaded. -/
  | input (e : LoadError)
  /-- The file is no intermediate one. -/
  | unexpectedEncoding (path : Path) (found : Encoding)
  /-- The model is not lowered. -/
  | lowering (e : LoweringError)
  deriving DecidableEq, Repr

namespace ConversionError

/-- The wording of an error. -/
def message : ConversionError → String
  | input _ => "failed to read conversion input"
  | unexpectedEncoding path found =>
    s!"converter only accepts {Encoding.intermediate.name} files, {path.text} is {found.name}"
  | lowering e => e.message

/-- The wording of an error, followed by the wording of its causes. -/
def chain : ConversionError → List String
  | input e => (input e).message :: e.chain
  | lowering (.invalidGraph e) => [(lowering (.invalidGraph e)).message, e.message]
  | e => [e.message]

/-- The error of a file that is not loaded. -/
def ofLoad (path : Path) : LoadError → ConversionError
  | .unresolvedOperation _ layer function => lowering (.unresolvedOperation layer function)
  | .wrongEncoding _ _ found => unexpectedEncoding path found
  | e => input e

end ConversionError

/-- The flat file of the bytes of an intermediate file. -/
def Model.lowerFile (path : Path) (ops : CustomOps) (options : ConverterOptions) (bs : Bytes) :
    Outcome ConversionError Bytes := do
  let (m, encoding) ← (Model.open path ops bs).mapError (.ofLoad path)
  Outcome.require (encoding = .intermediate) (.unexpectedEncoding path encoding)
  return (← (m.lower ops options).mapError .lowering).encode

/-- The flat file of an intermediate file. -/
def Host.convertFile {m : Type → Type} [Monad m] (h : Host m) (path : Path) (ops : CustomOps)
    (options : ConverterOptions) : Action m ConversionError Bytes := do
  let bs ← (h.readFile path).mapError (.ofLoad path)
  .ofOutcome (Model.lowerFile path ops options bs)

end FlatNet
