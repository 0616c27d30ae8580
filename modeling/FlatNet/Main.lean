import FlatNet.Command.Run

/-!
The program: the command line on the files of the machine.

* `Machine.host`: the machine as a host;
* `main`: the program.
-/

namespace FlatNet.Machine

/-- The error of an operation on files. -/
def ioErrorOf (e : IO.Error) : IoError :=
  match e with
  | .noFileOrDirectory _ code _ => .ofCode code.toNat
  | .alreadyExists _ code _ => .ofCode code.toNat
  | .inappropriateType _ code _ => .ofCode code.toNat
  | .invalidArgument _ code _ => .ofCode code.toNat
  | .permissionDenied _ code _ => .ofCode code.toNat
  | .resourceExhausted _ code _ => .ofCode code.toNat
  | .resourceBusy code _ => .ofCode code.toNat
  | .noSuchThing _ code _ => .ofCode code.toNat
  | .unsatisfiedConstraints code _ => .ofCode code.toNat
  | .illegalOperation code _ => .ofCode code.toNat
  | .otherError code _ => .ofCode code.toNat
  | _ => .other 0

/-- An operation on files with its error. -/
def attemptIo {α : Type} (act : IO α) : IO (Except IoError α) := do
  try
    return .ok (← act)
  catch e =>
    return .error (ioErrorOf e)

/-- The text of a place. -/
def placeText (place : Place) : String := (Path.ofSteps place.steps).text

/-- The place of the text of an absolute path without links. -/
def placeOf (text : String) : Place := Place.walk [] (Path.mk text).moves

/-- The current directory. -/
def currentPlace : IO Place := do
  return placeOf (← IO.currentDir).toString

/-- The place that an existing path leads to. -/
def realPlace (text : String) : IO Place := do
  return placeOf (← IO.FS.realPath text).toString

/-- Write a file with a new name into the directory of a path. -/
def stageFile (p : Path) (bytes : Bytes) : IO Place := do
  let folder ← realPlace p.folder.text
  let staged := folder ++ [s!".tmp{← IO.monoNanosNow}"]
  let handle ← IO.FS.Handle.mk (placeText staged) .writeNew
  handle.write ⟨bytes.toArray⟩
  handle.flush
  return staged

/-- The machine as a host. -/
def host : Host IO where
  read p := attemptIo do return (← IO.FS.readBinFile p.text).data.toList
  write p bytes := attemptIo (IO.FS.writeBinFile p.text ⟨bytes.toArray⟩)
  remove p := attemptIo (IO.FS.removeFile p.text)
  holds p := do return (← attemptIo (IO.FS.realPath p.text)).isOk
  stage p bytes := attemptIo (stageFile p bytes)
  replace staged p := attemptIo (IO.FS.rename (placeText staged) p.text)
  add staged p := attemptIo do
    IO.FS.hardLink (placeText staged) p.text
    IO.FS.removeFile (placeText staged)
  discard staged := do
    let _ ← attemptIo (IO.FS.removeFile (placeText staged))
    return
  current := currentPlace
  canonical steps := attemptIo (realPlace (Path.ofSteps steps).text)
  clock := do return (← IO.monoNanosNow) / 1000

end FlatNet.Machine

/-- Do what the command line asks for. -/
def main (words : List String) : IO UInt32 := do
  let ending ← FlatNet.Machine.host.runCommand words
  IO.print ending.output
  IO.eprint ending.errorText
  return ending.code.toUInt32
