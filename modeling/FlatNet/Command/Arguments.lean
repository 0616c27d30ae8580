import FlatNet.Command.Values

/-!
Arguments of a command line.

Words are read from left to right.  An option starts with two dashes and is given at most once;
its value is the next word, or is joined to it by an equals sign.  A value that stands by itself
must not look like an option.  After two dashes alone everything is an operand.

An option or an operand is looked at only when the next one begins or the words end.  So a
question for help that comes before is answered, and one that comes after a fault is not.

* `Signature`: what a command accepts;
* `Arguments`: what was given;
* `Reading`, `Signature.step`: what has been read, and the reading of a further word;
* `Signature.scan`: the arguments in a list of words;
* `Signature.leading`: the reading of the words before the name of a command.
-/

namespace FlatNet.Command

/-- How a command line ends before anything is done. -/
inductive Interrupt where
  /-- The arguments are refused. -/
  | usage
  /-- Help is asked for. -/
  | help
  /-- The version is asked for. -/
  | version
  deriving DecidableEq, Repr

/-- Whether an option has a value. -/
inductive OptionKind where
  /-- It has one of a kind. -/
  | valued (kind : ValueKind)
  /-- It has none. -/
  | switch
  deriving DecidableEq, Repr

/-- What a command accepts. -/
structure Signature where
  /-- The options by their names. -/
  options : List (String × OptionKind)
  /-- The operands. -/
  operands : List ValueKind
  /-- Whether the version may be asked for. -/
  hasVersion : Bool

/-- What was given. -/
structure Arguments where
  /-- The options with their values; a switch has the empty one. -/
  options : List (String × String)
  /-- The operands. -/
  operands : List String
  deriving Repr, Inhabited

namespace Arguments

/-- Nothing given. -/
def none : Arguments := ⟨[], []⟩

/-- The value of an option. -/
def value? (a : Arguments) (name : String) : Option String := a.options.lookup name

/-- Whether an option was given. -/
def has (a : Arguments) (name : String) : Bool := (a.value? name).isSome

/-- Add an option that was not given before. -/
def addOption (a : Arguments) (name value : String) : Except Interrupt Arguments :=
  if a.has name then .error .usage
  else .ok { a with options := a.options ++ [(name, value)] }

/-- Add an operand. -/
def addOperand (a : Arguments) (value : String) : Arguments :=
  { a with operands := a.operands ++ [value] }

end Arguments

/-! ### Words -/

/-- A word of a command line. -/
inductive Word where
  /-- Two dashes alone. -/
  | separator
  /-- An option, with the value joined to it. -/
  | option (name : String) (value : Option String)
  /-- A dash and a letter. -/
  | short (letter : Char)
  /-- Anything else. -/
  | plain (s : String)
  deriving DecidableEq, Repr

/-- The kind of a word. -/
def Word.ofText (s : String) : Word :=
  match s.toList with
  | ['-', '-'] => separator
  | '-' :: '-' :: rest =>
    let name := String.ofList (rest.takeWhile (· ≠ '='))
    match rest.dropWhile (· ≠ '=') with
    | _ :: value => option name (some (String.ofList value))
    | [] => option name none
  | '-' :: letter :: _ => short letter
  | _ => plain s

/-! ### Readings -/

/-- What has begun and is not settled yet. -/
inductive Waiting where
  /-- Nothing. -/
  | nothing
  /-- An option without its value. -/
  | option (name : String) (kind : ValueKind)
  /-- An option and its value. -/
  | valued (name : String) (kind : ValueKind) (value : String)
  /-- An operand. -/
  | operand (kind : ValueKind) (value : String)
  deriving DecidableEq, Repr

/-- What has been read of a command line. -/
structure Reading where
  /-- What is settled. -/
  settled : Arguments
  /-- What is not settled yet. -/
  waiting : Waiting
  /-- Whether every further word is an operand. -/
  operandsOnly : Bool

namespace Reading

/-- Nothing read. -/
def start : Reading := ⟨.none, .nothing, false⟩

/-- Whether the next word has to be a value. -/
def lacksValue (r : Reading) : Bool :=
  match r.waiting with
  | .option _ _ => true
  | _ => false

/-- The number of operands. -/
def operandCount (r : Reading) : Nat :=
  match r.waiting with
  | .operand _ _ => r.settled.operands.length + 1
  | _ => r.settled.operands.length

/-- What is given once nothing waits any more. -/
def settle (r : Reading) : Except Interrupt Arguments :=
  match r.waiting with
  | .nothing => .ok r.settled
  | .option _ _ => .error .usage
  | .valued name kind value =>
    if kind.accepts value then r.settled.addOption name value else .error .usage
  | .operand kind value =>
    if kind.accepts value then .ok (r.settled.addOperand value) else .error .usage

/-- Settle what waits and let something else wait. -/
def begin (r : Reading) (w : Waiting) : Except Interrupt Reading := do
  return { r with settled := ← r.settle, waiting := w }

/-- Settle what waits and end. -/
def interrupt (r : Reading) (e : Interrupt) : Except Interrupt Reading := do
  let _ ← r.settle
  .error e

end Reading

namespace Signature

/-- Read an operand. -/
def stepOperand (sig : Signature) (r : Reading) (s : String) : Except Interrupt Reading :=
  match sig.operands[r.operandCount]? with
  | some kind => r.begin (.operand kind s)
  | none => .error .usage

/-- Read an option, with the value joined to it. -/
def stepOption (sig : Signature) (r : Reading) (name : String) (value : Option String) :
    Except Interrupt Reading :=
  match sig.options.lookup name, value with
  | some (.valued kind), none => r.begin (.option name kind)
  | some (.valued kind), some v => do (← r.begin (.valued name kind v)).begin .nothing
  | some .switch, none => do
    let r ← r.begin .nothing
    return { r with settled := ← r.settled.addOption name "" }
  | none, none =>
    if name = "help" then r.interrupt .help
    else if name = "version" ∧ sig.hasVersion then r.interrupt .version
    else .error .usage
  | _, some _ => .error .usage

/-- Read a dash and a letter. -/
def stepShort (sig : Signature) (r : Reading) (letter : Char) : Except Interrupt Reading :=
  if letter = 'h' then r.interrupt .help
  else if letter = 'V' ∧ sig.hasVersion then r.interrupt .version
  else .error .usage

/-- Read a word. -/
def step (sig : Signature) (r : Reading) (s : String) : Except Interrupt Reading :=
  if r.operandsOnly then sig.stepOperand r s
  else
    match Word.ofText s, r.waiting with
    | .plain v, .option name kind => .ok { r with waiting := .valued name kind v }
    | _, .option _ _ => .error .usage
    | .plain v, _ => sig.stepOperand r v
    | .separator, _ => .ok { r with operandsOnly := true }
    | .option name value, _ => sig.stepOption r name value
    | .short letter, _ => sig.stepShort r letter

/-- The arguments in words. -/
def scan (sig : Signature) (words : List String) : Except Interrupt Arguments := do
  (← words.foldlM sig.step .start).settle

/-- The reading of the words before the first of some names, that name, and the words after it.
A value is no name, and neither is an operand after two dashes. -/
def leadingFrom (sig : Signature) (names : List String) (r : Reading) :
    List String → Except Interrupt (Reading × String × List String)
  | [] => .error .usage
  | s :: rest =>
    if !r.operandsOnly && !r.lacksValue && names.contains s then .ok (r, s, rest)
    else do sig.leadingFrom names (← sig.step r s) rest

/-- The reading of the words before the first of some names, that name, and the words after it. -/
def leading (sig : Signature) (names : List String) (words : List String) :
    Except Interrupt (Reading × String × List String) :=
  sig.leadingFrom names .start words

end Signature

end FlatNet.Command
