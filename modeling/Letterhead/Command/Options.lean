import Letterhead.Command.Argument
import Letterhead.Number.Integer

/-!
What a command line asks for.

Options come before the name of the action, and those of the action behind it. Arguments that
nothing asks for are an error once all others are read, so that asking for the version comes before
them.
-/

namespace Letterhead.Command

inductive ReportFormat where
  | text
  | json
deriving DecidableEq

inductive Action where
  | check (format : ReportFormat)
  | fix
  | version
deriving DecidableEq

structure Options where
  config : Option String
  path : String
  /-- How many files may be worked on at a time. -/
  jobs : Int
  verbose : Bool
  format : ReportFormat
deriving DecidableEq

namespace Options

def default : Options := ⟨none, ".", 1, false, .text⟩

/-- Sets the option of a flag to a value, which may not fit it. -/
def set? (o : Options) (flag : Flag) (value : String) : Option Options :=
  match flag with
  | .config => some { o with config := some value }
  | .path => some { o with path := value }
  | .jobs => (Number.readInt? 10 (Text.ofString value)).map fun n => { o with jobs := n }
  | .format =>
    if value = "text" then some { o with format := .text }
    else if value = "json" then some { o with format := .json }
    else none
  | _ => some o

end Options

inductive Request where
  | perform (action : Action) (o : Options)
  | showVersion
  | showHelp
  /-- The command line makes no sense. -/
  | misuse
deriving DecidableEq

/-- The options so far, and whether an argument was left over. -/
structure Progress where
  options : Options
  leftOver : Bool

namespace Progress

def start : Progress := ⟨.default, false⟩

/-- Raises a flag that takes no value; some end the reading. -/
def raise (p : Progress) (flag : Flag) : Except Request Progress :=
  match flag with
  | .help => .error .showHelp
  | .version => .error .showVersion
  | .verbose => .ok { p with options := { p.options with verbose := true } }
  | _ => .ok p

def set (p : Progress) (flag : Flag) (value : String) : Except Request Progress :=
  match p.options.set? flag value with
  | some o => .ok { p with options := o }
  | none => .error .misuse

end Progress

/-- What an option leads to: flags to be raised in turn, and what comes after them. -/
inductive Effect where
  | done
  | set (flag : Flag) (value : String)
  /-- The value stands in the next argument. -/
  | await (flag : Flag)
  | leaveOver

/-- Reads letters that are attached to an option of one letter without a value. -/
def readLetters (flags : Flags) : List Char → Option (List Flag × Effect)
  | [] => some ([], .done)
  | c :: rest =>
    if c = '-' then none
    else
      match flags.lookup (String.ofList ['-', c]) with
      | none => some ([], .leaveOver)
      | some flag =>
        if flag.takesValue then
          match rest with
          | [] => some ([], .await flag)
          | '=' :: text => some ([], .set flag (String.ofList text))
          | text => some ([], .set flag (String.ofList text))
        else if rest.head? = some '=' then none
        else (readLetters flags rest).map fun (raised, effect) => (flag :: raised, effect)

/-- Reads an option with what is attached to it. -/
def readOption (flags : Flags) (flag : Flag) (short : Bool) :
    Option Attached → Option (List Flag × Effect)
  | none => some (if flag.takesValue then ([], .await flag) else ([flag], .done))
  | some a =>
    if flag.takesValue then some ([], .set flag a.text)
    else if !short || a.behindEquals then none
    else (readLetters flags a.text.toList).map fun (raised, effect) => (flag :: raised, effect)

/-- Reads arguments, each beside its text, up to an action or to the end. Without actions every
plain argument is left over. `awaiting` is a flag that a value has to follow, behind others. -/
def readArguments (flags : Flags) (hasActions : Bool) (p : Progress)
    (awaiting : Option (List Flag × Flag)) :
    List (String × Argument) → Except Request (Progress × Option (String × List String))
  | [] => if awaiting.isSome then .error .misuse else .ok (p, none)
  | (text, a) :: rest =>
    match awaiting, a with
    | some (raised, flag), .plain value => do
      let p ← (← raised.foldlM Progress.raise p).set flag value
      readArguments flags hasActions p none rest
    | some _, _ => .error .misuse
    | none, .plain _ =>
      if hasActions then .ok (p, some (text, rest.map (·.1)))
      else readArguments flags hasActions { p with leftOver := true } none rest
    | none, .dashes =>
      if hasActions then .error .misuse
      else readArguments flags hasActions { p with leftOver := true } none rest
    | none, .unknown => readArguments flags hasActions { p with leftOver := true } none rest
    | none, .option flag short attached =>
      match readOption flags flag short attached with
      | none => .error .misuse
      | some (raised, .await flag) =>
        readArguments flags hasActions p (some (raised, flag)) rest
      | some (raised, effect) => do
        let p ← raised.foldlM Progress.raise p
        let p ← match effect with
          | .set flag value => p.set flag value
          | .leaveOver => pure { p with leftOver := true }
          | _ => pure p
        readArguments flags hasActions p none rest

def readStrings (flags : Flags) (hasActions : Bool) (p : Progress) (args : List String) :
    Except Request (Progress × Option (String × List String)) :=
  match Argument.ofStrings? flags args with
  | some as => readArguments flags hasActions p none (args.zip as)
  | none => .error .misuse

/-- The options before the action. -/
def mainFlags : Flags := [
  ("-h", .help), ("--help", .help), ("--config", .config), ("-p", .path), ("--path", .path),
  ("-j", .jobs), ("--jobs", .jobs), ("-v", .verbose), ("--verbose", .verbose),
  ("--version", .version)]

def helpFlags : Flags := [("-h", .help), ("--help", .help)]

/-- The options of an action, and the action with these options. -/
def action? (name : String) : Option (Flags × (Options → Action)) :=
  if name = "check" then some (helpFlags ++ [("--format", .format)], fun o => .check o.format)
  else if name = "fix" then some (helpFlags, fun _ => .fix)
  else if name = "version" then some (helpFlags, fun _ => .version)
  else none

/-- Reads a command line. -/
def Request.ofArguments (args : List String) : Request :=
  let request : Except Request Request := do
    match ← readStrings mainFlags true .start args with
    | (_, none) => throw .misuse
    | (p, some (name, rest)) =>
      let some (flags, action) := action? name | throw .misuse
      let (p, _) ← readStrings flags false p rest
      return if p.leftOver then .misuse else .perform (action p.options) p.options
  match request with
  | .ok r => r
  | .error r => r

end Letterhead.Command
