import RouteScaffold.CommandLine.Misuse
import RouteScaffold.Run.Basic

/-!
# Invocations

Arguments are read from left to right.  A setting without an attached value waits for the argument
that follows, and its value is looked at only when the next switch or the end of the arguments is
reached; a request for help or for the version ends the reading where it stands.  What the arguments
do not give is taken from the environment.
-/

namespace RouteScaffold.CommandLine

open Scaffold (Style)

/-! ## Arguments by their form -/

/-- What an argument is by its form. -/
inductive Form where
  /-- Two dashes alone: only plain arguments follow. -/
  | escape
  /-- A name after two dashes, and the value behind the first equals sign. -/
  | long (name : String) (value : Option String)
  /-- Letters after one dash. -/
  | letters (letters : List Char)
  | plain
  deriving DecidableEq, Repr

/-- What follows the first equals sign. -/
def attached? (text : List Char) : Option String :=
  match text.dropWhile (· ≠ '=') with
  | _ :: value => some (String.ofList value)
  | [] => none

/-- The form of an argument. -/
def Form.of (argument : String) : Form :=
  match argument.toList with
  | ['-', '-'] => escape
  | '-' :: '-' :: text => long (String.ofList (text.takeWhile (· ≠ '='))) (attached? text)
  | '-' :: c :: rest => letters (c :: rest)
  | _ => plain

/-! ## Reading -/

/-- What has been given. -/
structure Given where
  source : Option String := none
  destination : Option String := none
  style : Option Style := none
  strict : Bool := false
  force : Bool := false
  deriving DecidableEq, Repr

/-- Why the reading of arguments ends early. -/
inductive Stop where
  /-- Help is asked for, in detail or as a summary. -/
  | help (detailed : Bool)
  | version
  | misuse (misuse : Misuse)
  deriving DecidableEq, Repr

namespace Given

/-- Whether a setting is given. -/
def has (given : Given) : Setting → Bool
  | .source => given.source.isSome
  | .destination => given.destination.isSome
  | .style => given.style.isSome

/-- Takes the value of a setting. -/
def accept (given : Given) (setting : Setting) (value : String) : Except Stop Given :=
  if given.has setting then .error (.misuse (.repeated (.setting setting)))
  else if value.isEmpty then .error (.misuse (.missingValue setting))
  else
    match setting with
    | .source => .ok { given with source := some value }
    | .destination => .ok { given with destination := some value }
    | .style =>
      match Style.ofName? false value with
      | some style => .ok { given with style := some style }
      | none => .error (.misuse (.unknownStyle value))

/-- Takes a flag, written out or as a letter. -/
def raise (given : Given) (flag : Flag) (writtenOut : Bool) : Except Stop Given :=
  match flag with
  | .help => .error (.help writtenOut)
  | .version => .error .version
  | .strict =>
    if given.strict then .error (.misuse (.repeated (.flag .strict)))
    else .ok { given with strict := true }
  | .force =>
    if given.force then .error (.misuse (.repeated (.flag .force)))
    else .ok { given with force := true }

end Given

/-- The setting that was named last, as long as its value has not been looked at. -/
structure Pending where
  setting : Setting
  value : Option String
  deriving DecidableEq, Repr

/-- How far the arguments have been read. -/
structure Progress where
  given : Given := {}
  pending : Option Pending := none
  deriving DecidableEq, Repr

namespace Progress

/-- Takes the value of the setting that was named last. -/
def settle (progress : Progress) : Except Stop Given :=
  match progress.pending with
  | none => .ok progress.given
  | some ⟨setting, none⟩ => .error (.misuse (.missingValue setting))
  | some ⟨setting, some value⟩ => progress.given.accept setting value

/-- Waits for the value of a setting. -/
def await (progress : Progress) (setting : Setting) : Except Stop Progress := do
  return { given := ← progress.settle, pending := some ⟨setting, none⟩ }

/-- Takes a setting with the value attached to it. -/
def attach (progress : Progress) (setting : Setting) (value : String) : Except Stop Progress := do
  return { given := ← (← progress.settle).accept setting value }

/-- Takes a flag. -/
def raise (progress : Progress) (flag : Flag) (writtenOut : Bool) : Except Stop Progress := do
  return { given := ← (← progress.settle).raise flag writtenOut }

/-- Reads letters after one dash.  What follows the letter of a setting is its value, after an equals
sign that may stand there. -/
def readLetters (progress : Progress) : List Char → Except Stop Progress
  | [] => .ok progress
  | letter :: rest =>
    match Switch.ofLetter? letter with
    | none => .error (.misuse (.unexpectedArgument (String.ofList ['-', letter])))
    | some (.flag flag) => do (← progress.raise flag false).readLetters rest
    | some (.setting setting) =>
      match rest with
      | [] => progress.await setting
      | '=' :: value => progress.attach setting (String.ofList value)
      | value => progress.attach setting (String.ofList value)

/-- Reads a name after two dashes. -/
def readLong (progress : Progress) (name : String) (value : Option String) :
    Except Stop Progress :=
  match Switch.ofLongName? name, value with
  | none, _ => .error (.misuse (.unexpectedArgument ("--" ++ name)))
  | some (.flag flag), none => progress.raise flag true
  | some (.flag flag), some value => .error (.misuse (.unexpectedValue flag value))
  | some (.setting setting), none => progress.await setting
  | some (.setting setting), some value => progress.attach setting value

/-- Reads an argument that is no switch. -/
def readPlain (progress : Progress) (argument : String) : Except Stop Progress :=
  match progress.pending with
  | some ⟨setting, none⟩ => .ok { progress with pending := some ⟨setting, some argument⟩ }
  | _ => .error (.misuse (.unexpectedArgument argument))

/-- Reads arguments. -/
def read (progress : Progress) : List String → Except Stop Progress
  | [] => .ok progress
  | argument :: rest =>
    match Form.of argument with
    | .escape =>
      match rest with
      | [] => .ok progress
      | extra :: _ => .error (.misuse (.unexpectedArgument extra))
    | .long name value => do (← progress.readLong name value).read rest
    | .letters letters => do (← progress.readLetters letters).read rest
    | .plain => do (← progress.readPlain argument).read rest

end Progress

/-! ## What is asked for -/

/-- Takes from the environment what is not given. -/
def Given.complete (given : Given) (environment : Environment) : Except Stop Given :=
  Setting.all.foldlM
    (fun given setting =>
      match environment setting with
      | some value => if given.has setting then .ok given else given.accept setting value
      | none => .ok given)
    given

/-- The settings of a run. -/
def Given.settings (given : Given) : Except Stop Run.Settings :=
  match given.source, given.destination with
  | some source, some destination =>
    .ok {
      source, destination
      style := given.style.getD defaultStyle
      strict := given.strict
      policy := .ofForce given.force }
  | _, _ =>
    .error (.misuse (.missingSettings
      ([Setting.source, .destination].filter fun setting => !given.has setting)))

/-- The settings of the run that is asked for, or why there is none. -/
def invocation (environment : Environment) (arguments : List String) :
    Except Stop Run.Settings := do
  let progress ← ({} : Progress).read arguments
  let given ← progress.settle
  (← given.complete environment).settings

end RouteScaffold.CommandLine
