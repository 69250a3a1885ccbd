import RouteScaffold.CommandLine.Switch
import RouteScaffold.Text.Control

/-!
# Misuse

Why a command line cannot be followed.  What was typed is shown without control sequences.
-/

namespace RouteScaffold.CommandLine

/-- What is wrong with a command line. -/
inductive Misuse where
  /-- An argument is no switch and no value of one. -/
  | unexpectedArgument (argument : String)
  /-- A value is attached to a flag. -/
  | unexpectedValue (flag : Flag) (value : String)
  /-- A setting has no value, or an empty one. -/
  | missingValue (setting : Setting)
  /-- No style has the name that is given. -/
  | unknownStyle (name : String)
  /-- A switch is given twice. -/
  | repeated (switch : Switch)
  /-- Settings without which nothing can run are not given. -/
  | missingSettings (settings : List Setting)
  deriving DecidableEq, Repr

namespace Misuse

/-- The values a setting is restricted to, on a line of their own. -/
def choiceLine (setting : Setting) : String :=
  if setting.choices.isEmpty then "" else "\n  " ++ choiceList setting.choices

/-- The words for a misuse. -/
def message : Misuse → String
  | unexpectedArgument argument =>
    "unexpected argument '" ++ Text.withoutControls argument ++ "' found"
  | unexpectedValue flag value =>
    "unexpected value '" ++ Text.withoutControls value ++ "' for '" ++ flag.usage ++
      "' found; no more were expected"
  | missingValue setting =>
    "a value is required for '" ++ setting.usage ++ "' but none was supplied" ++ choiceLine setting
  | unknownStyle name =>
    "invalid value '" ++ Text.withoutControls name ++ "' for '" ++ Setting.style.usage ++ "'" ++
      choiceLine .style
  | repeated switch => "the argument '" ++ switch.usage ++ "' cannot be used multiple times"
  | missingSettings settings =>
    "the following required arguments were not provided:" ++
      String.join (settings.map fun setting => "\n  " ++ setting.usage)

end Misuse

end RouteScaffold.CommandLine
