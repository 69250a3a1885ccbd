import RouteScaffold.Scaffold.Style

/-!
# Switches

The command line knows settings, which take a value, and flags, which stand alone.  Each has a long
name and most have a letter; a setting may also be given by an environment variable.
-/

namespace RouteScaffold.CommandLine

open Scaffold (Style)

/-- A switch that takes a value. -/
inductive Setting where
  | source
  | destination
  | style
  deriving DecidableEq, Repr

/-- A switch that stands alone. -/
inductive Flag where
  | strict
  | force
  | help
  | version
  deriving DecidableEq, Repr

/-- What can be named on the command line. -/
inductive Switch where
  | setting (setting : Setting)
  | flag (flag : Flag)
  deriving DecidableEq, Repr

/-- The style of a run that is asked for no other. -/
def defaultStyle : Style := .staticExport

namespace Setting

/-- All settings. -/
def all : List Setting := [source, destination, style]

/-- The name of a setting after two dashes. -/
def longName : Setting → String
  | source => "source"
  | destination => "destination"
  | style => "type"

/-- The letter of a setting after one dash. -/
def letter : Setting → Char
  | source => 's'
  | destination => 'd'
  | style => 't'

/-- What stands for the value of a setting. -/
def placeholder : Setting → String
  | source => "<SOURCE>"
  | destination => "<DESTINATION>"
  | style => "<MODULE_STYLE>"

/-- How a setting is written. -/
def usage (setting : Setting) : String := "--" ++ setting.longName ++ " " ++ setting.placeholder

/-- The environment variable that gives a setting. -/
def variableName : Setting → String
  | source => "ROUTE_SCAFFOLD_SOURCE"
  | destination => "ROUTE_SCAFFOLD_DESTINATION"
  | style => "ROUTE_SCAFFOLD_TYPE"

/-- What a setting is for. -/
def summary : Setting → String
  | source => "OpenAPI source file (JSON or YAML)"
  | destination => "Destination folder for the generated routes"
  | style => "Module style of the generated files"

/-- The value of a setting that is not given, when it may be left out. -/
def fallback? : Setting → Option Style
  | style => some defaultStyle
  | _ => none

/-- The values a setting is restricted to. -/
def choices : Setting → List Style
  | style => Style.all
  | _ => []

end Setting

namespace Flag

/-- All flags. -/
def all : List Flag := [strict, force, help, version]

/-- The name of a flag after two dashes. -/
def longName : Flag → String
  | strict => "validate-spec"
  | force => "force"
  | help => "help"
  | version => "version"

/-- The letter of a flag after one dash. -/
def letter? : Flag → Option Char
  | strict => none
  | force => some 'f'
  | help => some 'h'
  | version => some 'V'

/-- How a flag is written. -/
def usage (flag : Flag) : String := "--" ++ flag.longName

end Flag

namespace Switch

/-- All switches, in the order in which they are listed. -/
def all : List Switch := Setting.all.map setting ++ Flag.all.map flag

/-- How a switch is written. -/
def usage : Switch → String
  | setting named => named.usage
  | flag named => named.usage

/-- The name of a switch after two dashes. -/
def longName : Switch → String
  | setting named => named.longName
  | flag named => named.longName

/-- The letter of a switch after one dash. -/
def letter? : Switch → Option Char
  | setting named => some named.letter
  | flag named => named.letter?

/-- The switch of a long name. -/
def ofLongName? (name : String) : Option Switch := all.find? fun switch => switch.longName = name

/-- The switch of a letter. -/
def ofLetter? (letter : Char) : Option Switch :=
  all.find? fun switch => switch.letter? = some letter

end Switch

/-- What the environment says about the settings. -/
abbrev Environment := Setting → Option String

/-- The name that a style is listed by. -/
def choiceName (style : Style) : String := style.names.headD style.extension

/-- The values a setting is restricted to, in brackets. -/
def choiceList (choices : List Style) : String :=
  "[possible values: " ++ ", ".intercalate (choices.map choiceName) ++ "]"

end RouteScaffold.CommandLine
