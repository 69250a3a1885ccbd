import RouteScaffold.CommandLine.Switch
import RouteScaffold.Text.Control

/-!
# Help

Help comes as a summary, with a line for each switch, and in detail, with a paragraph for each.  Both
show the values that the environment gives.

Control sequences are left out.  Since the heads of the switches are set apart in style, a sequence
that a value leaves open reaches up to the next head and takes the line ends and blanks in front of
it away.
-/

namespace RouteScaffold.CommandLine

open Scaffold (Style)

/-- The name of the program. -/
def programName : String := "openapi_route_scaffolder"

/-- The version of the program. -/
def programVersion : String := "0.1.0"

/-- The line that tells the version. -/
def versionLine : String := programName ++ " " ++ programVersion ++ "\n"

/-- A text whose lines after the first are moved to the right. -/
def hang (width : Nat) (text : String) : String :=
  ("\n" ++ String.ofList (List.replicate width ' ')).intercalate (text.splitOn "\n")

namespace Setting

/-- What the environment says about a setting. -/
def variableNote (environment : Environment) (setting : Setting) : String :=
  "[env: " ++ setting.variableName ++ "=" ++ (environment setting).getD "" ++ "]"

/-- What is noted about the value of a setting. -/
def notes (environment : Environment) (setting : Setting) : List String :=
  setting.variableNote environment ::
    (setting.fallback?.toList.map fun style => "[default: " ++ choiceName style ++ "]")

end Setting

/-- The blanks in front of the head of a switch. -/
def Switch.margin (switch : Switch) : String :=
  if switch.letter?.isSome then "  " else "      "

/-- The head of a switch: its letter and its long name. -/
def Switch.head (switch : Switch) : String :=
  match switch.letter? with
  | some letter => String.ofList ['-', letter, ',', ' '] ++ switch.usage
  | none => switch.usage

/-- What a flag does. -/
def Flag.summary (detailed : Bool) : Flag → String
  | strict => "Run strict semantic checks on the document before generating"
  | force => "Overwrite scaffolds that already exist"
  | help =>
    if detailed then "Print help (see a summary with '-h')"
    else "Print help (see more with '--help')"
  | version => "Print version"

/-- What the settings are without which nothing can run, as they are written. -/
def requiredUsage : String :=
  " ".intercalate ((Setting.all.filter fun setting => setting.fallback?.isNone).map Setting.usage)

/-- The paragraphs in front of the switches. -/
def helpHead : String :=
  "Generates route handler scaffolds from an OpenAPI document\n\nUsage: " ++ programName ++
    " [OPTIONS] " ++ requiredUsage ++ "\n\nOptions:\n"

/-- The margin of the first of some switches. -/
def firstMargin (switches : List Switch) : String := switches.head?.elim "" Switch.margin

/-- The heads of switches with their texts, from the first head on. -/
def listing (text : Switch → String) (between : String) : List Switch → String
  | [] => ""
  | switch :: rest =>
    let gap := if rest.isEmpty then "\n" else between ++ firstMargin rest
    switch.head ++ Text.withoutControls (text switch ++ gap) ++ listing text between rest

/-- All switches with their texts, below what stands in front of them. -/
def switchHelp (text : Switch → String) (between : String) : String :=
  helpHead ++ firstMargin Switch.all ++ listing text between Switch.all

/-! ## The summary -/

/-- The width of a head with its margin. -/
def Switch.headWidth (switch : Switch) : Nat := switch.margin.length + switch.head.length

/-- The column at which the texts of the summary begin. -/
def textColumn : Nat := Switch.all.foldl (fun width switch => max width switch.headWidth) 0 + 2

/-- What the summary says about a switch. -/
def summaryText (environment : Environment) : Switch → String
  | .flag flag => flag.summary false
  | .setting setting =>
    let choices := if setting.choices.isEmpty then [] else [choiceList setting.choices]
    " ".intercalate (setting.summary :: (setting.notes environment ++ choices))

/-- What stands beside the head of a switch. -/
def summaryBeside (environment : Environment) (switch : Switch) : String :=
  String.ofList (List.replicate (textColumn - switch.headWidth) ' ') ++
    hang textColumn (summaryText environment switch)

/-- Help as a summary. -/
def helpSummary (environment : Environment) : String :=
  switchHelp (summaryBeside environment) "\n"

/-! ## The details -/

/-- How far the text below a head is moved to the right. -/
def detailWidth : Nat := 10

/-- What a style does. -/
def styleLine (style : Style) : String :=
  "- " ++ choiceName style ++ ": `" ++ style.exportStatement "getRoute" ++ "` in a `." ++
    style.extension ++ "` file"

/-- The list of the values that a setting is restricted to, below a line that is left empty. -/
def choiceParagraph (choices : List Style) : String :=
  if choices.isEmpty then ""
  else "\n" ++ hang detailWidth ("\n" ++
    "\n".intercalate ("Possible values:" :: choices.map styleLine))

/-- What the details say about a switch. -/
def detailText (environment : Environment) : Switch → String
  | .flag flag => flag.summary true
  | .setting setting =>
    setting.summary ++ choiceParagraph setting.choices ++
      hang detailWidth ("\n\n" ++ "\n".intercalate (setting.notes environment))

/-- What stands below the head of a switch. -/
def detailBelow (environment : Environment) (switch : Switch) : String :=
  hang detailWidth "\n" ++ detailText environment switch

/-- Help in detail. -/
def helpDetails (environment : Environment) : String :=
  switchHelp (detailBelow environment) "\n\n"

/-- Help, in detail or as a summary. -/
def help (environment : Environment) (detailed : Bool) : String :=
  if detailed then helpDetails environment else helpSummary environment

end RouteScaffold.CommandLine
