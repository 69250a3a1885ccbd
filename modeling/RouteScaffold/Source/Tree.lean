import RouteScaffold.Json.Reader
import RouteScaffold.Source.Format
import RouteScaffold.Yaml.Reader

/-!
# The tree of a source

A source is read in its format.  Without a known format it is read as JSON, and as YAML if it is not
JSON; what is then wrong with it is what is wrong with it as YAML.
-/

namespace RouteScaffold.Source

/-- Why a source holds no tree. -/
inductive SyntaxFault where
  | json (error : Json.ReadError)
  | yaml

/-- The words for a fault. -/
def SyntaxFault.message : SyntaxFault → String
  | json error => "invalid JSON: " ++ error.message
  | yaml => "invalid YAML"

/-- Reads a source as JSON. -/
def readJson (contents : String) : Except SyntaxFault Json :=
  (Json.parse contents).mapError .json

/-- Reads a source as YAML. -/
def readYaml (contents : String) : Except SyntaxFault Json :=
  match Yaml.parse contents with
  | some tree => .ok tree
  | none => .error .yaml

/-- The tree of a source. -/
def tree (format : Option Format) (contents : String) : Except SyntaxFault Json :=
  match format with
  | some .json => readJson contents
  | some .yaml => readYaml contents
  | none =>
    match readJson contents with
    | .ok tree => .ok tree
    | .error _ => readYaml contents

end RouteScaffold.Source
