import RouteScaffold.Files.Path

/-!
# Formats of a source

A source is JSON or YAML, and the extension of its file tells which, in upper or lower case.
-/

namespace RouteScaffold.Source

/-- The format of a source. -/
inductive Format where
  | json
  | yaml
  deriving DecidableEq, Repr

namespace Format

/-- The name of a format. -/
def name : Format → String
  | json => "json"
  | yaml => "yaml"

/-- The format whose name a text is. -/
def ofName? (text : String) : Option Format :=
  if text = "json" then some json else if text = "yaml" then some yaml else none

/-- The format that the extension of a path tells. -/
def detect (path : String) : Option Format := do
  let extension := String.ofList ((← Files.extension? path.toList).map Char.toLower)
  if extension = "json" then some json
  else if extension = "yaml" ∨ extension = "yml" then some yaml
  else none

end Format

end RouteScaffold.Source
