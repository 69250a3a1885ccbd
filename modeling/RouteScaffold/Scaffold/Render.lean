import RouteScaffold.Json.Printer
import RouteScaffold.Scaffold.Basic

/-!
# The text of a scaffold

A scaffold is a comment with the method and the path, an object with the route's properties and its
handler, and the export.  Values go into the text as they are, except that the path is kept from
ending the comment and from ending the string it stands in.
-/

namespace RouteScaffold.Scaffold

/-- The generator that a scaffold names. -/
def generatorName : String := "openapi_route_scaffolder"

/-- The version of the generator. -/
def generatorVersion : String := "0.1.0"

/-- A text that cannot end a comment: a slash that would is escaped. -/
def commentText : List Char → List Char
  | '*' :: '/' :: rest => '*' :: '\\' :: '/' :: commentText rest
  | c :: rest => c :: commentText rest
  | [] => []

/-- The characters that stand for `c` in a string between single quotes. -/
def stringChar (c : Char) : List Char :=
  if c = '\\' ∨ c = '\'' then ['\\', c] else [c]

/-- A text that cannot end a string between single quotes. -/
def stringText (text : List Char) : List Char := text.flatMap stringChar

/-- The text of a line with its end. -/
def line (text : List Char) : List Char := text ++ ['\n']

/-- The name a scaffold gives its route. -/
def binding (scaffold : Scaffold) : String := scaffold.method.name ++ "Route"

/-- The comment at the start. -/
def header (scaffold : Scaffold) : List Char :=
  line "/**".toList ++
    line " * Generated REST API endpoint handler".toList ++
    line (" * @generator: " ++ generatorName ++ " " ++ generatorVersion).toList ++
    line " *".toList ++
    line (" * ".toList ++ scaffold.method.upperName.toList ++ ' ' ::
      commentText scaffold.mapped.toList) ++
    line " */".toList

/-- The lines that mark a private route. -/
def accessLines (scaffold : Scaffold) : List Char :=
  match scaffold.access with
  | none => []
  | some access =>
    let comment := (access.comment.getD "").toList
    (if comment.isEmpty then [] else line ("    // ".toList ++ comment)) ++
      line "    private: true,".toList

/-- The lines of the schema: its pretty form one level in. -/
def schemaLines (scaffold : Scaffold) : List Char :=
  match scaffold.schema with
  | none => []
  | some schema => line ("    schema: ".toList ++ Json.prettyChars 1 schema.tree ++ [','])

/-- The lines of the handler. -/
def handlerLines (scaffold : Scaffold) : List Char :=
  line "    handler: (req, res) => \x7b".toList ++
    line ("        res.send('Hello ".toList ++ stringText scaffold.mapped.toList ++ "');".toList) ++
    line "    \x7d".toList

/-- The characters of a scaffold. -/
def chars (scaffold : Scaffold) : List Char :=
  scaffold.header ++ line [] ++
    line ("const " ++ scaffold.binding ++ " = \x7b").toList ++
    scaffold.accessLines ++ scaffold.schemaLines ++ scaffold.handlerLines ++
    line "\x7d;".toList ++ line [] ++
    line (scaffold.style.exportStatement scaffold.binding).toList

/-- The text of a scaffold. -/
def text (scaffold : Scaffold) : String := String.ofList scaffold.chars

end RouteScaffold.Scaffold
