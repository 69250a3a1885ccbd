/-!
# Module styles

A route module is written in one of two styles, which differ in the extension of its file and in the
statement that exports what it defines.
-/

namespace RouteScaffold.Scaffold

/-- How a route module exports its route. -/
inductive Style where
  | staticExport
  | dynamicAssignment
  deriving DecidableEq, Repr, Inhabited

namespace Style

/-- All styles. -/
def all : List Style := [staticExport, dynamicAssignment]

/-- The extension of a module's file. -/
def extension : Style → String
  | staticExport => "ts"
  | dynamicAssignment => "js"

/-- The names a style is asked for by. -/
def names : Style → List String
  | staticExport => ["ts", "static-export"]
  | dynamicAssignment => ["js", "dynamic-assignment"]

/-- The statement that exports a binding. -/
def exportStatement (style : Style) (binding : String) : String :=
  match style with
  | staticExport => "export default " ++ binding ++ ";"
  | dynamicAssignment => "module.exports = " ++ binding ++ ";"

/-- A text in lower case as far as it is ASCII. -/
def lowered (text : String) : String := String.ofList (text.toList.map Char.toLower)

/-- The style of a name. -/
def ofName? (ignoreCase : Bool) (text : String) : Option Style :=
  all.find? fun style =>
    style.names.any fun name => if ignoreCase then lowered name = lowered text else name = text

end Style

end RouteScaffold.Scaffold
