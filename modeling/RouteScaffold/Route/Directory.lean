import RouteScaffold.Files.Path
import RouteScaffold.Route.Template

/-!
# Directories of routes

A mapped path names a directory below a destination.  Its leading slashes do not count, the names
among its components are pushed onto the destination one after the other, and a component that would
lead out of the destination is refused.
-/

namespace RouteScaffold.Route

/-- A directory with the names among some components pushed onto it; nothing when one of the
components leads to the root or to a parent. -/
def descend (directory : List Char) : List Files.Component → Option (List Char)
  | [] => some directory
  | .name segment :: rest => descend (Files.push directory segment) rest
  | .current :: rest => descend directory rest
  | .root :: _ => none
  | .parent :: _ => none

/-- The directory of a mapped path below a destination; nothing when the path would leave it. -/
def directory? (destination mapped : String) : Option String :=
  let relative := mapped.toList.dropWhile (· = '/')
  (descend destination.toList (Files.components relative)).map String.ofList

end RouteScaffold.Route
