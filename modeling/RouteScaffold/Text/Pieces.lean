/-!
# Pieces of texts

Template paths, file paths and pointers are all read piece by piece, a piece being what stands
between two slashes or between a slash and an end of the text.  A text without a slash is one piece,
and the empty text is one empty piece.
-/

namespace RouteScaffold.Text

/-- The pieces of a text between its slashes. -/
def slashPieces : List Char → List (List Char)
  | [] => [[]]
  | c :: rest =>
    if c = '/' then
      [] :: slashPieces rest
    else
      match slashPieces rest with
      | [] => [[c]]
      | piece :: more => (c :: piece) :: more

/-- What follows a given start of a text. -/
def afterStart? (start text : String) : Option String :=
  if start.toList.isPrefixOf text.toList then
    some (String.ofList (text.toList.drop start.toList.length))
  else none

end RouteScaffold.Text
