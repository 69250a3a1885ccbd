/-!
# Blank characters and words

The characters Unicode counts as white space, and the cutting of a text into the words between
them.  Every line terminator is blank, so a text put together from words and single spaces stays
on one line.
-/

namespace RouteScaffold.Text

/-- White space in the sense of the Unicode property of that name. -/
def isBlank (c : Char) : Bool :=
  (9 ≤ c.toNat && c.toNat ≤ 13) || c.toNat == 0x20 || c.toNat == 0x85 || c.toNat == 0xA0 ||
    c.toNat == 0x1680 || (0x2000 ≤ c.toNat && c.toNat ≤ 0x200A) || c.toNat == 0x2028 ||
    c.toNat == 0x2029 || c.toNat == 0x202F || c.toNat == 0x205F || c.toNat == 0x3000

/-- The maximal runs of characters that are not blank, in order. -/
def words : List Char → List (List Char)
  | [] => []
  | c :: rest =>
    if isBlank c then
      words rest
    else
      match rest with
      | [] => [[c]]
      | next :: _ =>
        if isBlank next then
          [c] :: words rest
        else
          match words rest with
          | [] => [[c]]
          | word :: more => (c :: word) :: more

/-- The words of a text on one line, with one space between neighbours; nothing for a text without
words. -/
def singleLine (text : String) : Option String :=
  match words text.toList with
  | [] => none
  | found => some (String.ofList (List.intercalate [' '] found))

end RouteScaffold.Text
