import RouteScaffold.Text.Printable

/-!
# Quoted text

The form in which messages show a text: between double quotes, with the quote, the backslash, tab,
line ends and the null character written as short escapes, and with every other character that is
unprintable or extends a grapheme written as its code point in braces.
-/

namespace RouteScaffold.Text

/-- A code point in lower-case hexadecimal between braces, after `\u`. -/
def codePointEscape (c : Char) : List Char :=
  '\\' :: 'u' :: '{' :: (Nat.toDigits 16 c.toNat ++ ['}'])

/-- The characters that stand for `c` inside quoted text. -/
def escaped (c : Char) : List Char :=
  if c = '"' ∨ c = '\\' then ['\\', c]
  else if c = '\t' then ['\\', 't']
  else if c = '\r' then ['\\', 'r']
  else if c = '\n' then ['\\', 'n']
  else if c = '\x00' then ['\\', '0']
  else if !isPrintable c || extendsGrapheme c then codePointEscape c
  else [c]

/-- A text between double quotes, as messages show it. -/
def quoted (text : String) : String :=
  String.ofList ('"' :: (text.toList.flatMap escaped ++ ['"']))

end RouteScaffold.Text
