/-!
# Path templates

A path template is text with variables in it, a variable being a name between braces.  Read as a
`Template` it is a literal followed by variables that each have a literal after them:

```text
/users/{id}/posts/{post}.json   =   "/users/"  id "/posts/"  post ".json"
```

Variables are found from left to right and never overlap.  Mapping a template writes each variable as
its name after a dollar sign.
-/

namespace RouteScaffold.Route

/-- A character of a variable's name. -/
def isNameChar (c : Char) : Bool := c.isAlphanum || c = '_'

/-- The name of the variable a text begins with, and the text after it. -/
def variableAt? : List Char → Option (List Char × List Char)
  | '{' :: rest =>
    match rest.dropWhile isNameChar with
    | '}' :: more =>
      if (rest.takeWhile isNameChar).isEmpty then none else some (rest.takeWhile isNameChar, more)
    | _ => none
  | _ => none

theorem variableAt?_length {text name rest : List Char}
    (h : variableAt? text = some (name, rest)) : rest.length < text.length := by
  unfold variableAt? at h
  split at h
  · rename_i after
    split at h
    · rename_i more hmore
      have hle : (after.dropWhile isNameChar).length ≤ after.length :=
        (List.dropWhile_sublist _).length_le
      rw [hmore] at hle
      split at h
      · simp at h
      · simp only [Option.some.injEq, Prod.mk.injEq] at h
        obtain ⟨-, rfl⟩ := h
        simp only [List.length_cons] at hle ⊢
        omega
    · simp at h
  · simp at h

/-- A template: a literal, and variables with the literal after each. -/
structure Template where
  head : List Char
  tail : List (List Char × List Char)
  deriving DecidableEq, Repr

namespace Template

/-- A character in front of a template. -/
def prepend (c : Char) (template : Template) : Template :=
  { template with head := c :: template.head }

/-- A variable in front of a template. -/
def prependVariable (name : List Char) (template : Template) : Template :=
  ⟨[], (name, template.head) :: template.tail⟩

/-- Reads a template. -/
def ofChars (text : List Char) : Template :=
  match found : variableAt? text with
  | some (name, rest) =>
    have : rest.length < text.length := variableAt?_length found
    (ofChars rest).prependVariable name
  | none =>
    match text with
    | [] => ⟨[], []⟩
    | c :: rest => (ofChars rest).prepend c
termination_by text.length

/-- A template with each variable as its name after a dollar sign. -/
def mapped (template : Template) : List Char :=
  template.head ++ template.tail.flatMap fun (name, literal) => '$' :: (name ++ literal)

/-- The names of the variables in their order. -/
def variableNames (template : Template) : List (List Char) :=
  template.tail.map (·.1)

end Template

/-- The mapped form of a path template. -/
def mapTemplate (template : String) : String :=
  String.ofList (Template.ofChars template.toList).mapped

/-- The names of the variables of a path template. -/
def templateVariables (template : String) : List String :=
  (Template.ofChars template.toList).variableNames.map String.ofList

end RouteScaffold.Route
