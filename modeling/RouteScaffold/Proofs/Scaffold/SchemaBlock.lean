import RouteScaffold.Proofs.Json.Lines
import RouteScaffold.Proofs.Json.ReadBack
import RouteScaffold.Proofs.Scaffold.LastLine

/-!
# The schema block of a scaffold

The literal after `schema:` is the tree of the schema: it has the tokens that the compact form has, with
blanks between them, and is read back as the tree, with its keys in their order (`schemaLiteral_spells`).
Each of its lines after the first is indented, as no line break stands in a token.
-/

namespace RouteScaffold.Scaffold

open Json (Lexeme ReadsBack Spaced Token lexemes lineBreak)
open Synthesis (RequestSchema)

/-- The literal that stands for a schema. -/
def schemaLiteral (schema : RequestSchema) : List Char := Json.prettyChars 1 schema.tree

/-- A scaffold up to its schema block. -/
def beforeSchema (scaffold : Scaffold) : List Char :=
  scaffold.header ++ line [] ++ line ("const " ++ scaffold.binding ++ " = \x7b").toList ++
    scaffold.accessLines

/-- A scaffold after its schema block. -/
def afterSchema (scaffold : Scaffold) : List Char :=
  scaffold.handlerLines ++ line "\x7d;".toList ++ line [] ++
    (lastLine scaffold.style scaffold.method).toList

/-- What holds between a tree and a text that spells it. -/
structure Spells (tree : Json) (text : List Char) : Prop where
  /-- The text is the tokens of the tree with blanks between them. -/
  spaced : Spaced tree.tokens text
  /-- So is the compact form. -/
  compact : Spaced tree.tokens tree.compact.toList
  /-- The text and the compact form are cut into these tokens. -/
  tokens : (lexemes text.length {} text).1.map (·.lexeme) = tree.tokens.map Lexeme.token
  compactTokens : (lexemes tree.compact.toList.length {} tree.compact.toList).1.map (·.lexeme) =
    tree.tokens.map Lexeme.token
  /-- No other tree has these tokens. -/
  unique : ∀ other : Json,
    (lexemes text.length {} text).1.map (·.lexeme) = other.tokens.map Lexeme.token → other = tree
  /-- The reader makes the tree of the text, if it does not nest too deep. -/
  parsed : tree.Distinct → Json.NestsWithin Json.depthLimit tree →
    Json.parse (String.ofList text) = .ok tree

theorem spells_prettyChars {tree : Json} (level : Nat)
    (hnumbers : ∀ number, Token.num number ∈ tree.tokens → ReadsBack number) :
    Spells tree (Json.prettyChars level tree) where
  spaced := Json.spaced_prettyChars level tree
  compact := Json.spaced_compact tree
  tokens := Json.lexemes_of_spaced (Json.spaced_prettyChars level tree) hnumbers _ _ (le_refl _)
  compactTokens := Json.lexemes_of_spaced (Json.spaced_compact tree) hnumbers _ _ (le_refl _)
  unique other hother := by
    rw [Json.lexemes_of_spaced (Json.spaced_prettyChars level tree) hnumbers _ _ (le_refl _)] at hother
    have htokens : tree.tokens = other.tokens :=
      List.map_injective_iff.mpr (fun _ _ h => Lexeme.token.inj h) hother
    exact (Json.tokens_injective htokens).symm
  parsed := Json.parse_of_spaced (Json.spaced_prettyChars level tree) hnumbers

theorem toList_text_of_schema {scaffold : Scaffold} {schema : RequestSchema}
    (h : scaffold.schema = some schema) :
    scaffold.text.toList = scaffold.beforeSchema ++
      ("    schema: ".toList ++ schemaLiteral schema ++ [',', '\n']) ++ scaffold.afterSchema := by
  have hlines : scaffold.schemaLines = "    schema: ".toList ++ schemaLiteral schema ++ [',', '\n'] := by
    rw [schemaLines, h]
    simp only [line, schemaLiteral, List.append_assoc, List.cons_append, List.nil_append]
  rw [toList_text, bodyChars, hlines, beforeSchema, afterSchema]
  simp only [List.append_assoc]

/-- The literal of a schema block spells the tree of the schema.  It is the pretty form of the tree, cut into lines
that are joined again with an indentation, and so each of its lines after the first starts with four spaces. -/
theorem schemaLiteral_spells {scaffold : Scaffold} {schema : RequestSchema}
    (hschema : scaffold.schema = some schema)
    (hnumbers : ∀ number, Token.num number ∈ schema.tree.tokens → ReadsBack number) :
    scaffold.text.toList = scaffold.beforeSchema ++
        ("    schema: ".toList ++ schemaLiteral schema ++ [',', '\n']) ++ scaffold.afterSchema ∧
      Spells schema.tree (schemaLiteral schema) ∧
      schemaLiteral schema =
        (lineBreak 1).intercalate ((Json.prettyChars 0 schema.tree).splitOn '\n') ∧
      ∀ front back, schemaLiteral schema = front ++ '\n' :: back → List.replicate 4 ' ' <+: back := by
  have hindented : Json.indented (Json.prettyChars 0 schema.tree) = schemaLiteral schema :=
    Json.prettyChars_succ schema.tree 0
  refine ⟨toList_text_of_schema hschema, spells_prettyChars 1 hnumbers, ?_, fun front back h => ?_⟩
  · rw [← hindented, Json.indented_eq_intercalate]
  · exact Json.indentation_of_indented (hindented.trans h)

/-- A schema with characters to escape, numbers, empty and nested parts. -/
def nestedSchema : RequestSchema where
  headers := some (.obj [("X-\"Id\"", .obj [("type", .str "a\nb\\"), ("maxLength", .num (.int 12))])])
  body := some (.arr [.obj [], .arr [], .arr [.null, .bool true, .num (.int (-7))], .str ",\n    \x7d"])

def nestedScaffold : Scaffold where
  file := "get.ts"
  method := .get
  template := "/a"
  mapped := "/a"
  access := none
  schema := some nestedSchema
  style := .staticExport

theorem schemaLiteral_spells_nested :
    nestedScaffold.schema = some nestedSchema ∧
      (∀ number, Token.num number ∈ nestedSchema.tree.tokens → ReadsBack number) ∧
      Spells nestedSchema.tree (schemaLiteral nestedSchema) ∧
      Json.parse (String.ofList (schemaLiteral nestedSchema)) = .ok nestedSchema.tree ∧
      ∀ front back, schemaLiteral nestedSchema = front ++ '\n' :: back →
        List.replicate 4 ' ' <+: back := by
  have hnumbers : ∀ number, Token.num number ∈ nestedSchema.tree.tokens → ReadsBack number := by
    intro number hnumber
    have heither : number = .int 12 ∨ number = .int (-7) := by
      simpa [nestedSchema, RequestSchema.tree, Json.tokens, Json.memberTokens, Json.itemTokens]
        using hnumber
    rcases heither with rfl | rfl <;> exact Json.readsBack_int (by decide) (by decide)
  obtain ⟨-, hspells, -, hindent⟩ :=
    schemaLiteral_spells (show nestedScaffold.schema = some nestedSchema from rfl) hnumbers
  have hdistinct : nestedSchema.tree.Distinct := by
    simp [nestedSchema, RequestSchema.tree]
  have hnests : Json.NestsWithin Json.depthLimit nestedSchema.tree := by
    simp [nestedSchema, RequestSchema.tree, Json.NestsWithin, Json.depthLimit]
  exact ⟨rfl, hnumbers, hspells, hspells.parsed hdistinct hnests, hindent⟩

end RouteScaffold.Scaffold
