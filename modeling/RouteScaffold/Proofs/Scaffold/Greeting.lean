import RouteScaffold.Proofs.Scaffold.LastLine

/-!
# The greeting of a scaffold

The handler of a scaffold sends a greeting, which stands in a string literal between single quotes.  With
`readLiteral`, which reads such literals, the greeting is found to be a literal of its text unless the path
has a line feed or a carriage return (`readLiteral_greeting`): a backslash and a quote are escaped, but a
line break stands in the literal as it is (`readLiteral_greeting_broken`).
-/

namespace RouteScaffold.Scaffold

/-! ## String literals -/

/-- Why a text is not a string literal between single quotes. -/
inductive LiteralFault where
  /-- There is no quote at the start. -/
  | unopened
  /-- There is no quote at the end. -/
  | unclosed
  /-- An unescaped quote stands before the end. -/
  | closedEarly
  /-- A line feed or a carriage return stands in the literal as it is. -/
  | lineBreak
  /-- An escape gives a character by the digits of its code.  These are not read here. -/
  | coded
  deriving DecidableEq, Repr

/-- The characters that an escape of one character stands for.  An escaped line break continues the literal
on the next line and stands for nothing, and a character that has no meaning of its own stands for itself. -/
def escaped : Char → Except LiteralFault (List Char)
  | 'b' => .ok ['\x08']
  | 'f' => .ok ['\x0c']
  | 'n' => .ok ['\n']
  | 'r' => .ok ['\r']
  | 't' => .ok ['\t']
  | 'v' => .ok ['\x0b']
  | '\n' => .ok []
  | '\r' => .ok []
  | '\u2028' => .ok []
  | '\u2029' => .ok []
  | 'u' => .error .coded
  | 'x' => .error .coded
  | c => if c.isDigit then .error .coded else .ok [c]

/-- Whether a character breaks a line of the source.  The line and paragraph separators of Unicode do not, in a
literal. -/
def isBreak (c : Char) : Bool := c = '\n' || c = '\r'

/-- Reads a literal after its first quote up to the end of the text. -/
def readQuoted : List Char → Except LiteralFault (List Char)
  | [] => .error .unclosed
  | '\'' :: rest => if rest.isEmpty then .ok [] else .error .closedEarly
  | ['\\'] => .error .unclosed
  | '\\' :: '\r' :: '\n' :: rest => readQuoted rest
  | '\\' :: c :: rest => do return (← escaped c) ++ (← readQuoted rest)
  | c :: rest =>
    if isBreak c then .error .lineBreak else do return c :: (← readQuoted rest)

/-- The text that a string literal between single quotes stands for. -/
def readLiteral : List Char → Except LiteralFault (List Char)
  | '\'' :: rest => readQuoted rest
  | _ => .error .unopened

/-! ## The greeting -/

/-- The literal that the handler sends. -/
def greeting (scaffold : Scaffold) : List Char :=
  '\'' :: ("Hello ".toList ++ (stringText scaffold.mapped.toList ++ ['\'']))

theorem readQuoted_break {c : Char} (hc : isBreak c = true) (rest : List Char) :
    readQuoted (c :: rest) = .error .lineBreak := by
  rw [isBreak, Bool.or_eq_true, decide_eq_true_eq, decide_eq_true_eq] at hc
  rcases hc with rfl | rfl <;> rfl

theorem readQuoted_plain {c : Char} (hquote : c ≠ '\'') (hslash : c ≠ '\\') (hc : isBreak c = false)
    (rest : List Char) : readQuoted (c :: rest) = (readQuoted rest).map (c :: ·) := by
  rw [readQuoted]
  · rw [hc]
    cases readQuoted rest <;> rfl
  all_goals simp_all

/-- What stands for a character in a literal is read as the character, unless it breaks the line. -/
theorem readQuoted_stringChar (c : Char) (rest : List Char) :
    readQuoted (stringChar c ++ rest) =
      if isBreak c then .error .lineBreak else (readQuoted rest).map (c :: ·) := by
  by_cases hescape : c = '\\' ∨ c = '\''
  · have hbreak : isBreak c = false := by rcases hescape with rfl | rfl <;> rfl
    rw [stringChar, if_pos hescape, hbreak, if_neg Bool.false_ne_true]
    rcases hescape with rfl | rfl <;>
    · show (do return (← escaped _) ++ (← readQuoted rest)) = _
      cases readQuoted rest <;> rfl
  · rw [stringChar, if_neg hescape]
    rw [not_or] at hescape
    cases hbreak : isBreak c with
    | true => exact readQuoted_break hbreak rest
    | false => exact readQuoted_plain hescape.2 hescape.1 hbreak rest

theorem readQuoted_stringText (text rest : List Char) :
    readQuoted (stringText text ++ rest) =
      if text.any isBreak then .error .lineBreak else (readQuoted rest).map (text ++ ·) := by
  induction text with
  | nil =>
      rw [List.any_nil, if_neg Bool.false_ne_true]
      show readQuoted rest = _
      cases readQuoted rest <;> rfl
  | cons c more ih =>
      rw [stringText, List.flatMap_cons, List.append_assoc, readQuoted_stringChar, ← stringText, ih,
        List.any_cons]
      cases isBreak c with
      | true => rfl
      | false =>
          rw [if_neg Bool.false_ne_true, Bool.false_or]
          split
          · rfl
          · cases readQuoted rest <;> rfl

theorem readQuoted_greeting (text : List Char) :
    readQuoted ("Hello ".toList ++ (stringText text ++ ['\''])) =
      if text.any isBreak then .error .lineBreak else .ok ("Hello ".toList ++ text) := by
  have hhello : "Hello ".toList = stringText "Hello ".toList := by decide
  have hplain : "Hello ".toList.any isBreak = false := by decide
  rw [hhello, readQuoted_stringText, hplain, if_neg Bool.false_ne_true, readQuoted_stringText,
    ← hhello]
  split
  · rfl
  · show Except.ok ("Hello ".toList ++ (text ++ [])) = _
    rw [List.append_nil]

/-- A scaffold up to the argument of `send`. -/
def beforeGreeting (scaffold : Scaffold) : List Char :=
  scaffold.header ++ line [] ++ line ("const " ++ scaffold.binding ++ " = \x7b").toList ++
    scaffold.accessLines ++ scaffold.schemaLines ++
    (line "    handler: (req, res) => \x7b".toList ++ "        res.send(".toList)

/-- A scaffold after the argument of `send`. -/
def afterGreeting (scaffold : Scaffold) : List Char :=
  line ");".toList ++ line "    \x7d".toList ++ line "\x7d;".toList ++ line [] ++
    (lastLine scaffold.style scaffold.method).toList

theorem handlerLines_eq (scaffold : Scaffold) :
    scaffold.handlerLines =
      line "    handler: (req, res) => \x7b".toList ++ "        res.send(".toList ++
        (scaffold.greeting ++ (line ");".toList ++ line "    \x7d".toList)) := by
  have hopen : "        res.send('Hello ".toList =
      "        res.send(".toList ++ '\'' :: "Hello ".toList := by decide
  have hclose : "');".toList = '\'' :: ");".toList := by decide
  rw [handlerLines, hopen, hclose, greeting, line, line, line, line]
  simp only [List.append_assoc, List.cons_append, List.nil_append]

theorem toList_text_eq_greeting (scaffold : Scaffold) :
    scaffold.text.toList = scaffold.beforeGreeting ++ scaffold.greeting ++ scaffold.afterGreeting := by
  rw [toList_text, bodyChars, handlerLines_eq, beforeGreeting, afterGreeting]
  simp only [List.append_assoc]

/-- What a scaffold sends is a literal of the greeting for its path, if no line break stands in the path; else it is
not a literal, as the line break stands in it unescaped. -/
theorem readLiteral_greeting (scaffold : Scaffold) :
    scaffold.text.toList = scaffold.beforeGreeting ++ scaffold.greeting ++ scaffold.afterGreeting ∧
      readLiteral scaffold.greeting =
        if scaffold.mapped.toList.any isBreak then .error .lineBreak
        else .ok ("Hello ".toList ++ scaffold.mapped.toList) :=
  ⟨toList_text_eq_greeting scaffold, readQuoted_greeting _⟩

/-- A module for a path with a line feed. -/
def brokenScaffold : Scaffold where
  file := "get.ts"
  method := .get
  template := "/a\nb"
  mapped := "/a\nb"
  access := none
  schema := none
  style := .staticExport

/-- The greeting for a path with a line feed is no literal. -/
theorem readLiteral_greeting_broken :
    brokenScaffold.greeting = "'Hello /a\nb'".toList ∧
      readLiteral brokenScaffold.greeting = .error .lineBreak ∧
      readLiteral brokenScaffold.greeting ≠
        .ok ("Hello ".toList ++ brokenScaffold.mapped.toList) := by
  have hbreak : readLiteral brokenScaffold.greeting = .error .lineBreak := by decide
  refine ⟨by decide, hbreak, ?_⟩
  rw [hbreak]
  exact fun h => nomatch h

example : readLiteral "'Hello /it\\'s'".toList = .ok "Hello /it's".toList := by decide

end RouteScaffold.Scaffold
