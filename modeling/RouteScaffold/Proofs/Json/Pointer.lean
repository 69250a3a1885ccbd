import RouteScaffold.Json.Pointer
import RouteScaffold.Proofs.Text.Pieces

/-!
# Pointers of plain names

A name is plain when it stands for itself as a token of a pointer: it has no slash, and nothing in it
is read as another character.  A pointer that is made of plain names goes from key to key
(`pointer?_of_isPlain`).
-/

namespace RouteScaffold.Json

/-- A name stands for itself as a token of a pointer. -/
def IsPlain (name : List Char) : Prop := '/' ∉ name ∧ unescapeToken name = name

theorem slashes_of_not_mem {text : List Char} (h : '~' ∉ text) : unescapeToken.slashes text = text := by
  fun_induction unescapeToken.slashes text with
  | case1 rest ih => simp at h
  | case2 c rest _ ih =>
      rw [List.mem_cons, not_or] at h
      rw [ih h.2]
  | case3 => rfl

theorem tildes_of_not_mem {text : List Char} (h : '~' ∉ text) : unescapeToken.tildes text = text := by
  fun_induction unescapeToken.tildes text with
  | case1 rest ih => simp at h
  | case2 c rest _ ih =>
      rw [List.mem_cons, not_or] at h
      rw [ih h.2]
  | case3 => rfl

/-- A name without slashes and tildes is plain. -/
theorem isPlain_of_not_mem {name : List Char} (hslash : '/' ∉ name) (htilde : '~' ∉ name) : IsPlain name :=
  ⟨hslash, by rw [unescapeToken, slashes_of_not_mem htilde, tildes_of_not_mem htilde]⟩

/-- The pointer with some names as its tokens. -/
def pointerOf (names : List (List Char)) : List Char := names.flatMap fun name => '/' :: name

theorem pointerOf_cons (name : List Char) (names : List (List Char)) :
    pointerOf (name :: names) = '/' :: (name ++ pointerOf names) := rfl

theorem slashPieces_pointerOf {name : List Char} {names : List (List Char)}
    (h : ∀ other ∈ name :: names, '/' ∉ other) :
    Text.slashPieces (name ++ pointerOf names) = name :: names := by
  induction names generalizing name with
  | nil =>
      have hname : '/' ∉ name := h name List.mem_cons_self
      rw [show pointerOf [] = [] from rfl, List.append_nil]
      exact Text.slashPieces_of_not_mem hname
  | cons next rest ih =>
      obtain ⟨hname, hrest⟩ := List.forall_mem_cons.mp h
      rw [pointerOf_cons, Text.slashPieces_append_slash, Text.slashPieces_of_not_mem hname, ih hrest]
      rfl

theorem pointer?_of_isPlain {names : List (List Char)} (h : ∀ name ∈ names, IsPlain name)
    (tree : Json) : tree.pointer? (pointerOf names) = tree.descend? names := by
  cases names with
  | nil => rfl
  | cons name rest =>
      have hpieces : Text.slashPieces (name ++ pointerOf rest) = name :: rest :=
        slashPieces_pointerOf fun other hother => (h other hother).1
      have hescape : (name :: rest).map unescapeToken = name :: rest :=
        (List.map_congr_left fun other hother => (h other hother).2).trans (List.map_id _)
      rw [pointerOf_cons, pointer?, hpieces, hescape]

/-- A token that is no index selects by key. -/
theorem child?_of_tokenIndex?_eq_none {token : List Char} (h : tokenIndex? token = none)
    (tree : Json) : tree.child? token = tree.get? (String.ofList token) := by
  cases tree with
  | obj members => rfl
  | arr items => simp [child?, h, get?, members]
  | _ => rfl

end RouteScaffold.Json
