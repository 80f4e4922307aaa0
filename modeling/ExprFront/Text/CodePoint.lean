import ExprFront.Text.Quoted

/-!
# Code points

A text is made of characters, and one that comes from outside may also hold surrogates, which are code
points but no characters. Surrogates are in no class of characters. Each is read as U+FFFF, which is set
aside as no character either, and it is shown by its own escape.
-/

namespace ExprFront

/-- A code point that is no character. -/
structure Surrogate where
  code : Nat
  least : 0xD800 ≤ code
  greatest : code ≤ 0xDFFF
  deriving DecidableEq

/-- A code point. -/
inductive CodePoint where
  | char (c : Char)
  | surrogate (s : Surrogate)
  deriving DecidableEq

/-- What is shown of a text: the text, or the one surrogate in it. -/
inductive Shown where
  | text (content : String)
  | surrogate (s : Surrogate)
  deriving DecidableEq

namespace Shown

/-- What is shown, without quotes. -/
def spelling : Shown → String
  | .text content => content
  | .surrogate s => String.ofList (Quoted.escapeCode s.code)

/-- What is shown, between its quotes. -/
def quoted : Shown → String
  | .text content => ExprFront.quoted content
  | .surrogate s => String.ofList ('\'' :: Quoted.escapeCode s.code ++ ['\''])

instance : Coe String Shown := ⟨text⟩

instance : Coe (Option String) (Option Shown) := ⟨Option.map text⟩

instance : Coe Shown String := ⟨spelling⟩

end Shown

/-- What texts are made of. A unit is read as its face and shown as itself. The faces of a whole text
are given as well, so that a text of characters is its own row of faces. -/
class TextUnit (α : Type) where
  face : α → Char
  faces : List α → List Char
  shown : α → Shown
  faces_eq_map (text : List α) : faces text = text.map face

export TextUnit (face faces)

instance : TextUnit Char where
  face c := c
  faces text := text
  shown c := String.singleton c
  faces_eq_map text := (List.map_id text).symm

/-- The character that a code point is read as. -/
def CodePoint.face : CodePoint → Char
  | .char c => c
  | .surrogate _ => '\uFFFF'

instance : TextUnit CodePoint where
  face := CodePoint.face
  faces := List.map CodePoint.face
  shown
    | .char c => String.singleton c
    | .surrogate s => .surrogate s
  faces_eq_map _ := rfl

/-! ## Faces -/

@[simp] theorem face_char (c : Char) : face c = c := rfl

@[simp] theorem faces_chars (text : List Char) : faces text = text := rfl

section

variable {α : Type} [TextUnit α]

@[simp] theorem faces_nil : faces ([] : List α) = [] := TextUnit.faces_eq_map []

@[simp] theorem faces_cons (u : α) (text : List α) : faces (u :: text) = face u :: faces text := by
  rw [TextUnit.faces_eq_map, TextUnit.faces_eq_map, List.map_cons]

@[simp] theorem faces_append (text text' : List α) :
    faces (text ++ text') = faces text ++ faces text' := by
  simp only [TextUnit.faces_eq_map, List.map_append]

@[simp] theorem length_faces (text : List α) : (faces text).length = text.length := by
  rw [TextUnit.faces_eq_map, List.length_map]

theorem head?_faces (text : List α) : (faces text).head? = text.head?.map face := by
  rw [TextUnit.faces_eq_map, List.head?_map]

theorem faces_eq_cons_iff {text : List α} {c : Char} {rest : List Char} :
    faces text = c :: rest ↔ ∃ u units, text = u :: units ∧ face u = c ∧ faces units = rest := by
  simp only [TextUnit.faces_eq_map, List.map_eq_cons_iff]

theorem takeWhile_faces (p : Char → Bool) (text : List α) :
    (faces text).takeWhile p = faces (text.takeWhile (p ∘ face)) := by
  simp only [TextUnit.faces_eq_map, List.takeWhile_map]

theorem dropWhile_faces (p : Char → Bool) (text : List α) :
    (faces text).dropWhile p = faces (text.dropWhile (p ∘ face)) := by
  simp only [TextUnit.faces_eq_map, List.dropWhile_map]

end

end ExprFront
