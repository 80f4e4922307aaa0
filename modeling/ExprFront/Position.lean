import ExprFront.Number.Numeral

/-!
# Positions in a text

A position is a line and a column, both counted from one in a scanned text. Positions of tokens
made by hand may be any integers, and a tab may be any number of columns wide.
-/

namespace ExprFront

/-- A line and a column. -/
structure Position where
  line : Int
  column : Int
  deriving DecidableEq

namespace Position

/-- The position of the first character of a text. -/
def first : Position := ⟨1, 1⟩

/-- The position after a character: a line feed begins a line, a tab is `tabSize` columns wide, and
a carriage return has no width. -/
def after (tabSize : Int) (p : Position) (c : Char) : Position :=
  if c = '\n' then ⟨p.line + 1, 1⟩
  else if c = '\t' then ⟨p.line, p.column + tabSize⟩
  else if c = '\r' then p
  else ⟨p.line, p.column + 1⟩

/-- The position after a text. -/
def afterAll (tabSize : Int) (p : Position) (text : List Char) : Position :=
  text.foldl (after tabSize) p

@[simp] theorem afterAll_nil (tabSize : Int) (p : Position) : p.afterAll tabSize [] = p := rfl

@[simp] theorem afterAll_cons (tabSize : Int) (p : Position) (c : Char) (text : List Char) :
    p.afterAll tabSize (c :: text) = (p.after tabSize c).afterAll tabSize text := rfl

@[simp] theorem afterAll_append (tabSize : Int) (p : Position) (s t : List Char) :
    p.afterAll tabSize (s ++ t) = (p.afterAll tabSize s).afterAll tabSize t :=
  List.foldl_append

/-- Do both parts of a position have a decimal text within the limit? -/
def isWritable (p : Position) : Bool :=
  Numeral.isWritable p.line && Numeral.isWritable p.column

theorem isWritable_iff {p : Position} : p.isWritable = true ↔
    Numeral.isWritable p.line = true ∧ Numeral.isWritable p.column = true := by
  unfold isWritable
  exact Bool.and_eq_true_iff

/-- The first column of a line that has no decimal text within the limit. -/
def farColumn : Nat := Nat.pow 10 Numeral.digitLimit

theorem isWritable_farColumn (line : Int) : (⟨line, farColumn⟩ : Position).isWritable = false := by
  have hcolumn : Numeral.isWritable farColumn = false := by
    unfold Numeral.isWritable farColumn
    rw [Int.natAbs_natCast]
    exact decide_eq_false (Nat.lt_irrefl _)
  unfold isWritable
  rw [hcolumn, Bool.and_false]

end Position

end ExprFront
