/-!
# Positions and cursors

A position is a row and a column, both from one; only a line feed ends a row. A
cursor is what is left of a text together with the position where it begins.

* `Position.row_after`: the row after a word counts its line feeds.
* `Cursor.skip_skip`: moving on twice is moving on once by the sum, so every cursor
  reached from a text is the text's first cursor moved on by a number of characters.
-/

namespace Vitae.Markup

/-- A place in a text. -/
structure Position where
  row : Nat := 1
  col : Nat := 1
  deriving DecidableEq

namespace Position

/-- The position after a character. -/
def next (p : Position) (c : Char) : Position :=
  if c = '\n' then ⟨p.row + 1, 1⟩ else ⟨p.row, p.col + 1⟩

/-- The position after a word. -/
def after (p : Position) (word : List Char) : Position := word.foldl next p

/-- A position as messages give it. -/
def text (p : Position) : String := toString p.row ++ ":" ++ toString p.col

@[simp] theorem after_nil (p : Position) : p.after [] = p := rfl

@[simp] theorem after_cons (p : Position) (c : Char) (word : List Char) :
    p.after (c :: word) = (p.next c).after word := rfl

theorem after_append (p : Position) (u v : List Char) : p.after (u ++ v) = (p.after u).after v :=
  List.foldl_append

theorem row_after (p : Position) (word : List Char) :
    (p.after word).row = p.row + word.count '\n' := by
  induction word generalizing p with
  | nil => rfl
  | cons c word ih =>
    rw [after_cons, ih, List.count_cons]
    by_cases h : c = '\n'
    · simp only [next, h, if_true, beq_self_eq_true]
      omega
    · simp [next, h]

end Position

/-- What is left of a text, and the position where it begins. -/
structure Cursor where
  rest : List Char
  pos : Position := {}

namespace Cursor

/-- The cursor at the beginning of a text. -/
def ofString (text : String) : Cursor := { rest := text.toList }

/-- Moves on by a number of characters, to the end if fewer are left. -/
def skip (c : Cursor) (n : Nat) : Cursor := ⟨c.rest.drop n, c.pos.after (c.rest.take n)⟩

theorem skip_skip (c : Cursor) (m n : Nat) : (c.skip m).skip n = c.skip (m + n) := by
  simp only [skip, List.drop_drop, ← Position.after_append, List.take_add]

theorem length_rest_skip (c : Cursor) (n : Nat) :
    (c.skip n).rest.length = c.rest.length - n := by
  simp [skip]

end Cursor

end Vitae.Markup
