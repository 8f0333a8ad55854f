/-!
# Lines

Cutting texts, of characters or of bytes, apart at a mark, and putting lines together.

* `cut_append_cons`: texts on both sides of a mark are cut each on its own.
* `takeWhile_word`, `dropWhile_word`: a word ends where characters of another kind begin.
* `cut_unlines`: lines that were put together are cut apart again.
-/

namespace Vitae.Text

variable {α : Type} [DecidableEq α]

/-- Puts a character before the parts that follow it: a mark opens a new part. -/
def cutBefore (mark c : α) (parts : List α × List (List α)) : List α × List (List α) :=
  if c = mark then ([], parts.1 :: parts.2) else (c :: parts.1, parts.2)

/-- Cuts a text at a mark: the part before the first mark, and the parts after each. -/
def cutParts (mark : α) (text : List α) : List α × List (List α) :=
  text.foldr (cutBefore mark) ([], [])

theorem cutParts_cons (mark c : α) (text : List α) :
    cutParts mark (c :: text) = cutBefore mark c (cutParts mark text) := rfl

/-- The parts of a text between marks, one more than there are marks. -/
def cut (mark : α) (text : List α) : List (List α) :=
  (cutParts mark text).1 :: (cutParts mark text).2

/-- A part without the mark is put before the first part of what follows. -/
theorem cutParts_append {mark : α} {part : List α} (h : mark ∉ part) (text : List α) :
    cutParts mark (part ++ text) = (part ++ (cutParts mark text).1, (cutParts mark text).2) := by
  induction part with
  | nil => rfl
  | cons c part ih =>
    rw [List.mem_cons, not_or] at h
    rw [List.cons_append, cutParts_cons, ih h.2, cutBefore, if_neg (Ne.symm h.1)]
    rfl

theorem cut_of_not_mem {mark : α} {part : List α} (h : mark ∉ part) : cut mark part = [part] := by
  have hparts := cutParts_append h []
  rw [List.append_nil] at hparts
  rw [cut, hparts]
  show [part ++ []] = [part]
  rw [List.append_nil]

/-- Texts on both sides of a mark are cut each on its own. -/
theorem cut_append_cons (mark : α) (text more : List α) :
    cut mark (text ++ mark :: more) = cut mark text ++ cut mark more := by
  have hparts : cutParts mark (text ++ mark :: more) =
      ((cutParts mark text).1, (cutParts mark text).2 ++ cut mark more) := by
    induction text with
    | nil =>
      rw [List.nil_append, cutParts_cons, cutBefore, if_pos rfl]
      rfl
    | cons c text ih =>
      rw [List.cons_append, cutParts_cons, ih, cutParts_cons, cutBefore, cutBefore]
      split <;> rfl
  rw [cut, hparts]
  rfl

section

variable {p : Char → Bool} {x : Char} {word rest : List Char}

/-- A word ends before the first character that is not of its kind. -/
theorem takeWhile_word (hword : ∀ c ∈ word, p c) (hrest : rest.head? = some x) (hx : p x = false) :
    (word ++ rest).takeWhile p = word := by
  obtain ⟨rest, rfl⟩ := List.head?_eq_some_iff.1 hrest
  rw [List.takeWhile_append_of_pos hword, List.takeWhile_cons_of_neg (by rw [hx]; exact Bool.false_ne_true),
    List.append_nil]

theorem dropWhile_word (hword : ∀ c ∈ word, p c) (hrest : rest.head? = some x) (hx : p x = false) :
    (word ++ rest).dropWhile p = rest := by
  obtain ⟨rest, rfl⟩ := List.head?_eq_some_iff.1 hrest
  rw [List.dropWhile_append_of_pos hword, List.dropWhile_cons_of_neg (by rw [hx]; exact Bool.false_ne_true)]

end

/-- Writes strings one per line, each ended by a line feed. -/
def unlines (lines : List String) : String := String.join (lines.map (· ++ "\n"))

theorem unlines_cons (line : String) (lines : List String) :
    unlines (line :: lines) = line ++ "\n" ++ unlines lines := by
  unfold unlines
  rw [List.map_cons, String.join_cons]

/-- Lines that were put together are cut apart again, and what comes after them on its own. -/
theorem cut_unlines {lines : List String} (h : ∀ line ∈ lines, '\n' ∉ line.toList) (rest : List Char) :
    cut '\n' ((unlines lines).toList ++ rest) = lines.map String.toList ++ cut '\n' rest := by
  induction lines with
  | nil => rfl
  | cons line lines ih =>
    obtain ⟨hline, hlines⟩ := List.forall_mem_cons.1 h
    have hfirst : (unlines (line :: lines)).toList ++ rest =
        line.toList ++ '\n' :: ((unlines lines).toList ++ rest) := by
      rw [unlines_cons, String.toList_append, String.toList_append]
      simp
    rw [hfirst, cut_append_cons, cut_of_not_mem hline, ih hlines]
    rfl

/-- A text in which each line after the first is moved in by a width. -/
def indent (width : Nat) (text : String) : String :=
  String.ofList <| text.toList.flatMap fun c =>
    if c = '\n' then '\n' :: List.replicate width ' ' else [c]

end Vitae.Text
