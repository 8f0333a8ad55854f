import Mathlib.Data.List.Basic
import Vitae.Json
import Vitae.Text.Lines

/-!
# JSON text without its values

What is left of JSON text once every string that stands for a value is taken for the same: the
characters outside quotes, and the keys. Quotes open and close as RFC 8259 has it, a backslash
guards the character after it, and a control character is refused within quotes.

* `outline`: what is left of a text, or of a line of it.
* `map_outline_cut`: **lines can be looked at one by one**, for no quotes are open where one ends.
* `newline_of_outline`: **the only control character is the newline**, and it stands outside quotes.
-/

namespace Vitae.Json

open Text (cut cutParts cutParts_cons cutBefore)

/-- A part of JSON text: a character outside quotes, a string that a colon follows, as it is
written, or one that none follows, whatever it is. -/
inductive Piece where
  | mark (c : Char)
  | key (written : List Char)
  | value
  deriving DecidableEq

/-- Where a reading stands: outside quotes, or within them, perhaps right after a backslash. -/
inductive Place where
  | outside
  | within (written : List Char)
  | escaped (written : List Char)

/-- What a string is, by what follows it. -/
def Piece.quoted (written after : List Char) : Piece :=
  if after.head? = some ':' then .key written else .value

/-- The pieces of a text that is read from a place on. -/
def pieces : Place → List Char → Option (List Piece)
  | .outside, [] => some []
  | .within _, [] => none
  | .escaped _, [] => none
  | .outside, c :: cs =>
    if c = '\"' then pieces (.within []) cs
    else if c.toNat < 0x20 ∧ c ≠ '\n' then none
    else (pieces .outside cs).map (.mark c :: ·)
  | .within w, c :: cs =>
    if c.toNat < 0x20 then none
    else if c = '\"' then (pieces .outside cs).map (.quoted w cs :: ·)
    else if c = '\\' then pieces (.escaped (w ++ [c])) cs
    else pieces (.within (w ++ [c])) cs
  | .escaped w, c :: cs =>
    if c.toNat < 0x20 then none else pieces (.within (w ++ [c])) cs

/-- What is left of a text without its values. -/
def outline (text : List Char) : Option (List Piece) := pieces .outside text

variable {c : Char} {w text : List Char} {ps : List Piece} {place : Place}

theorem toNat_newline : '\n'.toNat < 0x20 := by decide

/-! ## Lines -/

/-- The first line goes on as the text does, as far as a colon can tell. -/
theorem quoted_cutParts (w cs : List Char) : Piece.quoted w (cutParts '\n' cs).1 = .quoted w cs := by
  unfold Piece.quoted
  cases cs with
  | nil => rfl
  | cons c cs =>
    rw [cutParts_cons, cutBefore]
    by_cases hc : c = '\n'
    · subst hc
      rw [if_pos rfl, if_neg (by decide : ¬ ([] : List Char).head? = some ':'), if_neg (by rw [List.head?_cons]; decide)]
    · rw [if_neg hc]
      rfl

/-- A string is no character. -/
theorem quoted_ne_mark (w cs : List Char) (c : Char) : Piece.quoted w cs ≠ .mark c := by
  intro h
  unfold Piece.quoted at h
  split at h <;> cases h

/-- **A text that is read to its end is read line by line**: the first line from the same place,
all others from outside quotes. -/
theorem pieces_cutParts (h : pieces place text = some ps) :
    pieces place (cutParts '\n' text).1 = some (cutParts (.mark '\n') ps).1 ∧
      (cutParts '\n' text).2.map outline = (cutParts (.mark '\n') ps).2.map some := by
  induction text generalizing place ps with
  | nil =>
    cases place with
    | outside => cases h; exact ⟨rfl, rfl⟩
    | within _ | escaped _ => cases h
  | cons c cs ih =>
    cases place with
    | outside =>
      rw [pieces] at h
      split_ifs at h with hquote hcontrol
      · have hc : c ≠ '\n' := by rw [hquote]; decide
        rw [cutParts_cons, cutBefore, if_neg hc]
        refine ⟨?_, (ih h).2⟩
        rw [pieces, if_pos hquote]
        exact (ih h).1
      · obtain ⟨qs, hqs, rfl⟩ := Option.map_eq_some_iff.1 h
        obtain ⟨hfirst, hothers⟩ := ih hqs
        rw [cutParts_cons, cutParts_cons]
        by_cases hc : c = '\n'
        · -- the line ends here, and the one after it is the first of what follows
          subst hc
          rw [cutBefore, cutBefore, if_pos rfl, if_pos rfl]
          refine ⟨rfl, ?_⟩
          rw [List.map_cons, List.map_cons, hothers, outline, hfirst]
        · have hmark : Piece.mark c ≠ .mark '\n' := fun heq => hc (Piece.mark.inj heq)
          rw [cutBefore, cutBefore, if_neg hc, if_neg hmark]
          refine ⟨?_, hothers⟩
          rw [pieces, if_neg hquote, if_neg hcontrol, hfirst]
          rfl
    | within w =>
      rw [pieces] at h
      split_ifs at h with hcontrol hquote hslash
      all_goals
        have hc : c ≠ '\n' := fun heq => hcontrol (heq ▸ toNat_newline)
        rw [cutParts_cons, cutBefore, if_neg hc, pieces, if_neg hcontrol]
      · obtain ⟨qs, hqs, rfl⟩ := Option.map_eq_some_iff.1 h
        rw [cutParts_cons, cutBefore, if_neg (quoted_ne_mark w cs '\n'), if_pos hquote, quoted_cutParts, (ih hqs).1]
        exact ⟨rfl, (ih hqs).2⟩
      · rw [if_neg hquote, if_pos hslash]
        exact ih h
      · rw [if_neg hquote, if_neg hslash]
        exact ih h
    | escaped w =>
      rw [pieces] at h
      split_ifs at h with hcontrol
      have hc : c ≠ '\n' := fun heq => hcontrol (heq ▸ toNat_newline)
      rw [cutParts_cons, cutBefore, if_neg hc, pieces, if_neg hcontrol]
      exact ih h

/-- **The lines of a text are left with the lines of what is left of the text.** -/
theorem map_outline_cut (h : outline text = some ps) :
    (cut '\n' text).map outline = (cut (.mark '\n') ps).map some := by
  obtain ⟨hfirst, hothers⟩ := pieces_cutParts h
  rw [cut, cut, List.map_cons, List.map_cons, hothers, outline, hfirst]

/-! ## Control characters -/

/-- A character that is read on: a control character only outside quotes, as a newline. -/
theorem pieces_cons (h : pieces place (c :: text) = some ps) :
    (c.toNat < 0x20 → c = '\n' ∧ place = .outside) ∧ ∃ next qs, pieces next text = some qs := by
  cases place with
  | outside =>
    rw [pieces] at h
    split_ifs at h with hquote hcontrol
    · refine ⟨fun hc => ?_, _, ps, h⟩
      rw [hquote] at hc
      exact absurd hc (by decide)
    · obtain ⟨qs, hqs, -⟩ := Option.map_eq_some_iff.1 h
      exact ⟨fun hc => ⟨by_contra fun hne => hcontrol ⟨hc, hne⟩, rfl⟩, _, qs, hqs⟩
  | within w =>
    rw [pieces] at h
    split_ifs at h with hcontrol
    · obtain ⟨qs, hqs, -⟩ := Option.map_eq_some_iff.1 h
      exact ⟨fun hc => absurd hc hcontrol, _, qs, hqs⟩
    · exact ⟨fun hc => absurd hc hcontrol, _, ps, h⟩
    · exact ⟨fun hc => absurd hc hcontrol, _, ps, h⟩
  | escaped w =>
    rw [pieces] at h
    split_ifs at h with hcontrol
    exact ⟨fun hc => absurd hc hcontrol, _, ps, h⟩

theorem newline_of_pieces (h : pieces place text = some ps) (hc : c ∈ text) (hcontrol : c.toNat < 0x20) :
    c = '\n' := by
  induction text generalizing place ps with
  | nil => cases hc
  | cons d text ih =>
    obtain ⟨hd, next, qs, hqs⟩ := pieces_cons h
    rcases List.mem_cons.1 hc with rfl | hc
    · exact (hd hcontrol).1
    · exact ih hqs hc

/-- **A control character in a text that is read to its end is a newline.** -/
theorem newline_of_outline (h : outline text = some ps) (hc : c ∈ text) (hcontrol : c.toNat < 0x20) : c = '\n' :=
  newline_of_pieces h hc hcontrol

end Vitae.Json
