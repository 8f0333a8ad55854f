import Mathlib.Algebra.Order.Group.Int
import Vitae.Proofs.Json.Layout

/-!
# The lines of written JSON

Each line of a written value stands two blanks in for each bracket that is open where the line
begins. A bracket that closes stands with the line of the one that it closes.

* `Indented`: lines that stand so, with no bracket open after the last.
* `indented_layout`: **the lines of every written value do.**
-/

namespace Vitae.Json

open Text (cut cut_append_cons cut_of_not_mem)

variable {depth : ℤ} {ps qs : List Piece} {p : Piece}

/-- How many brackets more are open after a piece than before it. -/
def Piece.turn : Piece → ℤ
  | .mark '[' | .mark '{' => 1
  | .mark ']' | .mark '}' => -1
  | _ => 0

/-- How many brackets more are open after a run of pieces than before it. -/
def nesting : List Piece → ℤ
  | [] => 0
  | p :: ps => p.turn + nesting ps

/-- What begins with two blanks for each open bracket, one that it closes at once left out. -/
def StandsAt (depth : ℤ) (ps : List Piece) : Prop :=
  ∃ (level : ℕ) (first : Piece) (rest : List Piece),
    ps = marks (List.replicate (2 * level) ' ') ++ first :: rest ∧
      first ≠ .mark ' ' ∧ first ≠ .mark '\n' ∧ level = depth + min first.turn 0

/-- Lines after which no bracket is open, each of which stands by the brackets open before it. -/
def Indented : ℤ → List (List Piece) → Prop
  | depth, [] => depth = 0
  | depth, row :: rows => StandsAt depth row ∧ Indented (depth + nesting row) rows

theorem nesting_nil : nesting [] = 0 := rfl

theorem nesting_cons (p : Piece) (ps : List Piece) : nesting (p :: ps) = p.turn + nesting ps := rfl

theorem nesting_append (ps qs : List Piece) : nesting (ps ++ qs) = nesting ps + nesting qs := by
  induction ps with
  | nil => exact (Int.zero_add _).symm
  | cons p ps ih => rw [List.cons_append, nesting_cons, ih, nesting_cons, Int.add_assoc]

theorem nesting_blanks (n : ℕ) : nesting (marks (List.replicate n ' ')) = 0 := by
  induction n with
  | zero => rfl
  | succ n ih =>
    rw [List.replicate_succ, marks, List.map_cons, nesting_cons, ← marks, ih]
    rfl

theorem nesting_newline (level : ℕ) : nesting (marks (newline level)) = 0 := by
  rw [newline, marks, List.map_cons, nesting_cons, ← marks, nesting_blanks]
  rfl

theorem StandsAt.append (h : StandsAt depth ps) (qs : List Piece) : StandsAt depth (ps ++ qs) := by
  obtain ⟨level, first, rest, rfl, hfirst⟩ := h
  exact ⟨level, first, rest ++ qs, by rw [List.append_assoc, List.cons_append], hfirst⟩

/-- What stands at a depth still does when it is cut off at the end of its line. -/
theorem StandsAt.of_append (h : StandsAt depth (ps ++ .mark '\n' :: qs)) : StandsAt depth ps := by
  obtain ⟨level, first, rest, heq, hblank, hnewline, hlevel⟩ := h
  have hlead : Piece.mark '\n' ∉ marks (List.replicate (2 * level) ' ') ++ [first] := by
    unfold marks
    simp only [List.map_replicate, List.mem_append, List.mem_replicate, List.mem_singleton, not_or]
    exact ⟨fun h => absurd h.2 (by decide), hnewline.symm⟩
  rw [← List.singleton_append (l := rest), ← List.append_assoc] at heq
  rcases List.append_eq_append_iff.1 heq with ⟨as, has, hrest⟩ | ⟨bs, hbs, -⟩
  · -- the newline is not among the blanks, nor what comes right after them
    cases as with
    | nil =>
      rw [List.append_nil] at has
      exact ⟨level, first, [], has.symm, hblank, hnewline, hlevel⟩
    | cons a as =>
      obtain ⟨rfl, -⟩ := List.cons.inj hrest
      exact absurd (has ▸ List.mem_append_right ps List.mem_cons_self) hlead
  · exact ⟨level, first, bs, by rw [hbs, List.append_assoc, List.singleton_append], hblank, hnewline, hlevel⟩

/-! ## Runs of pieces in which every newline is followed by the right blanks -/

/-- A run of pieces after each newline of which something stands as it has to. -/
def Aligned (depth : ℤ) (ps : List Piece) : Prop :=
  ∀ before after, ps = before ++ .mark '\n' :: after → StandsAt (depth + nesting before) after

theorem aligned_of_not_mem (h : .mark '\n' ∉ ps) : Aligned depth ps := by
  rintro before after rfl
  exact absurd (List.mem_append_right before List.mem_cons_self) h

theorem Aligned.append (h : Aligned depth ps) (hqs : Aligned (depth + nesting ps) qs) : Aligned depth (ps ++ qs) := by
  intro before after heq
  rcases List.append_eq_append_iff.1 heq with ⟨as, rfl, has⟩ | ⟨bs, hbs, hafter⟩
  · rw [nesting_append, ← Int.add_assoc]
    exact hqs as after has
  · cases bs with
    | nil =>
      rw [List.append_nil] at hbs
      have hfirst := hqs [] after hafter.symm
      rw [hbs] at hfirst
      simpa [nesting] using hfirst
    | cons b bs =>
      obtain ⟨rfl, rfl⟩ := List.cons.inj hafter
      exact (h before bs hbs).append qs

/-- A new line with what stands on it. -/
theorem Aligned.line {level : ℕ} (h : Aligned depth ps) (hp : p ≠ .mark ' ') (hnewline : p ≠ .mark '\n')
    (hlevel : level = depth + min p.turn 0) (hps : ps.head? = some p) : Aligned depth (marks (newline level) ++ ps) := by
  have hblanks : Aligned depth (marks (List.replicate (2 * level) ' ') ++ ps) := by
    refine (aligned_of_not_mem ?_).append (by rw [nesting_blanks, Int.add_zero]; exact h)
    unfold marks
    rw [List.map_replicate, List.mem_replicate]
    exact fun hmem => absurd hmem.2 (by decide)
  obtain ⟨rest, rfl⟩ := List.head?_eq_some_iff.1 hps
  intro before after heq
  cases before with
  | nil =>
    obtain ⟨-, rfl⟩ := List.cons.inj heq
    exact ⟨level, p, rest, rfl, hp, hnewline, by rw [nesting_nil, Int.add_zero]; exact hlevel⟩
  | cons b before =>
    obtain ⟨rfl, hafter⟩ := List.cons.inj heq
    have hturn : Piece.turn (.mark '\n') = 0 := rfl
    rw [nesting_cons, hturn, Int.zero_add]
    exact hblanks before after hafter

/-- A run of pieces that closes what it opens, all of it on lines that stand as they have to. -/
structure Laid (depth : ℤ) (ps : List Piece) : Prop where
  balanced : nesting ps = 0
  aligned : Aligned depth ps

/-- What a member of an array or an object begins with: neither white space nor a bracket that closes. -/
def Begins (ps : List Piece) : Prop :=
  ∃ p, ps.head? = some p ∧ p ≠ .mark ' ' ∧ p ≠ .mark '\n' ∧ 0 ≤ p.turn

theorem Laid.append (h : Laid depth ps) (hqs : Laid depth qs) : Laid depth (ps ++ qs) where
  balanced := by rw [nesting_append, h.balanced, hqs.balanced, Int.add_zero]
  aligned := h.aligned.append (by rw [h.balanced, Int.add_zero]; exact hqs.aligned)

theorem Laid.line {level : ℕ} (h : Laid level ps) (hbegins : Begins ps) : Laid level (marks (newline level) ++ ps) where
  balanced := by rw [nesting_append, nesting_newline, h.balanced, Int.add_zero]
  aligned := by
    obtain ⟨p, hps, hblank, hnewline, hturn⟩ := hbegins
    exact h.aligned.line hblank hnewline (by rw [min_eq_right hturn, Int.add_zero]) hps

theorem laid_mark {c : Char} (hc : c ≠ '\n') (hturn : (Piece.mark c).turn = 0) : Laid depth [.mark c] where
  balanced := by rw [nesting_cons, hturn]; rfl
  aligned := aligned_of_not_mem fun h => hc (Piece.mark.inj (List.mem_singleton.1 h)).symm

/-- Members between brackets stand one level further in. -/
theorem Laid.enclosed {level : ℕ} {o c : Piece} (h : Laid (level + 1) ps) (ho : o.turn = 1) (hc : c.turn = -1) :
    Laid level (o :: (ps ++ marks (newline level) ++ [c])) where
  balanced := by
    rw [nesting_cons, nesting_append, nesting_append, nesting_cons, nesting_newline, h.balanced, ho, hc]
    rfl
  aligned := by
    have hopen : Piece.mark '\n' ∉ [o] := by
      intro hmem
      rw [← List.mem_singleton.1 hmem] at ho
      exact absurd ho (by decide)
    have hclose : Aligned (level + 1 : ℤ) [c] := by
      refine aligned_of_not_mem fun hmem => ?_
      rw [← List.mem_singleton.1 hmem] at hc
      exact absurd hc (by decide)
    have hlast : Aligned (level + 1 : ℤ) (marks (newline level) ++ [c]) := by
      refine hclose.line (p := c) ?_ ?_ ?_ rfl
      · rintro rfl
        exact absurd hc (by decide)
      · rintro rfl
        exact absurd hc (by decide)
      · rw [hc]
        omega
    rw [← List.singleton_append, List.append_assoc]
    refine (aligned_of_not_mem hopen).append ?_
    rw [nesting_cons, ho, nesting_nil, Int.add_zero]
    refine h.aligned.append ?_
    rw [h.balanced, Int.add_zero]
    exact hlast

/-! ## Values -/

theorem begins_layout (level : ℕ) (j : Json) : Begins (layout level j) := by
  cases j with
  | text s => exact ⟨.value, rfl, by decide, by decide, by decide⟩
  | array items => cases items <;> exact ⟨.mark '[', rfl, by decide, by decide, by decide⟩
  | object fields => cases fields <;> exact ⟨.mark '{', rfl, by decide, by decide, by decide⟩

theorem begins_field (key : String) (ps : List Piece) : Begins (keyPieces key ++ ps) :=
  ⟨.key _, rfl, nofun, nofun, Int.le_refl 0⟩

theorem laid_keyPieces (key : String) : Laid depth (keyPieces key) where
  balanced := rfl
  aligned := aligned_of_not_mem (by unfold keyPieces; simp)

mutual

/-- **A written value closes what it opens, on lines that stand as they have to.** -/
theorem laid_layout : ∀ (j : Json) (level : ℕ), Laid level (layout level j)
  | .text s, level => ⟨rfl, aligned_of_not_mem (by rw [layout]; decide)⟩
  | .array [], level => ⟨rfl, aligned_of_not_mem (by rw [layout]; decide)⟩
  | .array (item :: items), level => by
    have hitem := (laid_layout item (level + 1)).line (begins_layout (level + 1) item)
    have hmembers := hitem.append (laid_layoutItems items (level + 1))
    rw [layout]
    exact Laid.enclosed (by exact_mod_cast hmembers) rfl rfl
  | .object [], level => ⟨rfl, aligned_of_not_mem (by rw [layout]; decide)⟩
  | .object ((key, j) :: fields), level => by
    have hfield := ((laid_keyPieces key).append (laid_layout j (level + 1))).line (begins_field key _)
    have hmembers := hfield.append (laid_layoutFields fields (level + 1))
    rw [layout]
    exact Laid.enclosed (by exact_mod_cast hmembers) rfl rfl

theorem laid_layoutItems : ∀ (items : List Json) (level : ℕ), Laid level (layoutItems level items)
  | [], level => ⟨rfl, aligned_of_not_mem (by rw [layoutItems]; exact List.not_mem_nil)⟩
  | item :: items, level => by
    have hitem := (laid_layout item level).line (begins_layout level item)
    rw [layoutItems, ← List.singleton_append]
    exact (laid_mark (by decide) rfl).append (hitem.append (laid_layoutItems items level))

theorem laid_layoutFields : ∀ (fields : List (String × Json)) (level : ℕ), Laid level (layoutFields level fields)
  | [], level => ⟨rfl, aligned_of_not_mem (by rw [layoutFields]; exact List.not_mem_nil)⟩
  | (key, j) :: fields, level => by
    have hfield := ((laid_keyPieces key).append (laid_layout j level)).line (begins_field key _)
    rw [layoutFields, ← List.singleton_append]
    exact (laid_mark (by decide) rfl).append (hfield.append (laid_layoutFields fields level))

end

/-! ## Lines -/

theorem indented_cut (h : Aligned depth ps) (hps : StandsAt depth ps) (hclosed : depth + nesting ps = 0) :
    Indented depth (cut (.mark '\n') ps) := by
  induction hn : ps.length using Nat.strong_induction_on generalizing ps depth with
  | _ n ih =>
    by_cases hmem : Piece.mark '\n' ∈ ps
    · -- the first line, and what comes after it from the depth that the line leaves
      obtain ⟨row, after, rfl, hrow⟩ := List.eq_append_cons_of_mem hmem
      rw [cut_append_cons, cut_of_not_mem hrow]
      have hturn : Piece.turn (.mark '\n') = 0 := rfl
      have hafter : Aligned (depth + nesting row) after := by
        intro before last heq
        have hlast := h (row ++ .mark '\n' :: before) last (by rw [heq, List.append_assoc]; rfl)
        rw [nesting_append, nesting_cons, hturn, Int.zero_add, ← Int.add_assoc] at hlast
        exact hlast
      refine ⟨hps.of_append, ih after.length ?_ hafter (h row after rfl) ?_ rfl⟩
      · rw [← hn, List.length_append, List.length_cons]
        omega
      · rw [nesting_append, nesting_cons, hturn, Int.zero_add, ← Int.add_assoc] at hclosed
        exact hclosed
    · rw [cut_of_not_mem hmem]
      exact ⟨hps, hclosed⟩

/-- **The lines of a written value stand by the brackets open before them.** -/
theorem indented_layout (j : Json) : Indented 0 (cut (.mark '\n') (layout 0 j)) := by
  have hlaid := laid_layout j 0
  obtain ⟨p, hp, hblank, hnewline, hturn⟩ := begins_layout 0 j
  obtain ⟨rest, hrest⟩ := List.head?_eq_some_iff.1 hp
  refine indented_cut hlaid.aligned ⟨0, p, rest, hrest, hblank, hnewline, ?_⟩ ?_
  · rw [min_eq_right hturn]
    rfl
  · rw [hlaid.balanced]
    rfl

end Vitae.Json
