import Mathlib.Data.List.Basic
import Vitae.Config.Dotenv

/-!
# What a file of variables assigns

A file is read statement by statement, each of them a line, or several of them where a quote stays
open. What it assigns to a name is what the first of them assigns that comes before any that cannot
be read.

* `statements_lines`: **a line that leaves no quote open is a statement**, but for its comment.
* `lookup_assignments`: **the first assignment counts**, and nothing after a malformed statement.
* `assignments_append`: **what is added after the last line takes nothing back.**
-/

namespace Vitae.Dotenv

variable {vars : Variables} {name value : String} {standing : Standing} {line text : List Char}
  {texts : List (List Char)}

/-! ## Lines -/

/-- Where the cut through a file stands after a line and its end. -/
def Standing.afterLine (standing : Standing) (line : List Char) : Standing := (line ++ ['\n']).foldl next standing

/-- A line after which no quote is open. -/
def Closed (line : List Char) : Prop := (Standing.start.afterLine line).mayEnd

/-- A line up to its comment. -/
def uncommented (standing : Standing) : List Char → List Char
  | [] => []
  | c :: line =>
    let after := standing.next c
    if after = .remark then [] else c :: uncommented after line

theorem uncommented_remark (line : List Char) : uncommented .remark line = [] := by
  cases line <;> rfl

theorem cutStatements_line (hline : '\n' ∉ line) (hends : (standing.afterLine line).mayEnd) (text : List Char) :
    cutStatements standing (line ++ '\n' :: text) = uncommented standing line :: cutStatements .start text := by
  induction line generalizing standing with
  | nil =>
    rw [List.nil_append, cutStatements]
    exact if_pos (Bool.and_eq_true_iff.2 ⟨by decide, hends⟩)
  | cons c line ih =>
    obtain ⟨hc, hline⟩ := not_or.1 (mt List.mem_cons.2 hline)
    have hrest : cutStatements (standing.next c) (line ++ '\n' :: text) =
        uncommented (standing.next c) line :: cutStatements .start text := ih hline hends
    have hgoes : ¬ (c = '\n' && (standing.next c).mayEnd) = true := by simp [Ne.symm hc]
    rw [List.cons_append, cutStatements, uncommented]
    rw [if_neg hgoes, hrest]
    split
    · rename_i hremark
      rw [hremark, uncommented_remark]
    · rfl

/-- **Lines that leave no quote open are statements**, each without its comment. -/
theorem statements_lines {lines : List (List Char)} (h : ∀ line ∈ lines, '\n' ∉ line ∧ Closed line) (text : List Char) :
    statements (lines.flatMap (· ++ ['\n']) ++ text) = lines.map (uncommented .start) ++ statements text := by
  induction lines with
  | nil => rfl
  | cons line lines ih =>
    obtain ⟨⟨hline, hclosed⟩, hlines⟩ := List.forall_mem_cons.1 h
    rw [List.flatMap_cons, List.append_assoc, List.append_assoc, statements, List.singleton_append,
      cutStatements_line hline hclosed, ← statements, ih hlines, List.map_cons, List.cons_append]

/-! ## Assignments -/

/-- The variables after a statement. -/
def Statement.extend (vars : Variables) : Statement → Variables
  | .assign key value => vars ++ [(key, value)]
  | .nothing | .malformed => vars

/-- What each of some statements says, whether all before it can be read or not. -/
def readings (vars : Variables) : List (List Char) → List Statement
  | [] => []
  | text :: texts =>
    let said := Statement.ofText vars text
    said :: readings (said.extend vars) texts

/-- A statement that leaves it to later ones what a name stands for. -/
def Statement.Passes (name : String) (said : Statement) : Prop :=
  said ≠ .malformed ∧ ∀ value, said ≠ .assign name value

/-- The first statement to assign a name assigns it this value, and all before it can be read. -/
def FirstAssigned (name value : String) (said : List Statement) : Prop :=
  ∃ before after, said = before ++ .assign name value :: after ∧ ∀ s ∈ before, s.Passes name

theorem not_firstAssigned_nil : ¬ FirstAssigned name value [] := by
  rintro ⟨before, after, h, -⟩
  exact List.append_ne_nil_of_right_ne_nil before (List.cons_ne_nil _ after) h.symm

theorem firstAssigned_cons {s : Statement} {said : List Statement} :
    FirstAssigned name value (s :: said) ↔
      s = .assign name value ∨ s.Passes name ∧ FirstAssigned name value said := by
  constructor
  · rintro ⟨before, after, h, hpasses⟩
    cases before with
    | nil => exact Or.inl (List.cons.inj h).1
    | cons b before =>
      obtain ⟨rfl, rfl⟩ := List.cons.inj h
      obtain ⟨hs, hbefore⟩ := List.forall_mem_cons.1 hpasses
      exact Or.inr ⟨hs, before, after, rfl, hbefore⟩
  · rintro (rfl | ⟨hs, before, after, rfl, hbefore⟩)
    · exact ⟨[], said, rfl, nofun⟩
    · exact ⟨s :: before, after, rfl, List.forall_mem_cons.2 ⟨hs, hbefore⟩⟩

/-- **What a file says of a name is what its first assignment says.** -/
theorem lookup_assignedBy (vars : Variables) (texts : List (List Char)) (name value : String) :
    (assignedBy vars texts).lookup name = some value ↔ FirstAssigned name value (readings vars texts) := by
  induction texts generalizing vars with
  | nil => exact iff_of_false nofun not_firstAssigned_nil
  | cons text texts ih =>
    rw [assignedBy, readings, firstAssigned_cons]
    cases Statement.ofText vars text with
    | nothing =>
      rw [or_iff_right nofun, and_iff_right ⟨nofun, nofun⟩]
      exact ih vars
    | malformed =>
      refine iff_of_false nofun ?_
      rintro (h | ⟨h, -⟩)
      · cases h
      · exact h.1 rfl
    | assign key said =>
      by_cases hkey : name = key
      · subst hkey
        have hpasses : ¬ (Statement.assign name said).Passes name := fun h => h.2 said rfl
        simp only [List.lookup_cons_self, Option.some.injEq, Statement.assign.injEq, true_and, hpasses, false_and,
          or_false]
      · have hpasses : (Statement.assign key said).Passes name :=
          ⟨nofun, fun w h => hkey (Statement.assign.inj h).1.symm⟩
        rw [or_iff_right fun h => hkey (Statement.assign.inj h).1.symm, and_iff_right hpasses, List.lookup_cons,
          beq_eq_false_iff_ne.2 hkey]
        exact ih (vars ++ [(key, said)])

/-- A file without the mark that may stand before its first statement. -/
def unmarked (text : String) : List Char :=
  if text.toList.head? = some byteOrderMark then text.toList.tail else text.toList

theorem lookup_assignments (environment : Variables) (text name value : String) :
    (assignments environment text).lookup name = some value ↔
      FirstAssigned name value (readings environment (statements (unmarked text))) :=
  lookup_assignedBy environment _ name value

/-! ## More lines -/

/-- What is cut from a text that ends with its line stays as it is when more follows, but for the
empty statement after the last line. -/
theorem cutStatements_append (standing : Standing) (text more : List Char) :
    ∃ cut, cut <+: cutStatements standing (text ++ '\n' :: more) ∧
      (cutStatements standing (text ++ ['\n']) = cut ∨
        cut ≠ [] ∧ cutStatements standing (text ++ ['\n']) = cut ++ [[]]) := by
  induction text generalizing standing with
  | nil =>
    rw [List.nil_append, List.nil_append, cutStatements, cutStatements]
    split
    · exact ⟨[[]], ⟨_, rfl⟩, Or.inr ⟨List.cons_ne_nil _ _, rfl⟩⟩
    · -- a quote is open, so that nothing is cut yet
      rename_i hopen
      have hends : (standing.next '\n').mayEnd = false := by simpa using hopen
      have hremark : standing.next '\n' ≠ .remark := fun h => by rw [h] at hends; cases hends
      have hlast : cutStatements (standing.next '\n') [] = [] := if_neg (by rw [hends]; decide)
      rw [if_neg hremark, if_neg hremark, hlast]
      exact ⟨[], List.nil_prefix, Or.inl rfl⟩
  | cons c text ih =>
    rw [List.cons_append, List.cons_append, cutStatements, cutStatements]
    split
    · obtain ⟨cut, hcut, h | ⟨-, h⟩⟩ := ih .start
      · exact ⟨[] :: cut, List.cons_prefix_cons.2 ⟨rfl, hcut⟩, Or.inl (by rw [h])⟩
      · exact ⟨[] :: cut, List.cons_prefix_cons.2 ⟨rfl, hcut⟩, Or.inr ⟨List.cons_ne_nil _ _, by rw [h]; rfl⟩⟩
    · obtain ⟨cut, hcut, h⟩ := ih (standing.next c)
      split
      · exact ⟨cut, hcut, h⟩
      · cases cut with
        | nil =>
          rcases h with h | ⟨hnil, -⟩
          · exact ⟨[], List.nil_prefix, Or.inl (by rw [h]; rfl)⟩
          · exact absurd rfl hnil
        | cons first cut =>
          obtain ⟨rest, hrest⟩ := hcut
          refine ⟨(c :: first) :: cut, ⟨rest, by rw [← hrest]; rfl⟩, ?_⟩
          rcases h with h | ⟨-, h⟩
          · exact Or.inl (by rw [h]; rfl)
          · exact Or.inr ⟨List.cons_ne_nil _ _, by rw [h]; rfl⟩

theorem assignedBy_append (vars : Variables) (texts more : List (List Char)) :
    assignedBy vars texts <+: assignedBy vars (texts ++ more) := by
  induction texts generalizing vars with
  | nil => exact List.nil_prefix
  | cons text texts ih =>
    rw [List.cons_append, assignedBy, assignedBy]
    split
    · exact ih vars
    · exact List.cons_prefix_cons.2 ⟨rfl, ih _⟩
    · exact List.nil_prefix

/-- An empty statement at the end assigns nothing. -/
theorem assignedBy_append_empty (vars : Variables) (texts : List (List Char)) :
    assignedBy vars (texts ++ [[]]) = assignedBy vars texts := by
  induction texts generalizing vars with
  | nil => rfl
  | cons text texts ih =>
    rw [List.cons_append, assignedBy, assignedBy]
    split
    · exact ih vars
    · rw [ih]
    · rfl

theorem unmarked_append (body more : String) :
    unmarked (body ++ "\n" ++ more) = unmarked body ++ '\n' :: more.toList := by
  have hnewline : "\n".toList = ['\n'] := rfl
  unfold unmarked
  rw [String.toList_append, String.toList_append, hnewline, List.append_assoc, List.singleton_append]
  cases body.toList with
  | nil => rfl
  | cons c cs =>
    have hhead : (c :: cs ++ '\n' :: more.toList).head? = (c :: cs).head? := rfl
    by_cases hmark : (c :: cs).head? = some byteOrderMark
    · rw [if_pos (hhead.trans hmark), if_pos hmark]
      rfl
    · rw [if_neg (hhead ▸ hmark), if_neg hmark]

/-- **What follows the last line of a file takes nothing back that the file assigns.** -/
theorem assignments_append (environment : Variables) (body more : String) :
    assignments environment (body ++ "\n") <+: assignments environment (body ++ "\n" ++ more) := by
  obtain ⟨cut, ⟨rest, hrest⟩, hcut⟩ := cutStatements_append .start (unmarked body) more.toList
  have hassignments : ∀ more, assignments environment (body ++ "\n" ++ more) =
      assignedBy environment (cutStatements .start (unmarked body ++ '\n' :: more.toList)) := by
    intro more
    rw [← unmarked_append]
    rfl
  have hmore : assignments environment (body ++ "\n" ++ more) = assignedBy environment (cut ++ rest) := by
    rw [hassignments, hrest]
  have hbody : assignments environment (body ++ "\n") = assignedBy environment cut := by
    have hlines := hassignments ""
    rw [String.append_empty] at hlines
    rcases hcut with h | ⟨-, h⟩
    · exact hlines.trans (congrArg _ h)
    · exact hlines.trans ((congrArg _ h).trans (assignedBy_append_empty environment cut))
  rw [hmore, hbody]
  exact assignedBy_append environment cut rest

end Vitae.Dotenv
