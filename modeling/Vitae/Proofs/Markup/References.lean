import Mathlib.Data.List.Basic
import Vitae.Markup.Value

/-!
# Values made of references

A value may be written without any of its characters: each as a reference by its number. So
written, nothing is read into a value and nothing is lost from it, be it white space at its ends,
a line end of whatever kind, or a character that is markup elsewhere.

* `refer`: a word, written so.
* `textValue_refer`, `attributeValue_refer`: **it stands for the word**, as a text and as an attribute.
* `mem_refer`: what it is written with.
-/

namespace Vitae.Markup

/-- A character by its number, as it follows an ampersand. -/
def referenceBody (c : Char) : List Char := '#' :: (Nat.toDigits 10 c.toNat ++ [';'])

/-- A word whose characters are all written as references. -/
def refer (word : List Char) : List Char := word.flatMap fun c => '&' :: referenceBody c

variable {c d : Char} {word : List Char}

/-! ## What it is written with -/

theorem mem_referenceBody (h : d ∈ referenceBody c) : d = '#' ∨ d.isDigit ∨ d = ';' := by
  unfold referenceBody at h
  rw [List.mem_cons, List.mem_append, List.mem_singleton] at h
  rcases h with h | h | h
  · exact Or.inl h
  · exact Or.inr (Or.inl (Nat.isDigit_of_mem_toDigits (by decide) (by decide) h))
  · exact Or.inr (Or.inr h)

theorem isLegal_of_isDigit (h : d.isDigit) : isLegal d := by
  obtain ⟨hzero, hnine⟩ : 48 ≤ d.toNat ∧ d.toNat ≤ 57 := Char.isDigit_iff_toNat.1 h
  unfold isLegal
  simp only [Bool.or_eq_true, Bool.and_eq_true, decide_eq_true_eq, bne_iff_ne]
  omega

/-- A reference is written with signs and digits only. -/
theorem mem_refer (h : d ∈ refer word) : d = '&' ∨ d = '#' ∨ d.isDigit ∨ d = ';' := by
  obtain ⟨c, -, hd⟩ := List.mem_flatMap.1 h
  rcases List.mem_cons.1 hd with rfl | hd
  · exact Or.inl rfl
  · exact Or.inr (mem_referenceBody hd)

theorem isLegal_of_mem_refer (h : d ∈ refer word) : isLegal d := by
  rcases mem_refer h with rfl | rfl | hd | rfl
  · rfl
  · rfl
  · exact isLegal_of_isDigit hd
  · rfl

/-- Any other character is none of those that references are written with. -/
theorem not_mem_refer (h : d ∉ ['&', '#', ';']) (hdigit : d.isDigit = false) : d ∉ refer word := by
  intro hd
  rcases mem_refer hd with rfl | rfl | hd | rfl
  · exact h (by decide)
  · exact h (by decide)
  · rw [hdigit] at hd
    cases hd
  · exact h (by decide)

/-! ## What it stands for -/

theorem numeral_toDigits (n : ℕ) : numeral 10 (Nat.toDigits 10 n) = n := by
  -- to base ten no digit is a letter, and then the value is the one that the library computes
  have hstep : ∀ (digits : List Char) (m : ℕ), (∀ d ∈ digits, d.isDigit) →
      digits.foldl (fun n d => 10 * n + digitValue d) m = Nat.ofDigitChars 10 digits m := by
    intro digits m hdigits
    rw [Nat.ofDigitChars_eq_foldl]
    refine List.foldl_ext _ _ m fun n d hd => ?_
    unfold digitValue
    rw [if_pos (hdigits d hd)]
  unfold numeral
  rw [hstep _ _ fun d hd => Nat.isDigit_of_mem_toDigits (by decide) (by decide) hd]
  exact Nat.ofDigitChars_ten_toDigits

theorem characterOf_toNat (h : isLegal c) : characterOf c.toNat = some c := by
  have hlt : c.toNat < 0x100000000 := by
    have := c.val.toNat_lt
    exact this
  have hvalid : c.toNat.isValidChar := c.valid
  unfold characterOf
  rw [if_pos hlt]
  simp only [if_pos hvalid, Char.ofNat_toNat, h, if_true]

theorem reference_referenceBody (h : isLegal c) : reference (referenceBody c) = .ok (c, []) := by
  have hdigits : ∀ d ∈ Nat.toDigits 10 c.toNat, d.isDigit :=
    fun d hd => Nat.isDigit_of_mem_toDigits (by decide) (by decide) hd
  have hnumeric : reference (referenceBody c) =
      numericReference 10 Char.isDigit (Nat.toDigits 10 c.toNat ++ [';']) := by
    unfold referenceBody
    obtain ⟨d, ds, hd⟩ := List.exists_cons_of_ne_nil (Nat.toDigits_ne_nil (n := c.toNat) (b := 10))
    -- a digit follows the sign, so the number is not read as a hexadecimal one
    have hx : d ≠ 'x' := by
      rintro rfl
      have hdigit := hdigits 'x' (by rw [hd]; exact List.mem_cons_self)
      cases hdigit
    rw [hd, List.cons_append]
    unfold reference
    split
    · rename_i heq
      cases heq
      exact absurd rfl hx
    · rename_i heq
      cases heq
      rfl
    · rename_i hsharp
      exact absurd rfl (hsharp _)
  rw [hnumeric]
  unfold numericReference
  rw [Text.takeWhile_word hdigits rfl rfl, Text.dropWhile_word hdigits rfl rfl, numeral_toDigits, characterOf_toNat h]
  rfl

theorem cutParts_refer (word : List Char) : Text.cutParts '&' (refer word) = ([], word.map referenceBody) := by
  induction word with
  | nil => rfl
  | cons c word ih =>
    have hbody : '&' ∉ referenceBody c := by
      intro h
      rcases mem_referenceBody h with h | h | h <;> cases h
    show Text.cutParts '&' ('&' :: (referenceBody c ++ refer word)) = _
    rw [Text.cutParts_cons, Text.cutParts_append hbody, ih, List.append_nil, Text.cutBefore, if_pos rfl]
    rfl

theorem resolveReferences_referenceBody (h : ∀ c ∈ word, isLegal c) (pos : Position) :
    resolveReferences pos (word.map referenceBody) = .ok (word.map .referred) := by
  induction word generalizing pos with
  | nil => rfl
  | cons c word ih =>
    obtain ⟨hc, hword⟩ := List.forall_mem_cons.1 h
    rw [List.map_cons, resolveReferences, reference_referenceBody hc, ih hword]
    rfl

theorem resolve_refer (h : ∀ c ∈ word, isLegal c) (start : Position) :
    resolve start (refer word) = .ok (word.map .referred) := by
  unfold resolve
  rw [cutParts_refer]
  simp only
  rw [resolveReferences_referenceBody h]
  rfl

theorem foldLineEnds_referred (afterReference : Bool) (word : List Char) :
    foldLineEnds afterReference (word.map .referred) = word := by
  induction word generalizing afterReference with
  | nil => rfl
  | cons c word ih => rw [List.map_cons, foldLineEnds, ih]

theorem spaceOut_referred (word : List Char) : spaceOut (word.map .referred) = word := by
  induction word with
  | nil => rfl
  | cons c word ih => rw [List.map_cons, spaceOut, ih]

/-- **A text made of references stands for the characters referred to.** -/
theorem textValue_refer {s : String} (h : ∀ c ∈ s.toList, isLegal c) (start : Position) :
    textValue start (refer s.toList) = .ok s := by
  unfold textValue
  rw [resolve_refer h]
  show Except.ok (String.ofList (foldLineEnds false (s.toList.map .referred))) = _
  rw [foldLineEnds_referred, String.ofList_toList]

/-- **An attribute made of references stands for the characters referred to.** -/
theorem attributeValue_refer {s : String} (h : ∀ c ∈ s.toList, isLegal c) (start : Position) :
    attributeValue start (refer s.toList) = .ok s := by
  unfold attributeValue
  rw [resolve_refer h]
  show Except.ok (String.ofList (spaceOut (s.toList.map .referred))) = _
  rw [spaceOut_referred, String.ofList_toList]

end Vitae.Markup
