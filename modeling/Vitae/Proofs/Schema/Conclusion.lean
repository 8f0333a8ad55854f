import Vitae.Proofs.Schema.Findings

/-!
# Conclusions from findings

A reading logs the elements that mean nothing, stops at the first broken rule and, if there
is none, gives a value. `conclude` is the reading that goes through known findings.

* `foldlM_eq_conclude`, `mapM_eq_conclude`: loops over children are conclusions from the
  findings about each of them.
* `after_conclude_of_harmless`, `after_conclude_of_breaks`: what a conclusion comes to and
  what it logs on the way.
* `after_conclude_ok_iff`, `after_conclude_error_iff`: when it comes to what.
-/

namespace Vitae.Schema

open Markup (Element)

variable {α β σ : Type}

/-- Goes through some findings and gives a value if none of them breaks a rule. -/
def conclude (a : α) : List Finding → Logged Error α
  | [] => pure a
  | f :: fs =>
    match f.note with
    | .unrecognized => do
      reportElement f.element
      conclude a fs
    | .breaks rule => throw (broken f.element rule)

theorem conclude_nil (a : α) : conclude a [] = pure a := rfl

/-- Paths play no part in a conclusion. -/
theorem conclude_map_under (a : α) (i : ℕ) (fs : List Finding) :
    conclude a (fs.map (.under i)) = conclude a fs := by
  induction fs with
  | nil => rfl
  | cons f fs ih =>
    rw [List.map_cons, conclude, conclude, ih]
    rfl

/-- Where a rule is broken no value is given, so the value plays no part. -/
theorem conclude_of_breaks (a b : α) {fs : List Finding} {f : Finding} {rule : Violation} (hf : f ∈ fs)
    (hnote : f.note = .breaks rule) : conclude a fs = conclude b fs := by
  induction fs with
  | nil => cases hf
  | cons g fs ih =>
    rw [conclude, conclude]
    cases hg : g.note with
    | breaks _ => rfl
    | unrecognized =>
      have hlater : f ∈ fs := by
        rcases List.mem_cons.1 hf with rfl | h
        · rw [hg] at hnote
          cases hnote
        · exact h
      simp only
      rw [ih hlater]

theorem throw_bind (e : Error) (k : α → Logged Error β) :
    ((throw e : Logged Error α) >>= k) = throw e := rfl

/-- **What comes after a conclusion adds its findings**, if it makes any. -/
theorem conclude_bind (a : α) (fs : List Finding) {b : β} {gs : List Finding} {k : α → Logged Error β}
    (h : k a = conclude b gs) : (conclude a fs >>= k) = conclude b (fs ++ gs) := by
  induction fs with
  | nil => rw [conclude_nil, pure_bind, h, List.nil_append]
  | cons f fs ih =>
    rw [List.cons_append, conclude, conclude]
    cases f.note with
    | unrecognized =>
      simp only
      rw [bind_assoc]
      exact congrArg _ (funext fun _ => ih)
    | breaks rule => exact throw_bind _ _

/-- A conclusion followed by nothing that finds anything. -/
theorem conclude_bind_pure (a : α) (fs : List Finding) (g : α → β) :
    (conclude a fs >>= fun x => pure (g x)) = conclude (g a) fs := by
  rw [conclude_bind a fs (conclude_nil (g a)).symm, List.append_nil]

/-- **A loop over children concludes from the findings about them**, if each round does. The
state is that of the children read so far. -/
theorem foldlM_eq_conclude {step : σ → Element → Logged Error σ} {state : List Element → σ}
    {judge : ℕ → Element → List Finding} {es : List Element}
    (h : ∀ before c after, es = before ++ c :: after →
      step (state before) c = conclude (state (before ++ [c])) (judge before.length c)) :
    es.foldlM step (state []) = conclude (state es) (overChildren judge es) := by
  -- the induction is on the children still to be read; those read fix the state and the index
  have key : ∀ after before, es = before ++ after →
      after.foldlM step (state before) = conclude (state es)
        ((after.zipIdx before.length).flatMap fun x => (judge x.2 x.1).map (.under x.2)) := by
    intro after
    induction after with
    | nil =>
      intro before hes
      rw [hes, List.append_nil]
      rfl
    | cons c after ih =>
      intro before hes
      have hrest := ih (before ++ [c]) (by rw [hes, List.append_assoc]; rfl)
      rw [List.length_append, List.length_singleton] at hrest
      rw [List.foldlM_cons, h before c after hes, List.zipIdx_cons, List.flatMap_cons,
        ← conclude_map_under _ before.length]
      exact conclude_bind _ _ hrest
  exact key es [] rfl

/-- **Reading children one by one concludes from the findings about them**, if each reading does. -/
theorem mapM_eq_conclude {read : Element → Logged Error β} {value : Element → β}
    {judge : Element → List Finding} {es : List Element} (h : ∀ c ∈ es, read c = conclude (value c) (judge c)) :
    es.mapM read = conclude (es.map value) (overChildren (fun _ => judge) es) := by
  -- from any index on, for the rest of the children is counted on from the first
  have key : ∀ (es : List Element) (i : ℕ), (∀ c ∈ es, read c = conclude (value c) (judge c)) →
      es.mapM read = conclude (es.map value) ((es.zipIdx i).flatMap fun x => (judge x.1).map (.under x.2)) := by
    intro es
    induction es with
    | nil => intro i _; rfl
    | cons c es ih =>
      intro i h
      obtain ⟨hc, hes⟩ := List.forall_mem_cons.1 h
      rw [List.mapM_cons, hc, List.zipIdx_cons, List.flatMap_cons, List.map_cons, ← conclude_map_under _ i]
      refine conclude_bind _ _ ?_
      rw [ih (i + 1) hes]
      exact conclude_bind_pure _ _ _
  exact key es 0 h

/-! ## What a conclusion comes to -/

/-- A finding that does not stop a reading. -/
def Finding.Harmless (f : Finding) : Prop := f.note = .unrecognized

instance (f : Finding) : Decidable f.Harmless := inferInstanceAs (Decidable (_ = _))

/-- All that is found in a tree is harmless if nothing in it breaks a rule. -/
theorem harmless_findings_iff (root : Element) :
    (∀ f ∈ findings root, f.Harmless) ↔ ∀ p c rule, ¬ Noted root p c (.breaks rule) := by
  constructor
  · intro h p c rule hnote
    have hharmless := h _ (mem_findings.2 hnote)
    cases hharmless
  · rintro h ⟨p, c, n⟩ hf
    have hnote := mem_findings.1 hf
    cases n with
    | unrecognized => rfl
    | breaks rule => exact absurd hnote (h p c rule)

/-- What a finding about an element that means nothing says in the log. -/
def Finding.diagnostic (f : Finding) : Diagnostic := ⟨f.element.line, f.element.name⟩

/-- **A reading that finds no broken rule gives its value** and logs all it found. -/
theorem after_conclude_of_harmless {a : α} {fs : List Finding} (h : ∀ f ∈ fs, f.Harmless) (log : Log) :
    (conclude a fs).after log = (.ok a, log ++ (fs.map Finding.diagnostic).toArray) := by
  induction fs generalizing log with
  | nil => simp [conclude_nil]
  | cons f fs ih =>
    obtain ⟨hf, hfs⟩ := List.forall_mem_cons.1 h
    rw [conclude, hf]
    simp only
    rw [Logged.after_bind]
    unfold reportElement
    rw [Logged.after_report]
    simp only
    rw [ih hfs]
    simp [Finding.diagnostic]

/-- **A reading stops at the first broken rule** and has logged what it found before. -/
theorem after_conclude_of_breaks {a : α} {before after : List Finding} {f : Finding} {rule : Violation}
    (h : ∀ g ∈ before, g.Harmless) (hf : f.note = .breaks rule) (log : Log) :
    (conclude a (before ++ f :: after)).after log =
      (.error (broken f.element rule), log ++ (before.map Finding.diagnostic).toArray) := by
  have hstop : conclude a (f :: after) = throw (broken f.element rule) := by
    rw [conclude, hf]
  have hbind : conclude a (before ++ f :: after) = conclude () before >>= fun _ => conclude a (f :: after) :=
    (conclude_bind () before rfl).symm
  rw [hbind, Logged.after_bind, after_conclude_of_harmless h]
  simp only
  rw [hstop, Logged.after_throw]

/-- Findings break no rule, or one of them is the first to break one. -/
theorem harmless_or_first (fs : List Finding) :
    (∀ f ∈ fs, f.Harmless) ∨ ∃ before f after rule, fs = before ++ f :: after ∧
      (∀ g ∈ before, g.Harmless) ∧ f.note = .breaks rule := by
  induction fs with
  | nil => exact Or.inl fun f hf => by cases hf
  | cons f fs ih =>
    cases hf : f.note with
    | breaks rule => exact Or.inr ⟨[], f, fs, rule, rfl, fun g hg => (by cases hg), hf⟩
    | unrecognized =>
      rcases ih with h | ⟨before, g, after, rule, rfl, hbefore, hg⟩
      · exact Or.inl (List.forall_mem_cons.2 ⟨hf, h⟩)
      · exact Or.inr ⟨f :: before, g, after, rule, rfl, List.forall_mem_cons.2 ⟨hf, hbefore⟩, hg⟩

/-- **A conclusion gives a value** exactly if no finding breaks a rule. -/
theorem after_conclude_ok_iff {a b : α} {fs : List Finding} {log : Log} :
    ((conclude a fs).after log).1 = .ok b ↔ (∀ f ∈ fs, f.Harmless) ∧ b = a := by
  rcases harmless_or_first fs with h | ⟨before, f, after, rule, rfl, hbefore, hf⟩
  · rw [after_conclude_of_harmless h]
    constructor
    · intro hok
      cases hok
      exact ⟨h, rfl⟩
    · rintro ⟨-, rfl⟩
      rfl
  · rw [after_conclude_of_breaks hbefore hf]
    constructor
    · intro hok
      cases hok
    · rintro ⟨hall, -⟩
      have := hall f (by simp)
      rw [Finding.Harmless, hf] at this
      cases this

/-- **A conclusion fails** exactly with the first broken rule. -/
theorem after_conclude_error_iff {a : α} {fs : List Finding} {log : Log} {e : Error} :
    ((conclude a fs).after log).1 = .error e ↔ ∃ before f after rule, fs = before ++ f :: after ∧
      (∀ g ∈ before, g.Harmless) ∧ f.note = .breaks rule ∧ e = broken f.element rule := by
  constructor
  · intro he
    rcases harmless_or_first fs with h | ⟨before, f, after, rule, rfl, hbefore, hf⟩
    · rw [after_conclude_of_harmless h] at he
      cases he
    · rw [after_conclude_of_breaks hbefore hf] at he
      cases he
      exact ⟨before, f, after, rule, rfl, hbefore, hf, rfl⟩
  · rintro ⟨before, f, after, rule, rfl, hbefore, hf, rfl⟩
    rw [after_conclude_of_breaks hbefore hf]

end Vitae.Schema
