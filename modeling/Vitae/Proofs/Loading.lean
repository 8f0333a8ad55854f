import Vitae.Loading
import Vitae.Proofs.Schema.Levels

/-!
# What loading does to the log

A reading adds to the log it is given and does not look at it: what it comes to and what it
adds is the same for every log.

* `Logged.Appends`: computations of that kind, closed under sequencing.
* `appends_load`: **loading is one of them.**
* `load_silent`: a file that cannot be read and a text that is no markup add nothing.
-/

namespace Vitae

namespace Logged

variable {ε ε' α β : Type}

/-- A computation that comes to the same and adds the same from every log. -/
def Appends (m : Logged ε α) : Prop := ∃ (result : Except ε α) (added : Log),
  ∀ log, m.after log = (result, log ++ added)

variable {m : Logged ε α}

theorem Appends.after_eq (h : Appends m) (log : Log) :
    m.after log = ((m.after #[]).1, log ++ (m.after #[]).2) := by
  obtain ⟨result, added, h⟩ := h
  rw [h, h, Array.empty_append]

theorem appends_pure (a : α) : Appends (pure a : Logged ε α) := ⟨.ok a, #[], fun _ => rfl⟩

theorem appends_throw (e : ε) : Appends (throw e : Logged ε α) := ⟨.error e, #[], fun _ => rfl⟩

theorem appends_report (d : Diagnostic) : Appends (report d : Logged ε Unit) := ⟨.ok (), #[d], fun _ => rfl⟩

theorem appends_ofExcept (x : Except ε α) : Appends (MonadExcept.ofExcept x : Logged ε α) :=
  ⟨x, #[], fun log => by rw [after_ofExcept, Array.append_empty]⟩

/-- **What is done in sequence adds in sequence**, up to the first error. -/
theorem Appends.bind {f : α → Logged ε β} (h : Appends m) (hf : ∀ a, Appends (f a)) : Appends (m >>= f) := by
  obtain ⟨result, added, h⟩ := h
  cases result with
  | error e =>
    refine ⟨.error e, added, fun log => ?_⟩
    rw [after_bind, h]
  | ok a =>
    obtain ⟨result, more, hf⟩ := hf a
    refine ⟨result, added ++ more, fun log => ?_⟩
    rw [after_bind, h]
    simp only
    rw [hf, Array.append_assoc]

theorem Appends.adapt (f : ε → ε') (h : Appends m) : Appends (ExceptT.adapt f m) := by
  obtain ⟨result, added, h⟩ := h
  refine ⟨result.mapError f, added, fun log => ?_⟩
  rw [after_adapt, h]

end Logged

open Logged (Appends appends_ofExcept appends_pure appends_report appends_throw)

namespace Schema

variable {α : Type}

/-- Going through findings adds to the log, whatever they are. -/
theorem appends_conclude (a : α) (fs : List Finding) : Appends (conclude a fs) := by
  induction fs with
  | nil => exact appends_pure a
  | cons f fs ih =>
    rw [conclude]
    cases f.note with
    | unrecognized => exact (appends_report _).bind fun _ => ih
    | breaks rule => exact appends_throw _

theorem appends_readResume (root : Markup.Element) : Appends (readResume root) := by
  rw [readResume_eq]
  split
  · exact appends_conclude _ _
  · exact appends_throw _

end Schema

namespace Resume

variable {log : Log} {r : Resume}

/-- What reading a text comes to: a text that is no markup leaves the log. -/
theorem after_parse (text : String) (log : Log) : (parse text).after log =
    match Markup.Element.ofString text with
    | .error e => (.error (.markup e), log)
    | .ok root =>
      (((Schema.readResume root).after log).1.mapError .schema, ((Schema.readResume root).after log).2) := by
  unfold parse
  rw [Logged.after_bind, Logged.after_ofExcept]
  cases Markup.Element.ofString text with
  | error e => rfl
  | ok root => exact Logged.after_adapt _ _ _

/-- What reading a file comes to: one that cannot be read leaves the log. -/
theorem after_ofRead (path : String) (text : Except FileFault String) (log : Log) : (ofRead path text).after log =
    match text with
    | .error fault => (.error (.file path fault), log)
    | .ok text => (parse text).after log := by
  unfold ofRead
  rw [Logged.after_bind, Logged.after_ofExcept]
  cases text <;> rfl

theorem appends_parse (text : String) : Appends (parse text) := by
  unfold parse
  exact (appends_ofExcept _).bind fun root => (Schema.appends_readResume root).adapt _

theorem appends_ofRead (path : String) (text : Except FileFault String) : Appends (ofRead path text) := by
  unfold ofRead
  exact (appends_ofExcept _).bind appends_parse

/-- **Loading adds to the log and does not look at it.** -/
theorem appends_load (folder : Folder) (path : String) : Appends (load folder path) := appends_ofRead _ _

/-- **Only the schema has findings**: an error before it comes with none, whatever the text held. -/
theorem parse_silent {text : String} {e : LoadError} (h : ((parse text).after log).1 = .error e)
    (he : ∀ s, e ≠ .schema s) : ((parse text).after log).2 = log := by
  rw [after_parse] at h ⊢
  cases hroot : Markup.Element.ofString text with
  | error _ => rfl
  | ok root =>
    rw [hroot] at h
    simp only at h
    cases hread : ((Schema.readResume root).after log).1 with
    | ok r =>
      rw [hread] at h
      cases h
    | error s =>
      rw [hread] at h
      cases h
      exact absurd rfl (he s)

theorem load_silent {folder : Folder} {path : String} {e : LoadError}
    (h : ((load folder path).after log).1 = .error e) (he : ∀ s, e ≠ .schema s) :
    ((load folder path).after log).2 = log := by
  unfold load at h ⊢
  rw [after_ofRead] at h ⊢
  cases htext : folder.readText path with
  | error _ => rfl
  | ok text =>
    rw [htext] at h
    exact parse_silent h he

end Resume

end Vitae
