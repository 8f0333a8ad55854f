/-!
# Diagnostics

Findings about a document that do not stop its reading. They go to a log that the
caller owns, so those found before an error are still there after it.

* `Logged`: computations that may fail and that keep their log when they do.
-/

namespace Vitae

/-- A text with the line it is about in front, if it is about one. -/
def noteLine (line : Option Nat) (text : String) : String :=
  match line with
  | some n => "XML error at line " ++ toString n ++ ": " ++ text
  | none => text

/-- An element that means nothing where it stands. -/
structure Diagnostic where
  line : Nat
  tag : String
  deriving DecidableEq

/-- The wording of a diagnostic. -/
def Diagnostic.message (d : Diagnostic) : String :=
  noteLine d.line ("Unrecognized element <" ++ d.tag ++ ">")

/-- The diagnostics so far, in order. -/
abbrev Log := Array Diagnostic

/-- A computation that may fail and that adds to a log, failing or not. -/
abbrev Logged (ε α : Type) := ExceptT ε (StateM Log) α

/-- Adds a diagnostic to the log. -/
def report {ε : Type} (d : Diagnostic) : Logged ε Unit := ExceptT.lift (modify (·.push d))

namespace Logged

variable {ε ε' α β : Type}

/-- The result of a computation and the log after it, from the log before it. -/
def after (m : Logged ε α) (log : Log) : Except ε α × Log := StateT.run (ExceptT.run m) log

@[simp] theorem after_pure (a : α) (log : Log) :
    after (pure a : Logged ε α) log = (.ok a, log) := rfl

@[simp] theorem after_throw (e : ε) (log : Log) :
    after (throw e : Logged ε α) log = (.error e, log) := rfl

@[simp] theorem after_report (d : Diagnostic) (log : Log) :
    after (report d : Logged ε Unit) log = (.ok (), log.push d) := rfl

/-- After an error nothing more is done, and what was logged before it stays. -/
theorem after_bind (m : Logged ε α) (f : α → Logged ε β) (log : Log) :
    (m >>= f).after log = match m.after log with
      | (.ok a, later) => (f a).after later
      | (.error e, later) => (.error e, later) := by
  show (ExceptT.run m >>= ExceptT.bindCont f) log = _
  simp only [after, StateT.run, bind, StateT.bind, ExceptT.run]
  rcases m log with ⟨_ | a, later⟩ <;> rfl

@[simp] theorem after_ofExcept (x : Except ε α) (log : Log) :
    after (MonadExcept.ofExcept x : Logged ε α) log = (x, log) := by
  cases x <;> rfl

@[simp] theorem after_adapt (f : ε → ε') (m : Logged ε α) (log : Log) :
    after (ExceptT.adapt f m) log = ((m.after log).1.mapError f, (m.after log).2) := by
  show ((ExceptT.run m) log).map (Except.mapError f) id = _
  simp only [after, StateT.run, ExceptT.run]
  rcases m log with ⟨_ | a, later⟩ <;> rfl

end Logged

end Vitae
