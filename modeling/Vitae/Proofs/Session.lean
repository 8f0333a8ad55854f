import Mathlib.Data.List.DropRight
import Vitae.Session
import Vitae.Proofs.Loading

/-!
# A log shared by many readings

Readings that share a log do not get in each other's way: each replies as from an empty log
and adds what it would add to one.

* `Step.run_eq`: what a step does to any log, from what it does to an empty one.
* `Session.run_log`: **after a run the log holds what was added since it was last emptied.**
-/

namespace Vitae

namespace Step

/-- Whether a step empties the log. -/
def clears : Step → Bool
  | .parse _ | .load _ _ => false
  | .clear => true

/-- What a step replies from an empty log. -/
def reply (step : Step) : Reply := (step.run #[]).1

/-- What a step adds to an empty log. -/
def added (step : Step) : Log := (step.run #[]).2

/-- **A reading adds to the log and does not look at it.** -/
theorem run_eq (step : Step) (log : Log) :
    step.run log = (step.reply, if step.clears then #[] else log ++ step.added) := by
  unfold reply added
  cases step with
  | parse text =>
    simp only [run, clears]
    rw [(Resume.appends_parse text).after_eq log]
    rfl
  | load folder path =>
    simp only [run, clears]
    rw [(Resume.appends_load folder path).after_eq log]
    rfl
  | clear => rfl

/-- A file that cannot be read and a text that is no markup add nothing. -/
theorem added_of_silent {step : Step} {e : LoadError} (h : step.reply = .read (.error e))
    (he : ∀ s, e ≠ .schema s) : step.added = #[] := by
  cases step with
  | parse text => exact Resume.parse_silent (Reply.read.inj h) he
  | load folder path => exact Resume.load_silent (Reply.read.inj h) he
  | clear => rfl

end Step

namespace Session

variable {log : Log} {before after steps : List Step} {step : Step}

/-- The log after some steps. -/
def logAfter (log : Log) (steps : List Step) : Log := steps.foldl (fun log step => (step.run log).2) log

/-- The steps after the last that empties the log. -/
def sinceClear (steps : List Step) : List Step := steps.rtakeWhile fun step => !step.clears

/-- What some steps add, one after the other. -/
def addedBy (steps : List Step) : Log := steps.foldl (fun log step => log ++ step.added) #[]

theorem addedBy_concat (before : List Step) (step : Step) :
    addedBy (before ++ [step]) = addedBy before ++ step.added := by
  unfold addedBy
  rw [List.foldl_append, List.foldl_cons, List.foldl_nil]

theorem length_run (log : Log) (steps : List Step) : (run log steps).length = steps.length := by
  induction steps generalizing log with
  | nil => rfl
  | cons step steps ih => rw [run, List.length_cons, ih, List.length_cons]

/-- Each step is taken from the log that those before it leave. -/
theorem getElem?_run (log : Log) (before : List Step) (step : Step) (after : List Step) :
    (run log (before ++ step :: after))[before.length]? = some (step.run (logAfter log before)) := by
  induction before generalizing log with
  | nil => rfl
  | cons s before ih => exact ih (s.run log).2

theorem logAfter_concat (log : Log) (before : List Step) (step : Step) :
    logAfter log (before ++ [step]) = if step.clears then #[] else logAfter log before ++ step.added := by
  unfold logAfter
  rw [List.foldl_append, List.foldl_cons, List.foldl_nil, Step.run_eq]

/-- **The log after some steps**: what it held before, unless it was emptied, and what was added since. -/
theorem logAfter_eq (log : Log) (steps : List Step) :
    logAfter log steps = (if steps.any Step.clears then #[] else log) ++ addedBy (sinceClear steps) := by
  induction steps using List.reverseRecOn with
  | nil => exact Array.append_empty.symm
  | append_singleton steps step ih =>
    rw [logAfter_concat, ih]
    unfold sinceClear
    rw [List.rtakeWhile_concat, List.any_append, List.any_cons, List.any_nil, Bool.or_false]
    cases hclears : step.clears with
    | true =>
      rw [Bool.or_true]
      rfl
    | false =>
      rw [if_neg Bool.false_ne_true, if_pos Bool.not_false, Bool.or_false, addedBy_concat, Array.append_assoc]

/-- **A log shared by a session.** A step replies as it would from an empty log. One that reads leaves
what is in the log and adds to it what it would add to an empty one, which is nothing if the file
cannot be read or the text is no markup. So at each point of a run the log holds, in order, what each
step added since it was last emptied, after what it held at the start if it never was. -/
theorem run_log (log : Log) (before : List Step) (step : Step) (after : List Step) :
    (run log (before ++ step :: after)).length = (before ++ step :: after).length ∧
    (run log (before ++ step :: after))[before.length]? = some (step.reply, logAfter log (before ++ [step])) ∧
    (step.clears = false → logAfter log (before ++ [step]) = logAfter log before ++ step.added) ∧
    (∀ e, step.reply = .read (.error e) → (∀ s, e ≠ .schema s) → step.added = #[]) ∧
    logAfter log (before ++ [step]) =
      (if (before ++ [step]).any Step.clears then #[] else log) ++ addedBy (sinceClear (before ++ [step])) := by
  refine ⟨length_run log _, ?_, ?_, fun e => Step.added_of_silent, logAfter_eq log _⟩
  · rw [getElem?_run, Step.run_eq, logAfter_concat]
  · intro hclears
    rw [logAfter_concat, hclears]
    rfl

/-- A text with an element that means nothing, and the same text broken off. -/
def hobbies : String := "<resume><hobbies/></resume>"

def hobbiesBroken : String := "<resume><hobbies/>"

/-- A log that is emptied between two readings, and a third that fails: the second is what it holds. -/
theorem hobbies_log :
    (run #[] [.parse hobbies, .clear, .parse hobbies, .parse hobbiesBroken])[3]? =
      some ((Step.parse hobbiesBroken).reply, #[⟨1, "hobbies"⟩]) ∧
    (Step.parse hobbiesBroken).added = #[] := by
  obtain ⟨-, hanswer, -, hsilent, hlog⟩ :=
    run_log #[] [.parse hobbies, .clear, .parse hobbies] (.parse hobbiesBroken) []
  have hadded : (Step.parse hobbies).added = #[⟨1, "hobbies"⟩] := by decide +kernel
  have hbroken : (Step.parse hobbiesBroken).added = #[] := by
    have hno : (Markup.Element.ofString hobbiesBroken).toBool = false := by decide +kernel
    cases hroot : Markup.Element.ofString hobbiesBroken with
    | ok root =>
      rw [hroot] at hno
      cases hno
    | error e =>
      refine hsilent (.markup e) ?_ (fun _ h => by cases h)
      unfold Step.reply
      rw [Step.run, Resume.after_parse, hroot]
      rfl
  have hsince : addedBy (sinceClear ([.parse hobbies, .clear, .parse hobbies] ++ [.parse hobbiesBroken])) =
      #[⟨1, "hobbies"⟩] := by
    show (#[] ++ (Step.parse hobbies).added) ++ (Step.parse hobbiesBroken).added = _
    rw [hadded, hbroken]
    rfl
  rw [hsince] at hlog
  refine ⟨hanswer.trans ?_, hbroken⟩
  rw [hlog]
  rfl

end Session

end Vitae
