import Vitae.Loading

/-!
# Sessions

Many readings that share one log.

* `Session.run`: the reply to each step, with the log as the step left it.
-/

namespace Vitae

/-- A step of a session. -/
inductive Step where
  | parse (text : String)
  | load (folder : Folder) (path : String)
  | clear

/-- What a step gives back: what it read, or that the log was emptied. -/
inductive Reply where
  | read (result : Except LoadError Resume)
  | cleared

/-- Takes a step from a log: the reply, and the log after it. -/
def Step.run (step : Step) (log : Log) : Reply × Log :=
  match step with
  | .parse text => ((Resume.parse text).after log).map .read id
  | .load folder path => ((Resume.load folder path).after log).map .read id
  | .clear => (.cleared, #[])

/-- Takes steps from a log. An error does not end the session. -/
def Session.run (log : Log) : List Step → List (Reply × Log)
  | [] => []
  | step :: steps =>
    let answer := step.run log
    answer :: Session.run answer.2 steps

end Vitae
