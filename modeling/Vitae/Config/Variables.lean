/-!
# Variables

What names stand for, in the environment or in a file.
-/

namespace Vitae

/-- Variables by name. Of several with one name the first counts. -/
abbrev Variables := List (String × String)

namespace Variables

/-- What a name stands for, which is nothing if no variable has it. -/
def word (vars : Variables) (name : List Char) : List Char :=
  ((vars.lookup (String.ofList name)).getD "").toList

end Variables

end Vitae
