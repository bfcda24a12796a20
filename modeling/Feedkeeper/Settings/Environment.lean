/-!
# Environments

Settings come from the variables of the process and from an environment file, whose lines assign
values to variables. The file is put into the variables by a loader that is no part of this library
(`Dotenv`). Of the loader only its outcome is known here : what the lines come to may hang on the
variables, the file need not be text, and the process may end over it.
-/

namespace Feedkeeper

/-- The variables of a process with their bytes. Of a repeated name the first one counts. -/
abbrev Variables := List (String × ByteArray)

/-- The value of a variable, if it is set to valid text. -/
def Variables.text? (vars : Variables) (name : String) : Option String :=
  (vars.lookup name).bind String.fromUTF8?

/-- Where settings come from. -/
structure Environment where
  /-- The variables of the process. -/
  vars : Variables := []
  /-- The content of the environment file, if there is one. -/
  file : Option ByteArray := none

/-- A loader of environment files. -/
structure Dotenv where
  /-- What the lines of the file assign, in order, and `none` for a bad line. A value may take up
  the values of other variables. -/
  lines : Environment → List (Option (String × String))
  /-- The variables once the file is loaded, as far as it can be; nothing if the process ends over
  it, as it may on a value that no variable can hold. -/
  load : Environment → Option Variables

end Feedkeeper
