import CommandShell.Text

/-!
# Environments

An environment is a list of entries.  An entry gives a variable its value: it is written as the
name, an equals sign and the value.  The value of a name is what follows it and an equals sign in
the first entry that begins with these.
-/

namespace CommandShell

/-- Variables with their values, as they are written. -/
abbrev Environment := List Text

namespace Environment

/-- An entry as it is written. -/
def entry (key value : Text) : Text :=
  key ++ '=' :: value

/-- The value of a variable. -/
def get? (environment : Environment) (key : Text) : Option Text :=
  let start := key ++ ['=']
  if key = [] then none else environment.findSome? (start.isPrefixOf? ·)

/-- The value of a variable that is not empty. -/
def getNonempty? (environment : Environment) (key : Text) : Option Text :=
  (environment.get? key).filter (fun value => !value.isEmpty)

/-- The environment with a value for a variable that has none, be it the empty one; a value
has no NUL character. -/
def setDefault? (environment : Environment) (key value : Text) : Option Environment :=
  if (environment.get? key).isSome then some environment
  else if value.contains '\x00' then none
  else some (entry key value :: environment)

/-- The home directory. -/
def home (environment : Environment) : Option Text :=
  environment.getNonempty? "HOME".toList

end Environment

end CommandShell
