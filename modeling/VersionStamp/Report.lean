import VersionStamp.Failure

namespace VersionStamp

/-!
# Reporting an error

An error is reported on one line of its own behind a label, which is red and bold on a terminal.
-/

def errorLabel (color : Bool) : Text :=
  if color then "\x1b[31m\x1b[1mERROR:\x1b[0m" else "ERROR:"

def errorReport (color : Bool) (message : Text) : Text :=
  errorLabel color ++ " " ++ message

end VersionStamp
