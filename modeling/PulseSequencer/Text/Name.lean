/-!
This module contains the rule for the names of triggers, channels and slices.
-/

namespace PulseSequencer.Text

def isNameStart (c : Char) : Bool :=
  c.isAlpha || c == '_'

/--
Whether a name can go on with this character: a start, an ASCII digit, a point, a colon or a hyphen. Slashes are left
to paths.
-/
def isNamePart (c : Char) : Bool :=
  isNameStart c || c.isDigit || c == '.' || c == ':' || c == '-'

def isName (s : String) : Bool :=
  match s.toList with
  | [] => false
  | c :: rest => isNameStart c && rest.all isNamePart

end PulseSequencer.Text
