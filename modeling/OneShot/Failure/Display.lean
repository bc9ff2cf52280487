import OneShot.Failure.Register

/-!
# Causes in full

The full text of a cause shows the fault it wraps and how many causes it
has suppressed so far, so it depends on the register.
-/

namespace OneShot.Register

open Text

def showFault (r : Register) : Fault → String
  | .message text => quoted text
  | .report text | .reportOf text _ => applied "Fault" (quoted text)
  | .transparent inner => applied "Transparent" (r.showFault inner)
  | .cause id wrapped =>
      braced "Cause" [("error", r.showFault wrapped),
        ("suppressed", toString (r.suppressed ⟨id, wrapped⟩).length)]

def showCause (r : Register) (c : Cause) : String := r.showFault c.toFault

end OneShot.Register
