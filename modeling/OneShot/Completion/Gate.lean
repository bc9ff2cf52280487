import OneShot.Completion.Signal
import OneShot.Refusal

/-!
# Gates

A gate is what a caller waits at until the work has ended. The first
ending opens it and stays; the cause of a later failure is suppressed by
the cause of the first.
-/

namespace OneShot

structure Gate where
  ending : Option Ending := none
  deriving DecidableEq, Inhabited

namespace Gate

def isDone (g : Gate) : Bool := g.ending.isSome

def settle (g : Gate) (e : Ending) : Gate :=
  match g.ending with
  | none => ⟨some e⟩
  | some _ => g

/-- The pair of the cause held and the late cause it is to suppress. -/
def late? (g : Gate) (e : Ending) : Option (Cause × Cause) :=
  match g.ending, e with
  | some (.failure keeper), .failure late => some (keeper, late)
  | _, _ => none

/-- The answer to one who waits; none while the gate is shut. -/
def pass? (g : Gate) : Option (Except Refusal Unit) :=
  g.ending.map fun
    | .success => .ok ()
    | .failure cause => .error (.failed cause)

end Gate

end OneShot
