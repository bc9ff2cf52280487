import OneShot.Body.Basic

/-!
# Bodies in full

The full texts of a body, as its producer and as its cursor see it.
-/

namespace OneShot.Body

open Text

def display (r : Register) (b : Body) : String :=
  braced "DeferredContent"
    [("queued", toString b.queued.length),
      ("outstanding", toString b.outstanding),
      ("closed", toString b.closed),
      ("failure", optional (b.failure.map r.showCause))]

def displayCursor (b : Body) : String :=
  braced "Cursor"
    [("queued", toString b.queued.length), ("in_flight", toString b.inFlight.length)]

end OneShot.Body
