import OneShot.Failure.Display
import OneShot.Text.Duration

/-!
# Refusals

The ways in which an operation answers that it cannot do what it was
asked, with the short text and the full text of each.
-/

namespace OneShot

inductive Refusal
  | exhausted
  | failed (cause : Cause)
  | flushExpired (after : Duration)
  | waitExpired (after : Duration)
  | reservedStream (id : UInt32)
  | deltaTooLarge (delta : UInt32)
  deriving DecidableEq

namespace Refusal

open Text

def kind : Refusal → String
  | exhausted => "NoSuchElement"
  | failed _ => "Failed"
  | flushExpired _ => "FlushTimeout"
  | waitExpired _ => "Timeout"
  | reservedStream _ => "InvalidStreamId"
  | deltaTooLarge _ => "InvalidWindowDelta"

def message : Refusal → String
  | exhausted => "no such element: content is closed"
  | failed cause => "failed: " ++ cause.display
  | flushExpired after => "flush timed out after " ++ after.display
  | waitExpired after => "timed out after " ++ after.display ++ " waiting for completion"
  | reservedStream id => "invalid stream id " ++ toString id ++ ": reserved bit set"
  | deltaTooLarge delta =>
      "invalid window delta " ++ toString delta ++ ": exceeds 2^31-1"

def detail (r : Register) (refusal : Refusal) : String :=
  match refusal with
  | exhausted => refusal.kind
  | failed cause => applied refusal.kind (r.showCause cause)
  | flushExpired after | waitExpired after => applied refusal.kind after.display
  | reservedStream n | deltaTooLarge n => applied refusal.kind (toString n)

/-- The failure that was delivered, if that is why the answer is no. -/
def cause? : Refusal → Option Cause
  | failed cause => some cause
  | _ => none

/-- No refusal names a fault behind it: the text of a delivered failure
already shows the cause. -/
def behind? : Refusal → Option Fault
  | _ => none

end Refusal

end OneShot
