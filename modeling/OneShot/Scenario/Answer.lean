import OneShot.Refusal
import OneShot.Scenario.Script

/-!
# Answers and events

What a scenario answers to each act, and what is written down while the
act goes on. Causes are given by their names.
-/

namespace OneShot.Scenario

/-- A fault as a scenario shows it: by name if it is a cause. -/
inductive Shown
  | cause (name : String)
  | other (display : String)
  deriving DecidableEq

/-- What kind of fault a cause wraps. -/
inductive Content
  | message
  | report
  | transparent
  | cause (name : String)
  deriving DecidableEq

structure Description where
  display : String
  detail : String
  wrapped : String
  content : Content
  chain : List Shown
  suppressed : List String
  deriving DecidableEq

structure BodyInfo where
  closed : Bool
  outstanding : Nat
  length : Option Nat
  hasMore : Bool
  /-- True, for a body has a single cursor. -/
  oneCursor : Bool := true
  detail : String
  cursor : String
  deriving DecidableEq

inductive Answer
  | nothing
  | truth (value : Bool)
  | ok
  | blocked
  | names (names : List String)
  | octets (octets : List UInt8)
  /-- A refusal, with the name of the cause behind it. -/
  | refused (refusal : Refusal) (cause : Option String)
  | panicked (text : String)
  | description (description : Description)
  | latch (aborted completed : Bool) (detail : String)
  | gate (done : Bool)
  | info (info : BodyInfo)
  | waited (during : List Answer) (releasedAfter : Option Nat) (result : Answer)

inductive Event
  /-- A closure ran. -/
  | ran (text : String)
  /-- A closure has done a step. -/
  | did (step : Step) (answer : Answer)

end OneShot.Scenario
