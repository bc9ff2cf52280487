import OneShot.Text.Duration

/-!
# Scripts

A script is a list of acts over named causes, sinks and bodies. The
closures of a sink react with acts of their own; these stand in a table
of procedures and are referred to by number.
-/

namespace OneShot.Scenario

/-- How to make the fault that a new cause wraps. -/
inductive FaultSpec
  | message (text : String)
  | report (text : String)
  | reportOf (text : String) (source : FaultSpec)
  | transparent (inner : FaultSpec)
  | cause (id : String)

/-- The procedures with which closures react, by the closure's label. -/
abbrev Reactions := List (String × Nat)

/-- The ways to make a sink of closures. -/
inductive Adapter
  | everyHook
  | onCompletion
  | pair
  | abortable
  | endings
  | full

inductive SinkSpec
  | ignore
  | gate
  /-- A latch without closures. -/
  | silent
  | adapted (adapter : Adapter) (owner : String) (on : Reactions)
  | before (owner : String) (on : Reactions) (inner : SinkSpec)
  | after (owner : String) (on : Reactions) (inner : SinkSpec)
  | plain (inner : SinkSpec)
  | wrapped (inner : SinkSpec)
  /-- What the wrapping of a sink gives back. -/
  | unwrapped (inner : SinkSpec)
  | both (first second : SinkSpec)
  | shared (name : String)
  /-- Enters the sink under a name. -/
  | named (name : String) (spec : SinkSpec)

inductive Step
  | cause (id : String) (fault : FaultSpec)
  | clone (id source : String)
  | same (a b : String)
  | associated (a b : String)
  | suppress (keeper late : String)
  | describe (id : String)
  | sink (spec : SinkSpec)
  | succeed (sink : String)
  | fail (sink cause : String)
  | abort (sink cause : String)
  | panic (text : String)
  | state (sink : String)
  | body (name : String) (capacity : Option Nat)
  | listen (body owner : String) (on : Reactions)
  | offer (body : String) (octets : List UInt8) (sink : Option SinkSpec)
  | next (body : String)
  | more (body : String)
  | close (body : String)
  | failBody (body cause : String)
  | info (body : String)
  | wait (target : String) (limit : Option Duration)
  | waitDuring (target : String) (limit : Option Duration) (procedure : Nat)

/-- A step, and whether its panic is caught and answered. -/
structure Act where
  step : Step
  guarded : Bool := false

structure Script where
  acts : List Act
  procedures : List (List Act) := []

def Script.procedure (script : Script) (number : Nat) : List Act :=
  script.procedures[number]?.getD []

end OneShot.Scenario
