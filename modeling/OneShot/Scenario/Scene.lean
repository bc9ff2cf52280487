import OneShot.Body.Display
import OneShot.Course
import OneShot.Scenario.Answer

/-!
# Scenes

A scene is the store together with the desk of a scenario: the names
given so far, what is known of each closure, the number of closures
running, and the events written down. A play is a computation on a
scene that may end in a panic.
-/

namespace OneShot.Scenario

/-- Puts `value` under `key`, in place of what stood there. -/
def enter {α : Type} (table : List (String × α)) (key : String) (value : α) :
    List (String × α) :=
  if table.any (·.1 = key) then
    table.map fun entry => if entry.1 = key then (key, value) else entry
  else table ++ [(key, value)]

/-- What of a named sink a scenario can look at. -/
inductive View
  | none
  | latch (id : Nat)
  | gate (id : Nat)
  deriving DecidableEq

structure Part where
  sink : Sink
  view : View := .none
  deriving DecidableEq

/-- What a closure writes down and how it reacts. -/
structure ClosureEntry where
  owner : String
  label : String
  reaction : Option Nat
  deriving DecidableEq

structure Desk where
  causes : List (String × Cause) := []
  sinks : List (String × Part) := []
  bodies : List (String × Nat) := []
  closures : List ClosureEntry := []
  running : Nat := 0
  /-- Newest first. -/
  events : List Event := []
  /-- Why the scenario cannot be played, if it cannot. -/
  complaint : Option String := none

namespace Desk

/-- The first name given to the cause; if it has none, its text. -/
def nameOf (desk : Desk) (c : Cause) : String :=
  match desk.causes.find? (·.2 = c) with
  | some (name, _) => name
  | none => "?" ++ c.display

def showArgument (desk : Desk) : Argument → String
  | .nothing => ""
  | .cause c | .outcome (some c) => desk.nameOf c
  | .outcome none => "-"

def refused (desk : Desk) (refusal : Refusal) : Answer :=
  .refused refusal (refusal.cause?.map desk.nameOf)

end Desk

structure Scene where
  desk : Desk := {}
  store : Store := {}

abbrev Play (α : Type) := ExceptT String (StateM Scene) α

namespace Play

/-- Gives up a scenario that makes no sense. -/
def complain {α : Type} (text : String) : Play α := do
  modify fun scene => { scene with desk := { scene.desk with complaint := some text } }
  throw text

def desk : Play Desk := do return (← get).desk

def store : Play Store := do return (← get).store

def setDesk (desk : Desk) : Play Unit :=
  modify fun scene => { scene with desk }

def setStore (store : Store) : Play Unit :=
  modify fun scene => { scene with store }

def find {α : Type} (table : List (String × α)) (name : String) : Play α :=
  match table.lookup name with
  | some value => pure value
  | none => complain ("unknown name " ++ name)

def cause (name : String) : Play Cause := do find (← desk).causes name

def part (name : String) : Play Part := do find (← desk).sinks name

def bodyId (name : String) : Play Nat := do find (← desk).bodies name

def enterCause (name : String) (c : Cause) : Play Unit := do
  let desk ← desk
  setDesk { desk with causes := enter desk.causes name c }

def enterSink (name : String) (part : Part) : Play Unit := do
  let desk ← desk
  setDesk { desk with sinks := enter desk.sinks name part }

def enterBody (name : String) (id : Nat) : Play Unit := do
  let desk ← desk
  setDesk { desk with bodies := enter desk.bodies name id }

def note (event : Event) : Play Unit := do
  let desk ← desk
  setDesk { desk with events := event :: desk.events }

/-- A new closure. -/
def closure (owner label : String) (reaction : Option Nat) : Play Closure := do
  let desk ← desk
  setDesk { desk with closures := desk.closures ++ [⟨owner, label, reaction⟩] }
  return desk.closures.length

/-- Ends as the outcome says. -/
def conclude {α : Type} : Outcome α → Play α
  | .returned value => pure value
  | .panicked text => throw text

/-- Runs a course in surroundings that share the desk. -/
def course {α : Type} (answer : Course.Surroundings Desk) (c : Course α) : Play α := do
  let scene ← get
  let (outcome, desk, store) := c.run answer scene.desk scene.store
  set { desk, store : Scene }
  conclude outcome

/-- Plays on a desk and a store, as an upcall is answered. -/
def answer (play : Play Unit) (desk : Desk) (store : Store) : Outcome Unit × Desk × Store :=
  match play.run.run ⟨desk, store⟩ with
  | (.ok (), scene) => (.returned (), scene.desk, scene.store)
  | (.error text, scene) => (.panicked text, scene.desk, scene.store)

end Play

end OneShot.Scenario
