import OneShot.Scenario.Run

/-!
# Reports

A script is played on an empty scene, act by act, going on after panics.
The report holds the answer to each act with the events of its play, and
then what each cause has suppressed, the state of each sink that has one
to show, and the two full texts of each body.
-/

namespace OneShot.Scenario

open Play

structure Entry where
  answer : Answer
  events : List Event

structure Report where
  entries : List Entry
  causes : List (String × List String)
  states : List (String × Answer)
  bodies : List (String × String × String)

def playAll (perform : Act → Play Answer) : List Act → Play (List Entry)
  | [] => pure []
  | act :: acts => do
      setDesk { ← desk with events := [] }
      let answer ← tryCatch (perform act) fun text => pure (.panicked text)
      let entry : Entry := ⟨answer, (← desk).events.reverse⟩
      return entry :: (← playAll perform acts)

def Scene.report (scene : Scene) (entries : List Entry) : Report where
  entries := entries
  causes := scene.desk.causes.map fun (name, c) => (name, scene.suppressed c)
  states := scene.desk.sinks.filterMap fun (name, part) =>
    (scene.state? part.view).map fun answer => (name, answer)
  bodies := scene.desk.bodies.map fun (name, id) =>
    let info := scene.info id
    (name, info.detail, info.cursor)

/-- The depth at which a play is given up. -/
def depthLimit : Nat := 100000

/-- The report on a script, or why it cannot be played. -/
def Script.play (script : Script) : Except String Report :=
  let (entries, scene) := (playAll (perform script depthLimit) script.acts).run.run {}
  match scene.desk.complaint, entries with
  | some text, _ => .error text
  | none, .error text => .error text
  | none, .ok entries => .ok (scene.report entries)

end OneShot.Scenario
