import OneShot.Completion.Delivery
import OneShot.Scenario.Assembly
import OneShot.Scenario.View

/-!
# Playing acts

A closure that is called writes down its name and then plays its
reaction, unless too many closures are running already; the sink of a
chunk is signalled as any other sink. Upcalls may nest without bound, so
a play has a depth at which it is given up.
-/

namespace OneShot.Scenario

open Play

/-- With so many closures running, one more does not react. -/
def reactionLimit : Nat := 6

/-- Plays the acts of a procedure while another caller waits at `t`. Each
act gets its answer; the wait ends after the first act that releases it. -/
def playDuring (perform : Act → Play Answer) (t : Target) :
    List Act → Nat → Option (Option Nat × Answer) → Play (List Answer × Option Nat × Answer)
  | [], _, none => pure ([], none, .blocked)
  | [], _, some (releasedAfter, result) => pure ([], releasedAfter, result)
  | act :: acts, index, ended => do
      let answer ← tryCatch (perform act) fun text => pure (.panicked text)
      let scene ← get
      let ended := ended <|> (scene.waiting? t).map fun result => (some index, result)
      let (answers, result) ← playDuring perform t acts (index + 1) ended
      pure (answer :: answers, result)

/-- Plays one step. Courses run in the surroundings `serve`; the acts of a
procedure are played by `perform`. -/
def Step.play (script : Script) (serve : Course.Surroundings Desk)
    (perform : Act → Play Answer) : Step → Play Answer
  | .cause id fault => do
      let (c, store) := (← store).addCause (← fault.make)
      setStore store
      enterCause id c
      return .nothing
  | .clone id source => do
      enterCause id (← Play.cause source)
      return .nothing
  | .same a b => do return .truth (decide ((← Play.cause a) = (← Play.cause b)))
  | .associated a b => do
      return .truth ((← store).register.associated (← Play.cause a) (← Play.cause b))
  | .suppress keeper late => do
      let keeper ← Play.cause keeper
      setStore ((← store).suppress keeper (← Play.cause late))
      return .names ((← get).suppressed keeper)
  | .describe id => do
      let c ← Play.cause id
      return .description ((← get).describe c)
  | .sink spec => do
      let _ ← spec.make
      return .nothing
  | .succeed name => do
      course serve ((← part name).sink.finish .success)
      return .nothing
  | .fail name id => do
      course serve ((← part name).sink.finish (.failure (← Play.cause id)))
      return .nothing
  | .abort name id => do
      return .truth (← course serve ((← part name).sink.abort (← Play.cause id)))
  | .panic text => throw text
  | .state name => do
      let view := (← part name).view
      match (← get).state? view with
      | some answer => return answer
      | none => complain ("no state to show of " ++ name)
  | .body name capacity => do
      let b ← conclude (Body.opening (capacity.getD Body.defaultCapacity))
      let (id, store) := (← store).addBody b
      setStore store
      enterBody name id
      enterSink (name ++ ".cursor") ⟨.cursor id, .none⟩
      return .nothing
  | .listen name owner on => do
      let id ← bodyId name
      let listener ← hookUp owner on "content"
      course serve (Course.touch (.listen id listener))
      return .nothing
  | .offer name octets spec => do
      let id ← bodyId name
      let sink ← match spec with
        | none => pure Sink.ignore
        | some spec => do pure (← spec.make).sink
      return .truth (← course serve (Body.offering id ⟨octets, sink⟩))
  | .next name => do
      match ← course serve (Course.touch (.next (← bodyId name))) with
      | .ok none => return .nothing
      | .ok (some octets) => return .octets octets
      | .error refusal => return (← desk).refused refusal
  | .more name => do
      let id ← bodyId name
      return .truth ((← get).body id).hasMore
  | .close name => do
      course serve (Body.closing (← bodyId name))
      return .nothing
  | .failBody name id => do
      return .truth (← course serve (Body.failing (← bodyId name) (← Play.cause id)))
  | .info name => do
      let id ← bodyId name
      return .info ((← get).info id)
  | .wait name limit => do
      let t ← target name
      match limit with
      | none => return ((← get).waiting? t).getD .blocked
      | some limit => return released (← desk) (← conclude (t.within (← store) limit))
  | .waitDuring name _ procedure => do
      let t ← target name
      let atOnce := ((← get).waiting? t).map fun result => (none, result)
      let (answers, releasedAfter, result) ←
        playDuring perform t (script.procedure procedure) 0 atOnce
      return .waited answers releasedAfter result

/-- Plays the acts of a reaction, writing each one down. -/
def react (perform : Act → Play Answer) : List Act → Play Unit
  | [] => pure ()
  | act :: acts => do
      let answer ← perform act
      note (.did act.step answer)
      react perform acts

def setRunning (count : Nat) : Play Unit := do
  setDesk { ← desk with running := count }

/-- A closure is called: it writes that down and reacts. -/
def callClosure (script : Script) (perform : Act → Play Answer) (call : ClosureCall) :
    Play Unit := do
  let entered ← desk
  let some entry := entered.closures[call.closure]? | pure ()
  note (.ran (entry.owner ++ "." ++
    Text.applied entry.label (entered.showArgument call.argument)))
  match entry.reaction with
  | none => pure ()
  | some procedure =>
      if entered.running < reactionLimit then
        setRunning (entered.running + 1)
        tryCatch (react perform (script.procedure procedure)) fun text => do
          setRunning entered.running
          throw text
        setRunning entered.running

mutual

/-- Answers upcalls, down to a depth. -/
def serve (script : Script) : Nat → Course.Surroundings Desk
  | 0, _, desk, store => (complain "upcalls nest too deep").answer desk store
  | depth + 1, .chunk _ sink ending, desk, store =>
      (sink.finish ending).run (serve script depth) desk store
  | depth + 1, u, desk, store =>
      match store.closureCall? u with
      | none => (.returned (), desk, store)
      | some call => (callClosure script (perform script depth) call).answer desk store

def perform (script : Script) : Nat → Act → Play Answer
  | 0, _ => complain "acts nest too deep"
  | depth + 1, act =>
      let play := act.step.play script (serve script depth) (perform script depth)
      if act.guarded then tryCatch play fun text => pure (.panicked text) else play

end

end OneShot.Scenario
