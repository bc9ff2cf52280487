import OneShot.Completion.Delivery
import Mathlib.Logic.Function.Basic

/-!
# Worlds

Any number of callers make calls against one store. A caller whose upcall
has not come back may make further calls from inside it, to any depth, and
between two accesses of one caller the others may do what they like. A
world is what there is at one moment; moves lead from one to the next.
-/

namespace OneShot

open Course

/-- The calls that a caller can make. A sink is not among them: to signal it is to make the calls
of its parts. -/
inductive Call
  | signal (latch : Nat) (signal : Signal)
  | settle (gate : Nat) (ending : Ending)
  | suppress (keeper late : Cause)
  | offer (body : Nat) (chunk : Chunk)
  | next (body : Nat)
  | acknowledge (body : Nat)
  | close (body : Nat)
  | fail (body : Nat) (cause : Cause)
  | listen (body : Nat) (listener : Closure)
  deriving DecidableEq

inductive Response
  | nothing
  | truth (value : Bool)
  | octets (value : Except Refusal (Option (List UInt8)))

namespace Call

def course : Call → Course Response
  | signal latch s => return .truth (← Latch.deliver latch s)
  | settle gate ending => do
      touch (.settle gate ending)
      return .nothing
  | suppress keeper late => do
      touch (.suppress keeper late)
      return .nothing
  | offer body chunk => return .truth (← Body.offering body chunk)
  | next body => return .octets (← touch (.next body))
  | acknowledge body => do
      Body.acknowledging body
      return .nothing
  | close body => do
      Body.closing body
      return .nothing
  | fail body cause => return .truth (← Body.failing body cause)
  | listen body listener => do
      touch (.listen body listener)
      return .nothing

def causes : Call → List Cause
  | signal _ s => s.cause?.toList
  | settle _ ending => ending.cause?.toList
  | suppress keeper late => [keeper, late]
  | fail _ cause => [cause]
  | _ => []

/-- What a call is about has been made before. -/
def Known (s : Store) (call : Call) : Prop :=
  (match call with
    | signal latch _ => latch < s.latches.length
    | settle gate _ => gate < s.gates.length
    | suppress _ _ => True
    | offer body _ | next body | acknowledge body | close body | fail body _ | listen body _ =>
        body < s.bodies.length) ∧
  ∀ c ∈ call.causes, c ∈ s.register.causes

instance (s : Store) (call : Call) : Decidable (call.Known s) := by
  unfold Known
  cases call <;> exact inferInstanceAs (Decidable (_ ∧ _))

end Call

def Fault.causes : Fault → List Cause
  | message _ | report _ => []
  | reportOf _ inner | transparent inner => inner.causes
  | cause id wrapped => ⟨id, wrapped⟩ :: wrapped.causes

inductive Novelty
  | latch (hooks : Hooks)
  | gate
  | body
  | cause (wrapped : Fault)

/-- A fault made of causes that do not exist cannot be wrapped. -/
def Store.add (s : Store) : Novelty → Store
  | .latch hooks => (s.addLatch hooks).2
  | .gate => s.addGate.2
  | .body => (s.addBody {}).2
  | .cause wrapped =>
      if ∀ c ∈ wrapped.causes, c ∈ s.register.causes then (s.addCause wrapped).2 else s

/-- Where a call in progress stands: before the rest of its course, or behind an upcall that has
not come back. -/
inductive Stage
  | working (course : Course Response)
  | waiting (u : Upcall) (next : Outcome Unit → Course Response)

structure Frame where
  call : Call
  stage : Stage

inductive Mark
  | entered (call : Call)
  | accessed (a : Access) (reply : a.Reply)
  | started (u : Upcall)
  | ended (u : Upcall) (outcome : Outcome Unit)
  | left (call : Call) (outcome : Outcome Response)

structure World where
  store : Store := {}
  /-- The calls that each caller has in progress, the innermost first. -/
  frames : Nat → List Frame := fun _ => []
  /-- What has happened and to whom, the oldest first. -/
  log : List (Nat × Mark) := []

/-- A caller can make a call if it has none in progress, or if it is inside an upcall. -/
def mayEnter : List Frame → Bool
  | [] | ⟨_, .waiting _ _⟩ :: _ => true
  | ⟨_, .working _⟩ :: _ => false

inductive Move
  | enter (caller : Nat) (call : Call)
  | advance (caller : Nat)
  | comeBack (caller : Nat) (outcome : Outcome Unit)
  | create (novelty : Novelty)

namespace World

def put (w : World) (caller : Nat) (frames : List Frame) (mark : Mark) : World :=
  { w with
    frames := Function.update w.frames caller frames
    log := w.log ++ [(caller, mark)] }

/-- The world after a move; a move that cannot be made changes nothing. -/
def step (w : World) : Move → World
  | .enter caller call =>
      if mayEnter (w.frames caller) ∧ call.Known w.store then
        w.put caller (⟨call, .working call.course⟩ :: w.frames caller) (.entered call)
      else w
  | .advance caller =>
      match w.frames caller with
      | ⟨call, .working (.done outcome)⟩ :: rest => w.put caller rest (.left call outcome)
      | ⟨call, .working (.access a next)⟩ :: rest =>
          let (reply, store) := w.store.perform a
          { w with store }.put caller (⟨call, .working (next reply)⟩ :: rest) (.accessed a reply)
      | ⟨call, .working (.upcall u next)⟩ :: rest =>
          w.put caller (⟨call, .waiting u next⟩ :: rest) (.started u)
      | _ => w
  | .comeBack caller outcome =>
      match w.frames caller with
      | ⟨call, .waiting u next⟩ :: rest =>
          w.put caller (⟨call, .working (next outcome)⟩ :: rest) (.ended u outcome)
      | _ => w
  | .create novelty => { w with store := w.store.add novelty }

/-- The world that a run leads to, from one in which nothing has been made. -/
def after (moves : List Move) : World := moves.foldl step {}

end World

end OneShot
