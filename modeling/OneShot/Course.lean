import OneShot.Store

/-!
# Courses

A course is what a call does from beginning to end: accesses to the
store, calls out to code the library does not know, and in the end a
value or a panic. An upcall may do anything before it comes back, start
other courses among them, and it may panic, which ends the course unless
it made an attempt.
-/

namespace OneShot

inductive Outcome (α : Type) : Type
  | returned (value : α)
  | panicked (text : String)
  deriving DecidableEq, Inhabited

/-- The first panic of the two, if there is one. -/
def Outcome.and : Outcome Unit → Outcome Unit → Outcome Unit
  | panicked text, _ => panicked text
  | returned _, second => second

/-- A call out of the library: to the handler of a latch's hook, to a
closure, to the listener of a body, or to the sink of one of its chunks. -/
inductive Upcall
  | hook (latch : Nat) (hook : Hook)
  | closure (call : ClosureCall)
  | listener (body : Nat) (closure : Closure)
  | chunk (body : Nat) (sink : Sink) (ending : Ending)
  deriving DecidableEq, Inhabited

/-- The closure that an upcall ends up in, if it does. -/
def Store.closureCall? (s : Store) : Upcall → Option ClosureCall
  | .hook id hook => s.latches[id]?.bind fun latch => latch.hooks.call? hook
  | .closure call => some call
  | .listener _ closure => some ⟨closure, .nothing⟩
  | .chunk _ _ _ => none

inductive Course (α : Type) : Type
  | done (outcome : Outcome α)
  | access (a : Access) (next : a.Reply → Course α)
  | upcall (u : Upcall) (next : Outcome Unit → Course α)

namespace Course

def bind {α β : Type} (f : α → Course β) : Course α → Course β
  | done (.returned value) => f value
  | done (.panicked text) => done (.panicked text)
  | access a next => access a fun reply => (next reply).bind f
  | upcall u next => upcall u fun outcome => (next outcome).bind f

instance : Monad Course where
  pure value := done (.returned value)
  bind course f := course.bind f

variable {α β γ : Type}

@[simp] theorem pure_bind (value : α) (f : α → Course β) : (pure value >>= f) = f value := rfl

@[simp] theorem panicked_bind (text : String) (f : α → Course β) :
    ((done (.panicked text) : Course α) >>= f) = done (.panicked text) := rfl

@[simp] theorem access_bind (a : Access) (next : a.Reply → Course α) (f : α → Course β) :
    (access a next >>= f) = access a fun reply => next reply >>= f := rfl

@[simp] theorem upcall_bind (u : Upcall) (next : Outcome Unit → Course α) (f : α → Course β) :
    (upcall u next >>= f) = upcall u fun outcome => next outcome >>= f := rfl

@[simp] theorem bind_pure (course : Course α) : (course >>= pure) = course := by
  induction course with
  | done outcome => cases outcome <;> rfl
  | access a next ih => simp [ih]
  | upcall u next ih => simp [ih]

theorem bind_assoc (course : Course α) (f : α → Course β) (g : β → Course γ) :
    (course >>= f >>= g) = course >>= fun value => f value >>= g := by
  induction course with
  | done outcome => cases outcome <;> rfl
  | access a next ih => simp [ih]
  | upcall u next ih => simp [ih]

instance : LawfulMonad Course :=
  LawfulMonad.mk' Course (fun course => bind_pure course) pure_bind bind_assoc

/-- One access, and its reply. -/
def touch (a : Access) : Course a.Reply := access a pure

/-- One upcall; its panic goes on. -/
def call (u : Upcall) : Course Unit := upcall u done

/-- Gives the outcome of the course, a panic too, as a value. -/
def attempt : Course α → Course (Outcome α)
  | done outcome => pure outcome
  | access a next => access a fun reply => (next reply).attempt
  | upcall u next => upcall u fun outcome => (next outcome).attempt

/-- What stands around the library: it answers upcalls, may use the store
meanwhile, and has a memory of its own. -/
abbrev Surroundings (μ : Type) := Upcall → μ → Store → Outcome Unit × μ × Store

def run {μ : Type} (answer : Surroundings μ) : Course α → μ → Store → Outcome α × μ × Store
  | done outcome, memory, s => (outcome, memory, s)
  | access a next, memory, s =>
      let (reply, s) := s.perform a
      (next reply).run answer memory s
  | upcall u next, memory, s =>
      let (outcome, memory, s) := answer u memory s
      (next outcome).run answer memory s

@[simp] theorem run_pure {μ : Type} (answer : Surroundings μ) (value : α) (memory : μ)
    (s : Store) : (pure value : Course α).run answer memory s = (.returned value, memory, s) := rfl

theorem run_bind {μ : Type} (answer : Surroundings μ) (course : Course α) (f : α → Course β)
    (memory : μ) (s : Store) :
    (course >>= f).run answer memory s =
      match course.run answer memory s with
      | (.returned value, memory, s) => (f value).run answer memory s
      | (.panicked text, memory, s) => (.panicked text, memory, s) := by
  induction course generalizing memory s with
  | done outcome => cases outcome <;> rfl
  | access a next ih => simp [run, ih]
  | upcall u next ih => simp [run, ih]

theorem run_attempt {μ : Type} (answer : Surroundings μ) (course : Course α)
    (memory : μ) (s : Store) :
    course.attempt.run answer memory s =
      match course.run answer memory s with
      | (outcome, memory, s) => (.returned outcome, memory, s) := by
  induction course generalizing memory s with
  | done outcome => rfl
  | access a next ih => simp [attempt, run, ih]
  | upcall u next ih => simp [attempt, run, ih]

end Course

end OneShot
