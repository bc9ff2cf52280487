import OneShot.Course

/-!
# Deadlines

Who waits no longer than a limit first reckons the deadline, and only then
looks whether there is anything to wait for. The clock has a last moment; a
limit that reaches beyond it panics, however things stand.
-/

namespace OneShot

/-- The seconds since the clock was started are a signed number of 64 bits. -/
def Instant.bound : Nat := 9223372036854775808 * 1000000000

/-- A moment, by the nanoseconds since the clock was started. -/
structure Instant where
  nanoseconds : Fin Instant.bound
  deriving DecidableEq

namespace Instant

def origin : Instant := ⟨0, by decide⟩

/-- The moment when so much time has passed, if the clock gets that far. -/
def after? (now : Instant) (limit : Duration) : Option Instant :=
  if h : now.nanoseconds.val + limit.nanoseconds.val < bound then
    some ⟨now.nanoseconds.val + limit.nanoseconds.val, h⟩
  else none

/-- A wait of no longer than `limit`. There may be an answer at once; if there is none until the
deadline, the wait has expired. -/
def await (now : Instant) (limit : Duration) (answer? : Option (Except Refusal Unit))
    (expired : Duration → Refusal) : Outcome (Except Refusal Unit) :=
  match now.after? limit with
  | none => .panicked "overflow when adding duration to instant"
  | some _ => .returned (answer?.getD (.error (expired limit)))

variable {now : Instant} {limit : Duration} {answer : Except Refusal Unit}

theorem after?_eq_none_iff :
    now.after? limit = none ↔ bound ≤ now.nanoseconds.val + limit.nanoseconds.val := by
  rw [after?]
  split <;> simp_all

/-- No clock gets to the end of the longest duration. -/
@[simp] theorem after?_longest (now : Instant) : now.after? .longest = none := by
  have hlongest : bound ≤ Duration.longest.nanoseconds.val := by decide
  exact after?_eq_none_iff.mpr (Nat.le_trans hlongest (Nat.le_add_left _ _))

theorem await_of_after? (h : (now.after? limit).isSome = true) (expired : Duration → Refusal) :
    now.await limit (some answer) expired = .returned answer := by
  obtain ⟨deadline, hdeadline⟩ := Option.isSome_iff_exists.mp h
  rw [await, hdeadline]
  rfl

theorem eq_of_await_eq_returned {expired : Duration → Refusal} {answered : Except Refusal Unit}
    (h : now.await limit (some answer) expired = .returned answered) : answered = answer := by
  rw [await] at h
  split at h
  · nomatch h
  · exact (Outcome.returned.inj h).symm

end Instant

/-- One who comes to a gate at the moment `now` and waits no longer than `limit`. -/
def Gate.passWithin (g : Gate) (now : Instant) (limit : Duration) : Outcome (Except Refusal Unit) :=
  now.await limit g.pass? .waitExpired

/-- A flush that is begun at the moment `now` and waits no longer than `limit`. -/
def Body.flushWithin (b : Body) (now : Instant) (limit : Duration) :
    Outcome (Except Refusal Unit) :=
  now.await limit b.flush? .flushExpired

end OneShot
