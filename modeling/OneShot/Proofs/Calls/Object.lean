import OneShot.Proofs.Calls.Protocol

/-!
# Objects

Latches, gates and bodies are the objects of a store. A call is about one
of them at most, and in its course nothing is looked at, changed or called
out from but that one and the register of causes.
-/

namespace OneShot

open Course

inductive Object
  | latch (id : Nat)
  | gate (id : Nat)
  | body (id : Nat)
  deriving DecidableEq

def Access.object? : Access → Option Object
  | receive id _ | publish id => some (.latch id)
  | suppress _ _ => none
  | settle id _ => some (.gate id)
  | offer id _ | next id | acknowledge id | close id | fail id _ | listen id _ => some (.body id)

def Upcall.object? : Upcall → Option Object
  | hook id _ => some (.latch id)
  | closure _ => none
  | listener id _ | chunk id _ _ => some (.body id)

def Call.object? : Call → Option Object
  | signal id _ => some (.latch id)
  | settle id _ => some (.gate id)
  | suppress _ _ => none
  | offer id _ | next id | acknowledge id | close id | fail id _ | listen id _ => some (.body id)

def Mark.object? : Mark → Option Object
  | entered call | left call _ => call.object?
  | accessed a _ => a.object?
  | started u | ended u _ => u.object?

def Mark.Within (o : Option Object) (mark : Mark) : Prop := mark.object? = none ∨ mark.object? = o

section Within

variable {α β : Type} {o : Option Object}

/-- In its course nothing is seen but what is about the object, or about none. -/
def Course.Within (o : Option Object) (course : Course α) : Prop :=
  ∀ call, course.Keeps (.only (Mark.Within o)) call (fun _ _ => True) ()

theorem within_pure (value : α) : (pure value : Course α).Within o := fun _ => trivial

theorem within_bind {course : Course α} {f : α → Course β} (hcourse : course.Within o)
    (hf : ∀ value, (f value).Within o) : (course >>= f).Within o := by
  intro call
  apply (hcourse call).bind
  · intro value _ _
    exact hf value call
  · intro text _ _
    trivial

theorem within_attempt {course : Course α} (h : course.Within o) : course.attempt.Within o :=
  fun call => (h call).attempt

theorem within_touch {a : Access} (h : a.object? = none ∨ a.object? = o) : (touch a).Within o :=
  fun _ _ => ⟨(), h, trivial⟩

theorem within_call {u : Upcall} (h : u.object? = none ∨ u.object? = o) : (call u).Within o :=
  fun _ => ⟨(), h, fun _ => ⟨(), h, trivial⟩⟩

end Within

namespace Latch

theorem within_callAll (id : Nat) (hooks : List Hook) :
    (callAll id hooks).Within (some (.latch id)) := by
  induction hooks with
  | nil => exact within_pure ()
  | cons hook hooks ih => exact within_bind (within_call (.inr rfl)) fun _ => ih

theorem within_suppressing (o : Option Object) (keeper : Cause) (late : Option Cause) :
    (suppressing keeper late).Within o := by
  cases late with
  | none => exact within_pure ()
  | some late => exact within_touch (.inl rfl)

theorem within_aborting (id : Nat) (cause : Cause) :
    (aborting id cause).Within (some (.latch id)) := by
  refine within_bind (within_attempt (within_call (.inr rfl))) fun first => ?_
  refine within_bind (within_attempt (within_call (.inr rfl))) fun second => ?_
  refine within_bind (within_touch (.inr rfl)) fun completing => ?_
  have hdone : (do done (first.and second); pure true : Course Bool).Within (some (.latch id)) :=
    within_bind (fun _ => trivial) fun _ => within_pure true
  cases completing with
  | true => exact within_bind (within_call (.inr rfl)) fun _ => hdone
  | false => exact hdone

theorem within_deliver (id : Nat) (s : Signal) :
    (deliver id s).Within (some (.latch id)) := by
  refine within_bind (within_touch (.inr rfl)) fun duty => ?_
  cases duty with
  | call hooks => exact within_bind (within_callAll id hooks) fun _ => within_pure false
  | suppress keeper late hooks =>
      exact within_bind (within_suppressing _ keeper late) fun _ =>
        within_bind (within_callAll id hooks) fun _ => within_pure false
  | abort cause => exact within_aborting id cause

end Latch

namespace Body

theorem within_notify (id : Nat) (listener : Option Closure) :
    (notify id listener).Within (some (.body id)) := by
  cases listener with
  | none => exact within_pure ()
  | some listener => exact within_call (.inr rfl)

theorem within_offering (id : Nat) (chunk : Chunk) :
    (offering id chunk).Within (some (.body id)) := by
  refine within_bind (within_touch (.inr rfl)) fun admission => ?_
  cases admission with
  | accepted listener => exact within_bind (within_notify id listener) fun _ => within_pure true
  | rejected cause => exact within_bind (within_call (.inr rfl)) fun _ => within_pure false

theorem within_closing (id : Nat) : (closing id).Within (some (.body id)) :=
  within_bind (within_touch (.inr rfl)) (within_notify id)

theorem within_failAll (id : Nat) (cause : Cause) (sinks : List Sink) :
    (failAll id cause sinks).Within (some (.body id)) := by
  induction sinks with
  | nil => exact within_pure ()
  | cons sink sinks ih => exact within_bind (within_call (.inr rfl)) fun _ => ih

theorem within_failing (id : Nat) (cause : Cause) :
    (failing id cause).Within (some (.body id)) := by
  refine within_bind (within_touch (.inr rfl)) fun fallout => ?_
  cases fallout with
  | none => exact within_pure false
  | some fallout =>
      exact within_bind (within_failAll id cause fallout.sinks) fun _ =>
        within_bind (within_notify id fallout.listener) fun _ => within_pure true

theorem within_acknowledging (id : Nat) : (acknowledging id).Within (some (.body id)) := by
  refine within_bind (within_touch (.inr rfl)) fun sink => ?_
  cases sink with
  | none => exact within_pure ()
  | some sink => exact within_call (.inr rfl)

end Body

theorem Call.within_course (call : Call) : call.course.Within call.object? := by
  cases call with
  | signal id s => exact within_bind (Latch.within_deliver id s) fun _ => within_pure _
  | settle id ending => exact within_bind (within_touch (.inr rfl)) fun _ => within_pure _
  | suppress keeper late => exact within_bind (within_touch (.inl rfl)) fun _ => within_pure _
  | offer id chunk => exact within_bind (Body.within_offering id chunk) fun _ => within_pure _
  | next id => exact within_bind (within_touch (.inr rfl)) fun _ => within_pure _
  | acknowledge id => exact within_bind (Body.within_acknowledging id) fun _ => within_pure _
  | close id => exact within_bind (Body.within_closing id) fun _ => within_pure _
  | fail id cause => exact within_bind (Body.within_failing id cause) fun _ => within_pure _
  | listen id listener => exact within_bind (within_touch (.inr rfl)) fun _ => within_pure _

/-- A call that is about another object keeps to any protocol that lets it pass. -/
theorem Call.keeps_of_object?_ne {δ : Type} {p : Protocol δ} {call : Call} {o : Object}
    (hne : call.object? ≠ some o)
    (hallows : ∀ mark : Mark, mark.object? ≠ some o →
      p.allows call (p.opens call) mark (p.opens call))
    (hcloses : p.closes (p.opens call)) :
    call.course.Keeps p call p.Settles (p.opens call) := by
  apply keeps_of_only (call.within_course call) _ fun _ => hcloses
  intro mark hmark
  apply hallows
  obtain hnone | hsame := hmark
  · rw [hnone]
    exact nofun
  · rw [hsame]
    exact hne

end OneShot
