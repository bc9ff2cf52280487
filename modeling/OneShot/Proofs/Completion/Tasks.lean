import OneShot.Proofs.Calls.Object

/-!
# Tasks of a signal

Whoever has had a signal received by a latch owes a list of tasks: to start
a hook, to see it come back, to publish the state after the abort hooks.
The tasks are done one by one from the front. All calls keep to that.
-/

namespace OneShot

open Course

namespace Latch

inductive Task
  | start (hook : Hook)
  | stop (hook : Hook)
  | publish (cause : Cause)
  deriving DecidableEq

def Task.isPublish : Task → Bool
  | publish _ => true
  | _ => false

/-- One hook after the other, each starting when the one before has come back. -/
def script : List Hook → List Task
  | [] => []
  | hook :: hooks => .start hook :: .stop hook :: script hooks

def Duty.tasks : Duty → List Task
  | .call hooks | .suppress _ _ hooks => script hooks
  | .abort cause => script [.aborted cause, .failed cause] ++ [.publish cause]

/-- A hook's panic frees of all tasks left, except while the state is still to be published. -/
def tasksAfter : Outcome Unit → List Task → List Task
  | .returned _, tasks => tasks
  | .panicked _, tasks => if tasks.any Task.isPublish then tasks else []

@[simp] theorem any_isPublish_script (hooks : List Hook) :
    (script hooks).any Task.isPublish = false := by
  induction hooks with
  | nil => rfl
  | cons hook hooks ih => exact ih

@[simp] theorem tasksAfter_panicked_script (text : String) (hooks : List Hook) :
    tasksAfter (.panicked text) (script hooks) = [] := by
  simp [tasksAfter]

theorem tasksAfter_of_isPublish {tasks : List Task} (h : tasks.any Task.isPublish = true)
    (outcome : Outcome Unit) : tasksAfter outcome tasks = tasks := by
  cases outcome with
  | returned value => rfl
  | panicked text => simp [tasksAfter, h]

/-- What the caller of a call to latch `id` may do there, and what it owes then. -/
inductive Allows (id : Nat) (call : Call) : List Task → Mark → List Task → Prop
  | receive {s duty} (hcall : call = .signal id s) :
      Allows id call [] (.accessed (.receive id s) duty) duty.tasks
  | publish {cause completing} (hcall : call.object? = some (.latch id)) :
      Allows id call [.publish cause] (.accessed (.publish id) completing)
        (if completing then script [.completed (some cause)] else [])
  | start {hook tasks} (hcall : call.object? = some (.latch id)) :
      Allows id call (.start hook :: tasks) (.started (.hook id hook)) tasks
  | stop {hook tasks outcome} (hcall : call.object? = some (.latch id)) :
      Allows id call (.stop hook :: tasks) (.ended (.hook id hook) outcome)
        (tasksAfter outcome tasks)
  | other {tasks mark} (hmark : mark.object? ≠ some (.latch id)) : Allows id call tasks mark tasks

def protocol (id : Nat) : Protocol (List Task) := ⟨fun _ => [], Allows id, fun tasks => tasks = []⟩

section Keeps

variable {id : Nat} {c : Call}

theorem keeps_callAll (hc : c.object? = some (.latch id)) (hooks : List Hook) :
    (callAll id hooks).Keeps (protocol id) c (protocol id).Settles (script hooks) := by
  induction hooks with
  | nil => exact rfl
  | cons hook hooks ih =>
      refine ⟨_, .start hc, fun outcome => ⟨_, .stop hc, ?_⟩⟩
      cases outcome with
      | returned value => exact ih
      | panicked text => exact tasksAfter_panicked_script text hooks

theorem keeps_suppressing {α : Type} {Q : Outcome α → List Task → Prop} {course : Course α}
    {tasks : List Task} (h : course.Keeps (protocol id) c Q tasks) (keeper : Cause)
    (late : Option Cause) :
    (do suppressing keeper late; course).Keeps (protocol id) c Q tasks := by
  cases late with
  | none => exact h
  | some late => exact fun _ => ⟨tasks, .other nofun, h⟩

/-- An abort hook that panics leaves the next tasks as they are, for the publishing is among
them. -/
theorem keeps_aborting (hc : c.object? = some (.latch id)) (cause : Cause) :
    (aborting id cause).Keeps (protocol id) c (protocol id).Settles (Duty.abort cause).tasks := by
  have hdone (first second : Outcome Unit) :
      (do done (first.and second); pure true : Course Bool).Keeps (protocol id) c
        (protocol id).Settles [] := by
    cases first <;> cases second <;> exact rfl
  refine ⟨_, .start hc, fun first => ⟨_, .stop hc, ?_⟩⟩
  rw [tasksAfter_of_isPublish rfl]
  refine ⟨_, .start hc, fun second => ⟨_, .stop hc, ?_⟩⟩
  rw [tasksAfter_of_isPublish rfl]
  intro completing
  refine ⟨_, .publish hc, ?_⟩
  cases completing with
  | false => exact hdone first second
  | true =>
      refine ⟨_, .start hc, fun third => ⟨_, .stop hc, ?_⟩⟩
      cases third with
      | returned value => exact hdone first second
      | panicked text => exact rfl

theorem keeps_deliver {s : Signal} (hc : c = .signal id s) :
    (deliver id s).Keeps (protocol id) c (protocol id).Settles [] := by
  have hobject : c.object? = some (.latch id) := by rw [hc, Call.object?]
  intro duty
  refine ⟨duty.tasks, .receive hc, ?_⟩
  have hcalls (hooks : List Hook) :
      (do callAll id hooks; pure false : Course Bool).Keeps (protocol id) c
        (protocol id).Settles (script hooks) := by
    apply (keeps_callAll hobject hooks).bind
    · intro _ _ hsettled
      exact hsettled
    · intro _ _ hsettled
      exact hsettled
  cases duty with
  | call hooks => exact hcalls hooks
  | suppress keeper late hooks => exact keeps_suppressing (hcalls hooks) keeper late
  | abort cause => exact keeps_aborting hobject cause

end Keeps

theorem kept_protocol (id : Nat) : (protocol id).Kept := by
  intro c
  by_cases hc : c.object? = some (.latch id)
  · cases c with
    | signal other s =>
        obtain rfl : other = id := by simpa [Call.object?] using hc
        apply (keeps_deliver rfl).bind
        · intro _ _ hsettled
          exact hsettled
        · intro _ _ hsettled
          exact hsettled
    | _ => exact absurd hc nofun
  · exact Call.keeps_of_object?_ne hc (fun _ hmark => .other hmark) rfl

end Latch

end OneShot
