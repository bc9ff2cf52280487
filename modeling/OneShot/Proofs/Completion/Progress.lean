import OneShot.Proofs.Completion.Tasks

/-!
# The progress of a latch

The state of a latch, what has been seen of its hooks, whether an ending
has come, and the tasks still owed hang together. Here is how, and that a
signal received, a publishing and the start and the end of a hook keep it
so.
-/

namespace OneShot

def Signal.isEnding : Signal → Bool
  | finish _ => true
  | abort _ => false

namespace Latch

inductive Beat
  | start (hook : Hook)
  | stop (hook : Hook) (outcome : Outcome Unit)
  deriving DecidableEq

def Beat.task : Beat → Task
  | start hook => .start hook
  | stop hook _ => .stop hook

@[simp] theorem any_isPublish_map_task (beats : List Beat) :
    (beats.map Beat.task).any Task.isPublish = false := by
  induction beats with
  | nil => rfl
  | cons beat beats ih => cases beat <;> exact ih

def ran (hook : Hook) (outcome : Outcome Unit) : List Beat := [.start hook, .stop hook outcome]

/-- Hooks are run in turn until one panics; the tasks are those still to be done. -/
inductive Delivered : List Hook → List Beat → List Task → Prop
  | pending (hooks) : Delivered hooks [] (script hooks)
  | running (hook hooks) :
      Delivered (hook :: hooks) [.start hook] (.stop hook :: script hooks)
  | panicked (hook hooks text) : Delivered (hook :: hooks) (ran hook (.panicked text)) []
  | returned (hook) {hooks beats tasks} (h : Delivered hooks beats tasks) :
      Delivered (hook :: hooks) (ran hook (.returned ()) ++ beats) tasks

namespace Delivered

variable {hooks : List Hook} {hook : Hook} {beats : List Beat} {tasks : List Task}

theorem start (h : Delivered hooks beats (.start hook :: tasks)) :
    Delivered hooks (beats ++ [.start hook]) tasks := by
  generalize howed : Task.start hook :: tasks = owed at h
  induction h with
  | pending hooks =>
      cases hooks with
      | nil => nomatch howed
      | cons first rest =>
          rw [script, List.cons.injEq, Task.start.injEq] at howed
          obtain ⟨rfl, rfl⟩ := howed
          exact running hook rest
  | running first rest => nomatch howed
  | panicked first rest text => nomatch howed
  | returned first _ ih => exact returned first (ih howed)

theorem stop (h : Delivered hooks beats (.stop hook :: tasks)) (outcome : Outcome Unit) :
    Delivered hooks (beats ++ [.stop hook outcome]) (tasksAfter outcome tasks) := by
  generalize howed : Task.stop hook :: tasks = owed at h
  induction h with
  | pending hooks => cases hooks <;> nomatch howed
  | running first rest =>
      rw [List.cons.injEq, Task.stop.injEq] at howed
      obtain ⟨rfl, rfl⟩ := howed
      cases outcome with
      | returned value => exact returned hook (pending rest)
      | panicked text =>
          rw [tasksAfter_panicked_script]
          exact panicked hook rest text
  | panicked first rest text => nomatch howed
  | returned first _ ih => exact returned first (ih howed)

theorem any_isPublish (h : Delivered hooks beats tasks) : tasks.any Task.isPublish = false := by
  induction h with
  | pending hooks => exact any_isPublish_script hooks
  | running first rest => exact any_isPublish_script rest
  | panicked first rest text => rfl
  | returned first _ ih => exact ih

theorem isPrefix (h : Delivered hooks beats tasks) : beats.map Beat.task <+: script hooks := by
  induction h with
  | pending hooks => exact List.nil_prefix
  | running first rest => exact ⟨.stop first :: script rest, rfl⟩
  | panicked first rest text => exact ⟨script rest, rfl⟩
  | returned first _ ih =>
      obtain ⟨rest, hrest⟩ := ih
      exact ⟨rest, congrArg (fun tasks => Task.start first :: .stop first :: tasks) hrest⟩

/-- When nothing is owed any more, either the first hook has panicked or the others were
delivered after it. -/
theorem of_nil (h : Delivered (hook :: hooks) beats []) :
    (∃ text, beats = ran hook (.panicked text)) ∨
      ∃ more, beats = ran hook (.returned ()) ++ more ∧ Delivered hooks more [] := by
  generalize howed : ([] : List Task) = owed at h
  cases h with
  | pending hooks => nomatch howed
  | running first rest => nomatch howed
  | panicked first rest text => exact .inl ⟨text, rfl⟩
  | returned first hrest => exact .inr ⟨_, rfl, howed ▸ hrest⟩

theorem eq_nil (h : Delivered [] beats tasks) : beats = [] := by
  cases h
  rfl

end Delivered

/-- The hooks of an ending that a latch receives while it is idle. -/
def endingHooks : Option Cause → List Hook
  | none => [.succeeded, .completed none]
  | some c => [.failed c, .completed (some c)]

def abortHooks (c : Cause) : List Hook := [.aborted c, .failed c]

/-- How the state goes with what has been seen of the hooks, whether an ending has come, and what
is owed. While the latch is aborting, and after that, each of the abort's hooks is run whether or
not the one before it panics. -/
inductive Progress : State → List Beat → Bool → List Task → Prop
  | idle : Progress .idle [] false []
  | aborting {c completing beats tasks}
      (h : beats.map Beat.task ++ tasks = (Duty.abort c).tasks) :
      Progress (.aborting c completing) beats completing tasks
  | aborted {c beats} (h : beats.map Beat.task = script (abortHooks c)) :
      Progress (.aborted c) beats false []
  | succeeded {beats tasks} (h : Delivered (endingHooks none) beats tasks) :
      Progress .succeeded beats true tasks
  | failed {c beats tasks} (h : Delivered (endingHooks (some c)) beats tasks) :
      Progress (.failed c) beats true tasks
  | completed {c past beats tasks} (hpast : past.map Beat.task = script (abortHooks c))
      (h : Delivered [.completed (some c)] beats tasks) :
      Progress (.failed c) (past ++ beats) true tasks

namespace Progress

variable {state : State} {beats : List Beat} {ended : Bool} {hook : Hook} {tasks : List Task}

/-- A signal gives its caller tasks only when nobody owes any. -/
theorem receive (h : Progress state beats ended tasks) (s : Signal) :
    let received := state.receive s
    (received.2.tasks = [] ∧ Progress received.1 beats (ended || s.isEnding) tasks) ∨
      (tasks = [] ∧ Progress received.1 beats (ended || s.isEnding) received.2.tasks) := by
  cases h with
  | idle =>
      right
      refine ⟨rfl, ?_⟩
      cases s with
      | finish ending =>
          cases ending with
          | success => exact succeeded (.pending _)
          | failure c => exact failed (.pending _)
      | abort c => exact aborting rfl
  | aborting h =>
      left
      cases s with
      | finish ending =>
          rw [Signal.isEnding, Bool.or_true]
          exact ⟨rfl, aborting h⟩
      | abort d =>
          rw [Signal.isEnding, Bool.or_false]
          exact ⟨rfl, aborting h⟩
  | aborted h =>
      right
      refine ⟨rfl, ?_⟩
      cases s with
      | finish ending =>
          rw [← List.append_nil beats]
          exact completed h (.pending _)
      | abort d => exact aborted h
  | succeeded h =>
      left
      rw [State.receive_succeeded]
      exact ⟨rfl, succeeded h⟩
  | failed h =>
      left
      rw [State.receive_failed]
      exact ⟨rfl, failed h⟩
  | completed hpast h =>
      left
      rw [State.receive_failed]
      exact ⟨rfl, completed hpast h⟩

/-- To publish is the last task of an abort; what follows depends on whether an ending came. -/
theorem publish {cause : Cause} (h : Progress state beats ended [.publish cause]) :
    let published := state.publish
    Progress published.1 beats ended
      (if published.2 then script [.completed (some cause)] else []) := by
  cases h with
  | aborting h =>
      rename_i c
      have hlast := List.append_inj' h rfl
      obtain rfl : cause = c := by simpa using hlast.2
      cases ended with
      | false => exact aborted hlast.1
      | true =>
          rw [← List.append_nil beats]
          exact completed hlast.1 (.pending _)
  | succeeded h => exact absurd h.any_isPublish nofun
  | failed h => exact absurd h.any_isPublish nofun
  | completed hpast h => exact absurd h.any_isPublish nofun

theorem start (h : Progress state beats ended (.start hook :: tasks)) :
    Progress state (beats ++ [.start hook]) ended tasks := by
  cases h with
  | aborting h =>
      apply aborting
      rw [← h, List.map_append, List.append_assoc]
      rfl
  | succeeded h => exact succeeded h.start
  | failed h => exact failed h.start
  | completed hpast h =>
      rw [List.append_assoc]
      exact completed hpast h.start

theorem stop (h : Progress state beats ended (.stop hook :: tasks)) (outcome : Outcome Unit) :
    Progress state (beats ++ [.stop hook outcome]) ended (tasksAfter outcome tasks) := by
  cases h with
  | aborting h =>
      have hpublish : tasks.any Task.isPublish = true := by
        have hall := congrArg (List.any · Task.isPublish) h
        rwa [List.any_append, any_isPublish_map_task] at hall
      rw [tasksAfter_of_isPublish hpublish]
      apply aborting
      rw [← h, List.map_append, List.append_assoc]
      rfl
  | succeeded h => exact succeeded (h.stop outcome)
  | failed h => exact failed (h.stop outcome)
  | completed hpast h =>
      rw [List.append_assoc]
      exact completed hpast (h.stop outcome)

end Progress

end Latch

end OneShot
