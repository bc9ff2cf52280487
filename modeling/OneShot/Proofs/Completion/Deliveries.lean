import OneShot.Proofs.Completion.Gates

/-!
# What a delivery comes to

A signal is received first, and the state that it finds says how the delivery
goes on. Here is what each of them comes to, whatever the hooks do.
-/

namespace OneShot

open Course

/-- The value, unless there was a panic. -/
def Outcome.yielding {α : Type} (value : α) : Outcome Unit → Outcome α
  | returned _ => returned value
  | panicked text => panicked text

namespace Store

variable {s : Store} {id : Nat} {latch : Latch}

theorem getElem?_receive (hlatch : s.latches[id]? = some latch) (signal : Signal) :
    (s.receive id signal).2.latches[id]? =
      some { latch with state := (latch.state.receive signal).1 } := by
  rw [receive_eq hlatch]
  exact List.getElem?_set_self (List.getElem?_eq_some_iff.mp hlatch).1

theorem publish_eq (hlatch : s.latches[id]? = some latch) :
    s.publish id = (latch.state.publish.2,
      { s with latches := s.latches.set id { latch with state := latch.state.publish.1 } }) := by
  simp only [publish, hlatch]

theorem getElem?_publish (hlatch : s.latches[id]? = some latch) :
    (s.publish id).2.latches[id]? = some { latch with state := latch.state.publish.1 } := by
  rw [publish_eq hlatch]
  exact List.getElem?_set_self (List.getElem?_eq_some_iff.mp hlatch).1

end Store

namespace Latch

variable {μ : Type} {answer : Surroundings μ} {memory : μ} {s : Store} {id : Nat} {c : Cause}

theorem State.receive_idle_finish (ending : Ending) :
    (idle.receive (.finish ending)).2 = .call (endingHooks ending.cause?) := by
  cases ending <;> rfl

/-- The first signal, if it is an ending, has two hooks run. -/
theorem run_deliver_idle_finish {latch : Latch} (hlatch : s.latches[id]? = some latch)
    (hidle : latch.state = .idle) (ending : Ending) :
    ((Sink.latch id).deliver (.finish ending)).run answer memory s =
      (do
        callAll id (endingHooks ending.cause?)
        pure false : Course Bool).run answer memory (s.receive id (.finish ending)).2 := by
  have hduty : (s.receive id (.finish ending)).1 = .call (endingHooks ending.cause?) := by
    rw [Store.receive_eq hlatch, hidle, State.receive_idle_finish]
  simp only [deliver_latch, run, Store.perform, hduty, concluding_call]

theorem run_deliver_idle_abort {latch : Latch} (hlatch : s.latches[id]? = some latch)
    (hidle : latch.state = .idle) :
    ((Sink.latch id).deliver (.abort c)).run answer memory s =
      (aborting id c).run answer memory (s.receive id (.abort c)).2 := by
  have hduty : (s.receive id (.abort c)).1 = .abort c := by
    rw [Store.receive_eq hlatch, hidle]
    rfl
  simp only [deliver_latch, run, Store.perform, hduty]
  rfl

/-- A latch that holds a cause has a late one recorded before anything else is done. -/
theorem run_deliver_held (hheld : (s.stateOf id).cause? = some c) (signal : Signal) :
    ((Sink.latch id).deliver signal).run answer memory s =
      (do
        callAll id ((s.stateOf id).closing signal)
        pure false : Course Bool).run answer memory
          ((s.receive id signal).2.record (signal.cause?.map (c, ·))) := by
  cases hd : signal.cause? with
  | some d => exact run_deliver_late answer memory hheld hd
  | none =>
      have hduty := Store.receive_of_cause? hheld signal
      rw [hd] at hduty
      simp only [deliver_latch, run, Store.perform, hduty, concluding_suppress]
      rfl

/-- Both abort hooks come back before the state is published. Of the panics that of the hook of
completion goes on if there is one, else the first. -/
theorem run_aborting {first second third : Outcome Unit} {memory₁ memory₂ memory₃ : μ}
    {s₁ s₂ s₃ : Store}
    (hfirst : answer (.hook id (.aborted c)) memory s = (first, memory₁, s₁))
    (hsecond : answer (.hook id (.failed c)) memory₁ s₁ = (second, memory₂, s₂))
    (hthird : (if (s₂.publish id).1 then
        answer (.hook id (.completed (some c))) memory₂ (s₂.publish id).2
      else (.returned (), memory₂, (s₂.publish id).2)) = (third, memory₃, s₃)) :
    (aborting id c).run answer memory s =
      ((third.and (first.and second)).yielding true, memory₃, s₃) := by
  have hdone (memory : μ) (s : Store) :
      (do
        done (first.and second)
        pure true : Course Bool).run answer memory s =
          ((first.and second).yielding true, memory, s) := by
    cases first.and second <;> rfl
  simp only [aborting, attempt, call, touch, upcall_bind, access_bind, pure_bind, run,
    Store.perform, hfirst, hsecond]
  cases hcompleting : (s₂.publish id).1 with
  | false =>
      simp only [hcompleting, Bool.false_eq_true, if_false, Prod.mk.injEq] at hthird ⊢
      obtain ⟨rfl, rfl, rfl⟩ := hthird
      exact hdone memory₂ _
  | true =>
      simp only [hcompleting, if_true] at hthird ⊢
      rw [run, hthird]
      cases third with
      | returned value => exact hdone memory₃ s₃
      | panicked text => rfl

end Latch

end OneShot
