import OneShot.Proofs.Calls.Object

/-!
# The effect of an access

What an access does to the latches of a store. Only a signal received and
a publishing change any, and they change the one they name as its state
says.
-/

namespace OneShot

namespace Store

/-- A latch that has not been made yet is idle. -/
def stateOf (s : Store) (id : Nat) : Latch.State := (s.latches[id]?.map Latch.state).getD .idle

theorem stateOf_eq {s : Store} {id : Nat} {latch : Latch} (h : s.latches[id]? = some latch) :
    s.stateOf id = latch.state := by
  rw [stateOf, h]
  rfl

theorem lt_of_ne_idle {s : Store} {id : Nat} (h : s.stateOf id ≠ .idle) :
    id < s.latches.length := by
  by_contra hge
  rw [stateOf, List.getElem?_eq_none (Nat.le_of_not_lt hge)] at h
  exact h rfl

theorem latches_perform (s : Store) {a : Access} (h : ∀ id, a.object? ≠ some (.latch id)) :
    (s.perform a).2.latches = s.latches := by
  cases a with
  | receive id signal => exact absurd rfl (h id)
  | publish id => exact absurd rfl (h id)
  | suppress keeper late => rfl
  | settle id ending =>
      simp only [perform, settle]
      split
      · rfl
      · split <;> rfl
  | offer id chunk =>
      simp only [perform, offer]
      split
      · rfl
      · split
        · rfl
        · split <;> rfl
  | next id =>
      simp only [perform, next]
      split <;> rfl
  | acknowledge id =>
      simp only [perform, acknowledge]
      split <;> rfl
  | close id =>
      simp only [perform, close]
      split
      · rfl
      · split <;> rfl
  | fail id cause =>
      simp only [perform, fail]
      split
      · rfl
      · split <;> rfl
  | listen id listener =>
      simp only [perform, listen]
      split <;> rfl

theorem getElem?_latches_perform (s : Store) {a : Access} {id : Nat}
    (h : a.object? ≠ some (.latch id)) : (s.perform a).2.latches[id]? = s.latches[id]? := by
  cases a with
  | receive other signal =>
      have hne : other ≠ id := fun he => h (he ▸ rfl)
      simp only [perform, receive]
      split
      · rfl
      · exact List.getElem?_set_ne hne
  | publish other =>
      have hne : other ≠ id := fun he => h (he ▸ rfl)
      simp only [perform, publish]
      split
      · rfl
      · exact List.getElem?_set_ne hne
  | _ =>
      rw [latches_perform s]
      exact fun _ => nofun

theorem stateOf_perform_of_ne (s : Store) {a : Access} {id : Nat}
    (h : a.object? ≠ some (.latch id)) : (s.perform a).2.stateOf id = s.stateOf id := by
  rw [stateOf, getElem?_latches_perform s h, stateOf]

theorem length_latches_perform (s : Store) (a : Access) :
    (s.perform a).2.latches.length = s.latches.length := by
  cases a with
  | receive id signal =>
      simp only [perform, receive]
      split
      · rfl
      · exact List.length_set
  | publish id =>
      simp only [perform, publish]
      split
      · rfl
      · exact List.length_set
  | _ =>
      rw [latches_perform s]
      exact fun _ => nofun

/-- The latch that is signalled goes on as its state says. -/
theorem perform_receive {s : Store} {id : Nat} (h : id < s.latches.length) (signal : Signal) :
    (s.perform (.receive id signal)).1 = ((s.stateOf id).receive signal).2 ∧
      (s.perform (.receive id signal)).2.stateOf id = ((s.stateOf id).receive signal).1 := by
  have hlatch : s.latches[id]? = some s.latches[id] := List.getElem?_eq_getElem h
  rw [stateOf_eq hlatch]
  simp only [perform, receive, hlatch]
  refine ⟨trivial, ?_⟩
  rw [stateOf, List.getElem?_set_self h]
  rfl

theorem perform_publish (s : Store) (id : Nat) :
    (s.perform (.publish id)).1 = (s.stateOf id).publish.2 ∧
      (s.perform (.publish id)).2.stateOf id = (s.stateOf id).publish.1 := by
  cases hlatch : s.latches[id]? with
  | none =>
      have hidle : s.stateOf id = .idle := by
        rw [stateOf, hlatch]
        rfl
      simp only [perform, publish, hlatch, hidle]
      exact ⟨rfl, rfl⟩
  | some latch =>
      rw [stateOf_eq hlatch]
      simp only [perform, publish, hlatch]
      refine ⟨trivial, ?_⟩
      rw [stateOf, List.getElem?_set_self (List.getElem?_eq_some_iff.mp hlatch).1]
      rfl

theorem stateOf_add (s : Store) (novelty : Novelty) (id : Nat) :
    (s.add novelty).stateOf id = s.stateOf id := by
  cases novelty with
  | latch hooks =>
      simp only [add, addLatch, stateOf]
      by_cases h : id < s.latches.length
      · rw [List.getElem?_append_left h]
      · rw [List.getElem?_append_right (Nat.le_of_not_lt h),
          List.getElem?_eq_none (Nat.le_of_not_lt h)]
        cases hnew : ([{ hooks }] : List Latch)[id - s.latches.length]? with
        | none => rfl
        | some latch =>
            obtain rfl := List.mem_singleton.mp (List.mem_of_getElem? hnew)
            rfl
  | gate => rfl
  | body => rfl
  | cause wrapped =>
      simp only [add]
      split <;> rfl

theorem length_latches_add (s : Store) (novelty : Novelty) :
    s.latches.length ≤ (s.add novelty).latches.length := by
  cases novelty with
  | latch hooks => simp [add, addLatch]
  | gate => exact Nat.le_refl _
  | body => exact Nat.le_refl _
  | cause wrapped =>
      simp only [add]
      split <;> exact Nat.le_refl _

end Store

end OneShot
