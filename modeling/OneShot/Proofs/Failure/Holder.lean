import OneShot.Proofs.Body.Agreement
import OneShot.Proofs.Completion.Timeline

/-!
# Holders of causes

A latch that was aborted or has failed, a gate that was opened by a failure
and a body that has failed hold a cause. An object comes to hold only what
some call has brought it, so in every run the causes held have been created.
-/

namespace OneShot

/-- The cause of which an access may leave an object the holder. -/
def Access.brought? : Access → Option Cause
  | receive _ signal => signal.cause?
  | settle _ ending => ending.cause?
  | fail _ cause => some cause
  | _ => none

/-- The cause that a call delivers to the object it is about. -/
def Call.delivered? : Call → Option Cause
  | signal _ s => s.cause?
  | settle _ ending => ending.cause?
  | fail _ cause => some cause
  | _ => none

theorem Call.mem_causes_of_delivered {call : Call} {c : Cause} (h : call.delivered? = some c) :
    c ∈ call.causes := by
  cases call with
  | signal id s => exact Option.mem_toList.mpr h
  | settle id ending => exact Option.mem_toList.mpr h
  | fail id cause =>
      obtain rfl : cause = c := Option.some.inj h
      exact List.mem_singleton_self cause
  | _ => nomatch h

namespace Latch.State

theorem cause?_receive {state : State} {signal : Signal} {c : Cause}
    (h : (state.receive signal).1.cause? = some c) :
    state.cause? = some c ∨ signal.cause? = some c := by
  cases state with
  | idle =>
      right
      cases signal with
      | finish ending =>
          cases ending with
          | success => nomatch h
          | failure d => exact h
      | abort d => exact h
  | succeeded =>
      rw [receive_succeeded] at h
      nomatch h
  | failed d =>
      rw [receive_failed] at h
      exact .inl h
  | _ => cases signal <;> exact .inl h

@[simp] theorem cause?_publish (state : State) : state.publish.1.cause? = state.cause? := by
  cases state with
  | aborting c completing => cases completing <;> rfl
  | _ => rfl

end Latch.State

namespace Body

@[simp] theorem failure_next (b : Body) : b.next.2.failure = b.failure := by
  unfold next
  split <;> rfl

@[simp] theorem failure_acknowledge (b : Body) : b.acknowledge.2.failure = b.failure := by
  unfold acknowledge
  split <;> rfl

end Body

namespace Store

def held? (s : Store) : Object → Option Cause
  | .latch id => (s.stateOf id).cause?
  | .gate id => s.gates[id]?.bind fun gate => gate.ending.bind Ending.cause?
  | .body id => s.bodies[id]?.bind Body.failure

variable {s : Store} {c : Cause}

theorem gates_perform (s : Store) {a : Access} (h : ∀ id, a.object? ≠ some (.gate id)) :
    (s.perform a).2.gates = s.gates := by
  cases a with
  | suppress keeper late => rfl
  | settle id ending => exact absurd rfl (h id)
  | receive id signal | publish id | next id | acknowledge id | listen id listener =>
      simp only [perform, receive, publish, next, acknowledge, listen]
      split <;> rfl
  | close id | fail id cause =>
      simp only [perform, close, fail]
      split
      · rfl
      · split <;> rfl
  | offer id chunk =>
      simp only [perform, offer]
      split
      · rfl
      · split
        · rfl
        · split <;> rfl

theorem gates_settle {id : Nat} {gate : Gate} (hgate : s.gates[id]? = some gate) (ending : Ending) :
    (s.settle id ending).gates = s.gates.set id (gate.settle ending) := by
  simp only [settle, hgate]
  split <;> rfl

theorem getElem?_gates_perform (s : Store) {a : Access} {id : Nat}
    (h : a.object? ≠ some (.gate id)) : (s.perform a).2.gates[id]? = s.gates[id]? := by
  cases a with
  | settle other ending =>
      have hne : other ≠ id := fun he => h (he ▸ rfl)
      cases hgate : s.gates[other]? with
      | none => simp only [perform, settle, hgate]
      | some gate =>
          rw [perform, gates_settle hgate]
          exact List.getElem?_set_ne hne
  | _ =>
      rw [gates_perform s]
      intro other hobject
      cases hobject

theorem held?_latch_perform {a : Access} {id : Nat}
    (h : (s.perform a).2.held? (.latch id) = some c) :
    s.held? (.latch id) = some c ∨ a.brought? = some c := by
  rw [held?] at h ⊢
  by_cases ha : a.object? = some (.latch id)
  · cases a with
    | receive other signal =>
        obtain rfl : other = id := by simpa [Access.object?] using ha
        by_cases hlt : other < s.latches.length
        · rw [(perform_receive hlt signal).2] at h
          exact Latch.State.cause?_receive h
        · have hnone := List.getElem?_eq_none (Nat.le_of_not_lt hlt)
          simp only [perform, receive, hnone] at h
          exact .inl h
    | publish other =>
        obtain rfl : other = id := by simpa [Access.object?] using ha
        rw [(perform_publish s other).2, Latch.State.cause?_publish] at h
        exact .inl h
    | _ => cases ha
  · rw [stateOf_perform_of_ne s ha] at h
    exact .inl h

theorem held?_gate_perform {a : Access} {id : Nat} (h : (s.perform a).2.held? (.gate id) = some c) :
    s.held? (.gate id) = some c ∨ a.brought? = some c := by
  rw [held?] at h ⊢
  by_cases ha : a.object? = some (.gate id)
  · cases a with
    | settle other ending =>
        obtain rfl : other = id := by simpa [Access.object?] using ha
        cases hgate : s.gates[other]? with
        | none =>
            simp only [perform, settle, hgate] at h
            exact .inl h
        | some gate =>
            rw [perform, gates_settle hgate,
              List.getElem?_set_self (List.getElem?_eq_some_iff.mp hgate).1, Option.bind_some,
              Gate.settle] at h
            rw [Option.bind_some]
            cases hending : gate.ending with
            | none =>
                rw [hending] at h
                exact .inr h
            | some first =>
                rw [hending] at h
                simp only [hending] at h
                exact .inl h
    | _ => cases ha
  · rw [getElem?_gates_perform s ha] at h
    exact .inl h

theorem exists_failure_perform {id : Nat} {b : Body} (hb : s.bodies[id]? = some b) {a : Access}
    (ha : a.object? = some (.body id)) :
    ∃ b', (s.perform a).2.bodies[id]? = some b' ∧
      (b'.failure = b.failure ∨ b'.failure = a.brought?) := by
  have hput (b' : Body) (hkept : b'.failure = b.failure) :
      ∃ b'', (s.putBody id b').bodies[id]? = some b'' ∧
        (b''.failure = b.failure ∨ b''.failure = a.brought?) :=
    ⟨b', getElem?_putBody hb b', .inl hkept⟩
  cases a with
  | offer other chunk =>
      cases ha
      simp only [perform, offer, hb]
      split
      · exact hput _ rfl
      · split <;> exact ⟨b, hb, .inl rfl⟩
  | next other =>
      cases ha
      simp only [perform, next, hb]
      exact hput _ b.failure_next
  | acknowledge other =>
      cases ha
      simp only [perform, acknowledge, hb]
      exact hput _ b.failure_acknowledge
  | close other =>
      cases ha
      simp only [perform, close, hb]
      split
      · exact ⟨b, hb, .inl rfl⟩
      · exact hput _ rfl
  | fail other cause =>
      cases ha
      simp only [perform, fail, hb]
      split
      · exact ⟨b, hb, .inl rfl⟩
      · exact ⟨b.fail cause, getElem?_putBody hb _, .inr rfl⟩
  | listen other listener =>
      cases ha
      simp only [perform, listen, hb]
      exact hput _ rfl
  | _ => cases ha

theorem perform_of_no_body {id : Nat} (hb : s.bodies[id]? = none) {a : Access}
    (ha : a.object? = some (.body id)) : (s.perform a).2 = s := by
  cases a with
  | offer other chunk | next other | acknowledge other | close other | fail other cause
  | listen other listener =>
      cases ha
      simp only [perform, offer, next, acknowledge, close, fail, listen, hb]
  | _ => cases ha

theorem held?_body_perform {a : Access} {id : Nat} (h : (s.perform a).2.held? (.body id) = some c) :
    s.held? (.body id) = some c ∨ a.brought? = some c := by
  by_cases ha : a.object? = some (.body id)
  · cases hb : s.bodies[id]? with
    | none =>
        rw [perform_of_no_body hb ha] at h
        exact .inl h
    | some b =>
        obtain ⟨b', hb', hfailure⟩ := exists_failure_perform hb ha
        rw [held?, hb', Option.bind_some] at h
        rw [held?, hb, Option.bind_some]
        rcases hfailure with hkept | hbrought
        · exact .inl (hkept ▸ h)
        · exact .inr (hbrought ▸ h)
  · rw [held?, getElem?_bodies_perform s ha] at h
    exact .inl h

theorem held?_perform {a : Access} {o : Object} (h : (s.perform a).2.held? o = some c) :
    s.held? o = some c ∨ a.brought? = some c := by
  cases o with
  | latch id => exact held?_latch_perform h
  | gate id => exact held?_gate_perform h
  | body id => exact held?_body_perform h

theorem getElem?_gates_add (s : Store) (novelty : Novelty) (id : Nat) :
    (s.add novelty).gates[id]? = s.gates[id]? ∨
      s.gates[id]? = none ∧ (s.add novelty).gates[id]? = some {} := by
  cases novelty with
  | gate =>
      simp only [add, addGate]
      rcases Nat.lt_trichotomy id s.gates.length with hlt | rfl | hgt
      · exact .inl (List.getElem?_append_left hlt)
      · exact .inr ⟨List.getElem?_eq_none (Nat.le_refl _), List.getElem?_concat_length⟩
      · left
        rw [List.getElem?_eq_none (Nat.le_of_lt hgt), List.getElem?_eq_none]
        rw [List.length_append]
        exact hgt
  | cause wrapped =>
      simp only [add]
      split <;> exact .inl rfl
  | _ => exact .inl rfl

theorem held?_add {novelty : Novelty} {o : Object} (h : (s.add novelty).held? o = some c) :
    s.held? o = some c := by
  cases o with
  | latch id =>
      rw [held?, stateOf_add] at h
      exact h
  | gate id =>
      rw [held?] at h ⊢
      rcases s.getElem?_gates_add novelty id with hsame | ⟨-, hnew⟩
      · rwa [hsame] at h
      · rw [hnew] at h
        nomatch h
  | body id =>
      rw [held?] at h ⊢
      rcases s.getElem?_bodies_add novelty id with hsame | ⟨hnone, hnew⟩
      · rwa [hsame] at h
      · rw [hnew] at h
        nomatch h

end Store

namespace World

variable {w : World} {caller : Nat} {call : Call} {rest : List Frame}

/-- There is nothing in the course of a settling but the one access. -/
theorem Reachable.eq_settle_of_access (h : w.Reachable) {id : Nat} {ending : Ending} {a : Access}
    {next : a.Reply → Course Response}
    (hframes : w.frames caller = ⟨.settle id ending, .working (.access a next)⟩ :: rest) :
    a = .settle id ending := by
  obtain ⟨marks, -, -, hfollows, -⟩ := h.followed.exists_of_cons hframes
  exact Course.Leads.eq_of_touch hfollows.leads

/-- What an access brings, the call delivers. -/
theorem Reachable.delivered_of_brought (h : w.Reachable) {a : Access}
    {next : a.Reply → Course Response}
    (hframes : w.frames caller = ⟨call, .working (.access a next)⟩ :: rest) {c : Cause}
    (hc : a.brought? = some c) : call.delivered? = some c := by
  cases a with
  | receive id signal =>
      rw [h.call_of_receive hframes]
      exact hc
  | settle id ending =>
      have hobject := h.object?_of_access hframes rfl
      cases call with
      | settle other first =>
          have hsame := h.eq_settle_of_access hframes
          rw [(Access.settle.inj hsame).2] at hc
          exact hc
      | _ => cases hobject
  | fail id cause =>
      obtain ⟨haccess, -⟩ := h.eq_errand_of_access hframes (h.object?_of_access hframes rfl)
      cases call <;> cases haccess
      exact hc
  | _ => cases hc

theorem Reachable.held_mem_causes (h : w.Reachable) {o : Object} {c : Cause}
    (hheld : w.store.held? o = some c) : c ∈ w.store.register.causes := by
  induction h with
  | empty => cases o <;> nomatch hheld
  | @act w w' hw hact ih =>
      cases hact with
      | access hframes =>
          apply (Store.grown_perform w.store _).register.causes.subset
          rcases Store.held?_perform hheld with hbefore | hbrought
          · exact ih hbefore
          · exact (hw.known (hframes ▸ List.mem_cons_self)).2 c
              (Call.mem_causes_of_delivered (hw.delivered_of_brought hframes hbrought))
      | create =>
          exact (Store.grown_add w.store _).register.causes.subset (ih (Store.held?_add hheld))
      | _ => exact ih hheld

end World

end OneShot
