import OneShot.Deadline
import OneShot.Proofs.Completion.Compound
import OneShot.Proofs.Failure.Late

/-!
# Gates and latches

A gate is a latch that nobody can abort and that calls nobody: whatever signals
it is given, it stands as a latch does that is given endings alone, and what it
does in the register is the same. Once it is open, it stays as it is, so all who
wait at it are answered alike, whenever they come.
-/

namespace OneShot

open Course

/-- What those who wait for the work are told about its end. -/
def Ending.result : Ending → Except Refusal Unit
  | success => .ok ()
  | failure cause => .error (.failed cause)

/-! ## States of a gate -/

namespace Gate

/-- Where a latch stands that has come to the same end. -/
def state (g : Gate) : Latch.State :=
  match g.ending with
  | none => .idle
  | some .success => .succeeded
  | some (.failure cause) => .failed cause

structure Agrees (g : Gate) (state : Latch.State) : Prop where
  shut : g.ending = none ↔ state = .idle
  succeeded : g.ending = some .success ↔ state = .succeeded
  failed : ∀ c, g.ending = some (.failure c) ↔ state = .failed c

theorem agrees_state (g : Gate) : g.Agrees g.state := by
  obtain ⟨_ | _ | cause⟩ := g <;> constructor <;> simp [state]

theorem settle_of_ending {g : Gate} {first : Ending} (h : g.ending = some first) (e : Ending) :
    g.settle e = g := by
  rw [settle, h]

@[simp] theorem ending_settle (g : Gate) (e : Ending) :
    (g.settle e).ending = g.ending.or (some e) := by
  obtain ⟨_ | first⟩ := g <;> rfl

theorem ending_foldl_settle (endings : List Ending) (g : Gate) :
    (endings.foldl settle g).ending = g.ending.or endings.head? := by
  induction endings generalizing g with
  | nil => exact (Option.or_none).symm
  | cons e endings ih =>
      rw [List.foldl_cons, ih, ending_settle, List.head?_cons, Option.or_assoc]
      rfl

theorem pass?_eq (g : Gate) : g.pass? = g.ending.map Ending.result := by
  obtain ⟨_ | _ | cause⟩ := g <;> rfl

theorem state_settle (g : Gate) (e : Ending) :
    (g.settle e).state = (g.state.receive (.finish e)).1 := by
  obtain ⟨_ | _ | cause⟩ := g <;> cases e <;> rfl

end Gate

namespace Latch

/-- The pair of the cause held and the late cause it is to suppress. -/
def Duty.late? : Duty → Option (Cause × Cause)
  | suppress keeper (some late) _ => some (keeper, late)
  | _ => none

theorem State.receive_finish_ne_abort (state : State) (e : Ending) (c : Cause) :
    (state.receive (.finish e)).2 ≠ .abort c := by
  cases state with
  | idle => cases e <;> nofun
  | _ => nofun

end Latch

theorem Gate.late?_eq (g : Gate) (e : Ending) :
    g.late? e = (g.state.receive (.finish e)).2.late? := by
  obtain ⟨_ | _ | cause⟩ := g <;> cases e <;> rfl

namespace Store

/-- The store once a late cause is recorded, if there is one to be suppressed. -/
def record (s : Store) : Option (Cause × Cause) → Store
  | none => s
  | some (keeper, late) => s.suppress keeper late

theorem receive_eq {s : Store} {id : Nat} {latch : Latch} (hlatch : s.latches[id]? = some latch)
    (signal : Signal) :
    s.receive id signal = ((latch.state.receive signal).2,
      { s with
        latches := s.latches.set id { latch with state := (latch.state.receive signal).1 } }) := by
  simp only [receive, hlatch]

theorem settle_eq {s : Store} {id : Nat} {gate : Gate} (hgate : s.gates[id]? = some gate)
    (e : Ending) :
    s.settle id e = { s with gates := s.gates.set id (gate.settle e) }.record (gate.late? e) := by
  cases hlate : gate.late? e <;> simp only [settle, hgate, hlate, record]

theorem latches_record (s : Store) (late? : Option (Cause × Cause)) :
    (s.record late?).latches = s.latches := by
  cases late? <;> rfl

theorem gates_record (s : Store) (late? : Option (Cause × Cause)) :
    (s.record late?).gates = s.gates := by
  cases late? <;> rfl

theorem register_record (s : Store) (late? : Option (Cause × Cause)) :
    (s.record late?).register =
      late?.elim s.register fun pair => s.register.suppress pair.1 pair.2 := by
  cases late? <;> rfl

end Store

/-! ## Latches with silent hooks -/

namespace Course

variable {μ : Type} {answer : Surroundings μ} {s : Store} {id : Nat} {latch : Latch}

/-- A hook that calls no closure comes back at once. -/
def Surroundings.AddsNothing (answer : Surroundings μ) : Prop :=
  ∀ id hook memory (s : Store), s.closureCall? (.hook id hook) = none →
    answer (.hook id hook) memory s = (.returned (), memory, s)

theorem run_callAll_silent (hadds : answer.AddsNothing) (hlatch : s.latches[id]? = some latch)
    (hsilent : latch.hooks = .silent) (hooks : List Hook) (memory : μ) :
    (Latch.callAll id hooks).run answer memory s = (.returned (), memory, s) := by
  induction hooks with
  | nil => rfl
  | cons hook hooks ih =>
      have hnone : s.closureCall? (.hook id hook) = none := by
        rw [Store.closureCall?, hlatch, Option.bind_some, hsilent, Hooks.call?_silent]
      have hcall : (call (.hook id hook)).run answer memory s = (.returned (), memory, s) := by
        simp only [call, run, hadds id hook memory s hnone]
      exact (run_bind_of_returned hcall _).trans ih

/-- An ending at a latch with silent hooks leaves nothing to do but to record a late cause. -/
theorem run_deliver_silent (hadds : answer.AddsNothing) (hlatch : s.latches[id]? = some latch)
    (hsilent : latch.hooks = .silent) (e : Ending) (memory : μ) :
    ((Sink.latch id).deliver (.finish e)).run answer memory s =
      (.returned false, memory,
        (s.receive id (.finish e)).2.record (s.receive id (.finish e)).1.late?) := by
  have hcalls (hooks : List Hook) (s' : Store)
      (hlatches : s'.latches = (s.receive id (.finish e)).2.latches) :
      (Latch.callAll id hooks).run answer memory s' = (.returned (), memory, s') := by
    have hreceived : s'.latches[id]? =
        some { latch with state := (latch.state.receive (.finish e)).1 } := by
      rw [hlatches, Store.receive_eq hlatch]
      exact List.getElem?_set_self (List.getElem?_eq_some_iff.mp hlatch).1
    exact run_callAll_silent hadds hreceived hsilent hooks memory
  cases hduty : (s.receive id (.finish e)).1 with
  | call hooks =>
      simp only [Latch.deliver_latch, run, Store.perform, hduty, Latch.concluding_call]
      exact run_bind_of_returned (hcalls hooks _ rfl) _
  | suppress keeper late hooks =>
      simp only [Latch.deliver_latch, run, Store.perform, hduty, Latch.concluding_suppress]
      cases late with
      | none => exact run_bind_of_returned (hcalls hooks _ rfl) _
      | some late =>
          have hrest := hcalls hooks ((s.receive id (.finish e)).2.suppress keeper late) rfl
          exact run_bind_of_returned hrest fun _ => pure false
  | abort cause =>
      rw [Store.receive_eq hlatch] at hduty
      exact absurd hduty (Latch.State.receive_finish_ne_abort _ e cause)

theorem run_mapM_attempt_cons {α β : Type} {perform : α → Course β} {item : α} {items : List α}
    {outcome : Outcome β} {outcomes : List (Outcome β)} {memory memory₁ memory₂ : μ}
    {s₁ s₂ : Store} (h : (perform item).run answer memory s = (outcome, memory₁, s₁))
    (hitems : (items.mapM fun item => attempt (perform item)).run answer memory₁ s₁ =
      (.returned outcomes, memory₂, s₂)) :
    ((item :: items).mapM fun item => attempt (perform item)).run answer memory s =
      (.returned (outcome :: outcomes), memory₂, s₂) := by
  have hattempt : (attempt (perform item)).run answer memory s =
      (.returned outcome, memory₁, s₁) := by
    rw [run_attempt, h]
  rw [List.mapM_cons, run_bind_of_returned hattempt, run_bind_of_returned hitems]
  rfl

end Course

/-! ## The two side by side -/

namespace Gate

/-- The gate stands in the one store, and in the other a latch that stands where the gate does. -/
structure Beside (g : Gate) (gate latch : Nat) (s s' : Store) : Prop where
  gate : s.gates[gate]? = some g
  latch : s'.latches[latch]? = some { hooks := .silent, state := g.state }
  register : s'.register = s.register

variable {μ : Type} {answer : Surroundings μ} {g : Gate} {gate latch : Nat} {s s' : Store}

theorem Beside.settle (h : g.Beside gate latch s s') (e : Ending) :
    (g.settle e).Beside gate latch (s.settle gate e)
      ((s'.receive latch (.finish e)).2.record (s'.receive latch (.finish e)).1.late?) := by
  rw [Store.settle_eq h.gate, Store.receive_eq h.latch, g.late?_eq]
  constructor
  · rw [Store.gates_record]
    exact List.getElem?_set_self (List.getElem?_eq_some_iff.mp h.gate).1
  · rw [Store.latches_record, state_settle]
    exact List.getElem?_set_self (List.getElem?_eq_some_iff.mp h.latch).1
  · simp only [Store.register_record, h.register]

/-- One signal after the other, the two stay side by side, and nobody notices any of it. -/
theorem Beside.run (hadds : answer.AddsNothing) (memory : μ) (signals : List Signal)
    (h : g.Beside gate latch s s') :
    ∃ s₁ s₁',
      ((Sink.gate gate).behaviour.deliverAll signals).run answer memory s =
        (.returned (signals.map fun signal => .returned (!signal.isEnding)), memory, s₁) ∧
      ((Sink.latch latch).behaviour.deliverAll
          (signals.map fun signal => .finish signal.asEnding)).run answer memory s' =
        (.returned (signals.map fun _ => .returned false), memory, s₁') ∧
      ((signals.map Signal.asEnding).foldl Gate.settle g).Beside gate latch s₁ s₁' := by
  induction signals generalizing g s s' with
  | nil => exact ⟨s, s', rfl, rfl, h⟩
  | cons signal signals ih =>
      obtain ⟨s₁, s₁', hgate, hlatch, hbeside⟩ := ih (h.settle signal.asEnding)
      refine ⟨s₁, s₁', ?_, ?_, hbeside⟩
      · refine run_mapM_attempt_cons ?_ hgate
        rw [Sink.deliver_behaviour]
        exact Sink.run_deliver_gate answer memory s gate signal
      · exact run_mapM_attempt_cons
          (run_deliver_silent hadds h.latch rfl signal.asEnding memory) hlatch

theorem beside_add (s : Store) :
    ({} : Gate).Beside s.addGate.1 (s.addLatch .silent).1 s.addGate.2 (s.addLatch .silent).2 where
  gate := List.getElem?_concat_length
  latch := List.getElem?_concat_length
  register := rfl

end Gate

/-! ## Open gates -/

namespace Store

variable {s s' : Store} {id : Nat} {g : Gate} {first : Ending}

/-- Nothing that is done to a store changes a gate that is open. -/
theorem getElem?_gates_change (hchange : s.Change s') (hgate : s.gates[id]? = some g)
    (hopen : g.ending = some first) : s'.gates[id]? = some g := by
  cases hchange with
  | create novelty =>
      rcases s.getElem?_gates_add novelty id with hsame | ⟨hnone, -⟩
      · exact hsame.trans hgate
      · nomatch hnone.symm.trans hgate
  | access a =>
      by_cases ha : a.object? = some (.gate id)
      · cases a with
        | settle other e =>
            obtain rfl : other = id := by simpa [Access.object?] using ha
            rw [perform, gates_settle hgate, Gate.settle_of_ending hopen]
            exact List.getElem?_set_self (List.getElem?_eq_some_iff.mp hgate).1
        | _ => cases ha
      · exact (getElem?_gates_perform s ha).trans hgate

theorem Precedes.getElem?_gates (h : s.Precedes s') (hgate : s.gates[id]? = some g)
    (hopen : g.ending = some first) : s'.gates[id]? = some g :=
  h.keeps (P := fun s => s.gates[id]? = some g)
    (fun _ _ hchange hgate => getElem?_gates_change hchange hgate hopen) hgate

end Store

namespace Gate

variable {μ : Type} {answer : Surroundings μ}

/-- From the store `s`, a new gate has been given the signals and has become `g`, and apart from it
a new latch with silent hooks has been given an ending for each of them and has become `latch`. -/
structure InStep (answer : Surroundings μ) (memory : μ) (s : Store) (signals : List Signal)
    (s₁ s₂ : Store) (g : Gate) (latch : Latch) : Prop where
  run_gate : ((Sink.gate s.addGate.1).behaviour.deliverAll signals).run answer memory s.addGate.2 =
    (.returned (signals.map fun signal => .returned (!signal.isEnding)), memory, s₁)
  run_latch : ((Sink.latch (s.addLatch .silent).1).behaviour.deliverAll
      (signals.map fun signal => .finish signal.asEnding)).run answer memory
        (s.addLatch .silent).2 =
    (.returned (signals.map fun _ => .returned false), memory, s₂)
  stored_gate : s₁.gates[s.addGate.1]? = some g
  stored_latch : s₂.latches[(s.addLatch .silent).1]? = some latch
  agrees : g.Agrees latch.state
  register : s₂.register = s₁.register
  /-- The first signal is the one that counts. -/
  first : g.ending = signals.head?.map Signal.asEnding
  /-- Whatever else is done once the gate is open, whoever comes to it is let pass, with the answer
  that the first signal gave. Who waits no longer than a limit is let pass if the clock gets to the
  deadline, and never gets another answer. -/
  passed : ∀ e, g.ending = some e → ∀ s', s₁.Precedes s' →
    ∃ g', s'.gates[s.addGate.1]? = some g' ∧ g'.ending = some e ∧ g'.pass? = some e.result ∧
      ∀ now limit,
        ((now.after? limit).isSome = true → g'.passWithin now limit = .returned e.result) ∧
          ∀ answer, g'.passWithin now limit = .returned answer → answer = e.result

/-- Whatever signals they are given, a gate and a latch with silent hooks agree after each of them,
about the outcome and about every list of suppressed causes. -/
theorem in_step_with_latch (hadds : answer.AddsNothing) (memory : μ) (s : Store)
    (signals : List Signal) : ∃ s₁ s₂ g latch, InStep answer memory s signals s₁ s₂ g latch := by
  obtain ⟨s₁, s₂, hgate, hlatch, hbeside⟩ := (beside_add s).run hadds memory signals
  refine ⟨s₁, s₂, _, _, hgate, hlatch, hbeside.gate, hbeside.latch, agrees_state _,
    hbeside.register, ?_, ?_⟩
  · rw [ending_foldl_settle, List.head?_map]
    rfl
  · intro e hopen s' hlater
    refine ⟨_, hlater.getElem?_gates hbeside.gate hopen, hopen, ?_, ?_⟩
    · rw [pass?_eq, hopen]
      rfl
    · intro now limit
      rw [passWithin, pass?_eq, hopen]
      exact ⟨fun hclock => Instant.await_of_after? hclock _,
        fun _ hanswer => Instant.eq_of_await_eq_returned hanswer⟩

def lost : Cause := ⟨0, .message "lost"⟩
def unreachable : Cause := ⟨1, .message "unreachable"⟩

/-- Two causes have been created. -/
def withCauses : Store := { register := ⟨[(lost, []), (unreachable, [])]⟩ }

def abortedFirst : List Signal := [.abort lost, .finish (.failure unreachable), .finish .success]

def quiet : Surroundings Unit := fun _ memory s => (.returned (), memory, s)

theorem in_step_abortedFirst :
    quiet.AddsNothing ∧ ∃ s₁ s₂ g latch, InStep quiet () withCauses abortedFirst s₁ s₂ g latch ∧
      g.ending = some (.failure lost) := by
  have hadds : quiet.AddsNothing := fun _ _ _ _ _ => rfl
  obtain ⟨s₁, s₂, g, latch, h⟩ := in_step_with_latch hadds () withCauses abortedFirst
  exact ⟨hadds, s₁, s₂, g, latch, h, h.first⟩

example :
    (((Sink.gate 0).behaviour.deliverAll abortedFirst).run quiet ()
      withCauses.addGate.2).2.2.register = ⟨[(lost, [unreachable]), (unreachable, [])]⟩ := by
  cbv

end Gate

end OneShot
