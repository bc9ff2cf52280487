import OneShot.Proofs.Calls.Conduct
import OneShot.Proofs.Calls.Growth
import OneShot.Proofs.Completion.Ledger

/-!
# The timeline of a latch

The log alone tells the state of a latch at every moment. Whatever is
received or published, the state only goes on: along the order of the
phases, with the cause that it once holds, and no further once the latch is
complete.
-/

namespace OneShot

open Relation

namespace Latch

/-- A state without its cause. -/
inductive Phase
  | idle
  | aborting
  | aborted
  | succeeded
  | failed
  deriving DecidableEq

/-- What comes right before what. Aborting may also go over into failed at once, which is behind
it all the same. -/
inductive Phase.Before : Phase → Phase → Prop
  | abort : Before idle aborting
  | publish : Before aborting aborted
  | complete : Before aborted failed
  | succeed : Before idle succeeded
  | fail : Before idle failed

namespace State

def phase : State → Phase
  | idle => .idle
  | aborting _ _ => .aborting
  | aborted _ => .aborted
  | succeeded => .succeeded
  | failed _ => .failed

/-- The second state is the first or may come after it. -/
structure Advances (state state' : State) : Prop where
  phase : ReflTransGen Phase.Before state.phase state'.phase
  cause : ∀ c, state.cause? = some c → state'.cause? = some c
  final : state.isCompleted = true → state' = state

variable {state state' state'' : State}

theorem Advances.refl (state : State) : state.Advances state :=
  ⟨.refl, fun _ hc => hc, fun _ => rfl⟩

theorem Advances.trans (h : state.Advances state') (h' : state'.Advances state'') :
    state.Advances state'' := by
  refine ⟨h.phase.trans h'.phase, fun c hc => h'.cause c (h.cause c hc), fun hcompleted => ?_⟩
  have hsame := h.final hcompleted
  exact (h'.final (hsame ▸ hcompleted)).trans hsame

/-- A latch that holds a cause never succeeds. -/
theorem Advances.ne_succeeded (h : state.Advances state') (hcause : state.cause? ≠ none) :
    state' ≠ succeeded := by
  rintro rfl
  obtain ⟨c, hc⟩ := Option.ne_none_iff_exists'.mp hcause
  exact nomatch h.cause c hc

/-- Where a cause is held, no later state is idle. -/
theorem Advances.ne_idle (h : state.Advances state') (hcause : state.cause? ≠ none) :
    state' ≠ idle := by
  rintro rfl
  obtain ⟨c, hc⟩ := Option.ne_none_iff_exists'.mp hcause
  exact nomatch h.cause c hc

theorem advances_receive (state : State) (signal : Signal) :
    state.Advances (state.receive signal).1 := by
  cases state with
  | idle =>
      refine ⟨.single ?_, nofun, nofun⟩
      cases signal with
      | finish ending =>
          cases ending with
          | success => exact .succeed
          | failure d => exact .fail
      | abort d => exact .abort
  | aborting c completing =>
      cases signal with
      | finish ending => exact ⟨.refl, fun _ hc => hc, nofun⟩
      | abort d => exact .refl _
  | aborted c =>
      cases signal with
      | finish ending => exact ⟨.single .complete, fun _ hc => hc, nofun⟩
      | abort d => exact .refl _
  | succeeded =>
      rw [receive_succeeded]
      exact .refl _
  | failed c =>
      rw [receive_failed]
      exact .refl _

theorem advances_publish (state : State) : state.Advances state.publish.1 := by
  cases state with
  | aborting c completing =>
      cases completing with
      | false => exact ⟨.single .publish, fun _ hc => hc, nofun⟩
      | true => exact ⟨.tail (.single .publish) .complete, fun _ hc => hc, nofun⟩
  | _ => exact .refl _

theorem not_isAborted_of_isCompleted (state : State) :
    ¬ (state.isAborted = true ∧ state.isCompleted = true) := by
  rintro ⟨haborted, hcompleted⟩
  rw [isCompleted_eq_false_of_isAborted haborted] at hcompleted
  nomatch hcompleted

/-! ## What the log tells -/

def mark (id : Nat) (state : State) : Mark → State
  | .accessed (.receive other signal) _ => if other = id then (state.receive signal).1 else state
  | .accessed (.publish other) _ => if other = id then state.publish.1 else state
  | _ => state

/-- The state of a latch after a log. -/
def ofLog (id : Nat) (log : Log) : State :=
  log.foldl (fun state entry => state.mark id entry.2) idle

@[simp] theorem ofLog_concat (id : Nat) (log : Log) (entry : Nat × Mark) :
    ofLog id (log ++ [entry]) = (ofLog id log).mark id entry.2 := by
  simp [ofLog]

@[simp] theorem mark_receive (id : Nat) (state : State) (signal : Signal) (duty : Duty) :
    state.mark id (.accessed (.receive id signal) duty) = (state.receive signal).1 := if_pos rfl

@[simp] theorem mark_publish (id : Nat) (state : State) (completing : Bool) :
    state.mark id (.accessed (.publish id) completing) = state.publish.1 := if_pos rfl

theorem mark_of_object?_ne {id : Nat} {a : Access} (h : a.object? ≠ some (.latch id))
    (state : State) (reply : a.Reply) : state.mark id (.accessed a reply) = state := by
  cases a with
  | receive other signal =>
      have hne : other ≠ id := fun he => h (he ▸ rfl)
      exact if_neg hne
  | publish other =>
      have hne : other ≠ id := fun he => h (he ▸ rfl)
      exact if_neg hne
  | _ => rfl

theorem advances_mark (id : Nat) (state : State) (m : Mark) : state.Advances (state.mark id m) := by
  cases m with
  | accessed a reply =>
      by_cases ha : a.object? = some (.latch id)
      · cases a with
        | receive other signal =>
            obtain rfl : other = id := by simpa [Access.object?] using ha
            rw [mark_receive]
            exact advances_receive state signal
        | publish other =>
            obtain rfl : other = id := by simpa [Access.object?] using ha
            rw [mark_publish]
            exact advances_publish state
        | _ => exact .refl state
      · rw [mark_of_object?_ne ha]
        exact .refl state
  | _ => exact .refl state

theorem advances_ofLog (id : Nat) {past log : Log} (h : past <+: log) :
    (ofLog id past).Advances (ofLog id log) := by
  obtain ⟨more, rfl⟩ := h
  rw [ofLog, ofLog, List.foldl_append]
  exact List.foldlRecOn (motive := fun state => (ofLog id past).Advances state) more _ (.refl _)
    fun state h entry _ => h.trans (advances_mark id state entry.2)

end State

end Latch

namespace World

open Latch

variable {w : World} {id caller : Nat}

theorem Reachable.lt_of_access (h : w.Reachable) {call : Call} {a : Access}
    {next : a.Reply → Course Response} {rest : List Frame}
    (hframes : w.frames caller = ⟨call, .working (.access a next)⟩ :: rest)
    (ha : a.object? = some (.latch id)) : id < w.store.latches.length :=
  Call.lt_of_known (h.known (hframes ▸ List.mem_cons_self)) (h.object?_of_access hframes ha)

theorem Reachable.stateOf_eq (h : w.Reachable) (id : Nat) :
    w.store.stateOf id = State.ofLog id w.log := by
  induction h with
  | empty => rfl
  | @act w w' hw hact ih =>
      cases hact with
      | access hframes =>
          rename_i caller call a next rest
          simp only [put, State.ofLog_concat, ← ih]
          by_cases ha : a.object? = some (.latch id)
          · cases a with
            | receive other signal =>
                obtain rfl : other = id := by simpa [Access.object?] using ha
                rw [State.mark_receive]
                exact (Store.perform_receive (hw.lt_of_access hframes ha) signal).2
            | publish other =>
                obtain rfl : other = id := by simpa [Access.object?] using ha
                rw [State.mark_publish]
                exact (Store.perform_publish w.store other).2
            | _ => cases ha
          · rw [State.mark_of_object?_ne ha, Store.stateOf_perform_of_ne _ ha]
      | create => exact (Store.stateOf_add _ _ id).trans ih
      | _ =>
          rw [put, State.ofLog_concat, ← ih]
          rfl

/-- The state says what is left to do for the caller of a signal. -/
theorem Reachable.duty_eq (h : w.Reachable) {past : Log} {signal : Signal} {duty : Duty}
    (hreceive : (past, caller, Mark.accessed (.receive id signal) duty) ∈ dated w.log) :
    duty = ((State.ofLog id past).receive signal).2 := by
  obtain ⟨v, hv, rfl, -, call, next, rest, hframes, rfl⟩ := h.exists_makes hreceive
  rw [← hv.stateOf_eq]
  exact (Store.perform_receive (hv.lt_of_access hframes rfl) signal).1

/-- Only the call that brings a signal has it received. -/
theorem Reachable.call_of_receive (h : w.Reachable) {call : Call} {signal : Signal}
    {next : Duty → Course Response} {rest : List Frame}
    (hframes : w.frames caller = ⟨call, .working (.access (.receive id signal) next)⟩ :: rest) :
    call = .signal id signal := by
  obtain ⟨d, hkeeps⟩ := h.exists_keeps (kept_protocol id) hframes
  obtain ⟨d', hallows, -⟩ := hkeeps (.call [])
  cases hallows with
  | receive hcall => exact hcall
  | other hmark => exact absurd rfl hmark

end World

end OneShot
