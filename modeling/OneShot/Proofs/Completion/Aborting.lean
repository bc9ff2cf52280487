import OneShot.Proofs.Completion.Deliveries

/-!
# Aborts whose hooks panic

An idle latch that is aborted runs both its abort hooks, whichever of them
panics, and publishes its state before a panic goes on. Signals that the hooks
send to their own latch come too late to run anything, but an ending among them
is kept until both hooks are through, and completes the latch then.
-/

namespace OneShot.Latch

open Course

/-- How the hooks of a latch behave: the signals that each of them sends to the latch, one after the
other, and how it ends then. -/
structure Conduct where
  sends : Hook → List Signal
  ends : Hook → Outcome Unit

/-- What is seen of the hooks. -/
inductive Happening
  /-- The hook starts when the latch is in the state. -/
  | started (hook : Hook) (state : State)
  /-- A signal that a hook has sent is answered. -/
  | answered (signal : Signal) (answer : Bool)
  | ended (hook : Hook) (outcome : Outcome Unit)
  deriving DecidableEq

namespace Conduct

section Playing

variable (inner : Surroundings (List Happening)) (id : Nat)

/-- Sends signals one after the other, up to one that panics. -/
def sendAll : List Signal → List Happening → Store → Outcome Unit × List Happening × Store
  | [], seen, s => (.returned (), seen, s)
  | signal :: signals, seen, s =>
      match ((Sink.latch id).deliver signal).run inner seen s with
      | (.returned answer, seen, s) => sendAll signals (seen ++ [.answered signal answer]) s
      | (.panicked text, seen, s) => (.panicked text, seen, s)

def play (conduct : Conduct) (hook : Hook) (seen : List Happening) (s : Store) :
    Outcome Unit × List Happening × Store :=
  let (sent, seen, s) :=
    sendAll inner id (conduct.sends hook) (seen ++ [.started hook (s.stateOf id)]) s
  let outcome := sent.and (conduct.ends hook)
  (outcome, seen ++ [.ended hook outcome], s)

/-- The hooks of the latch behave so. What the signals that they send may call out to is answered by
`inner`, and so is all else. -/
def around (conduct : Conduct) : Surroundings (List Happening)
  | .hook other hook, seen, s =>
      if other = id then conduct.play inner id hook seen s else inner (.hook other hook) seen s
  | u, seen, s => inner u seen s

end Playing

variable (conduct : Conduct)

/-- What is to be seen of a hook that is run once, if nothing comes of the signals it sends. -/
def page (hook : Hook) (state : State) : List Happening :=
  .started hook state :: (conduct.sends hook).map (.answered · false) ++
    [.ended hook (conduct.ends hook)]

def sendsEnding (hook : Hook) : Bool := (conduct.sends hook).any Signal.isEnding

/-- An ending is sent from inside one of the abort hooks. -/
def completes (c : Cause) : Bool :=
  conduct.sendsEnding (.aborted c) || conduct.sendsEnding (.failed c)

/-- What is to be seen of the abort. -/
def account (c : Cause) : List Happening :=
  conduct.page (.aborted c) (.aborting c false) ++
    conduct.page (.failed c) (.aborting c (conduct.sendsEnding (.aborted c))) ++
      if conduct.completes c then conduct.page (.completed (some c)) (.failed c) else []

/-- The hooks that the abort runs. -/
def hooks (c : Cause) : List Hook :=
  abortHooks c ++ if conduct.completes c then [.completed (some c)] else []

/-- How the abort ends: with the panic of the hook of completion if that runs, else with that of the
first abort hook, else with that of the second. -/
def verdict (c : Cause) : Outcome Bool :=
  match if conduct.completes c then conduct.ends (.completed (some c)) else .returned (),
    conduct.ends (.aborted c), conduct.ends (.failed c) with
  | .panicked text, _, _ => .panicked text
  | .returned _, .panicked text, _ => .panicked text
  | .returned _, .returned _, .panicked text => .panicked text
  | .returned _, .returned _, .returned _ => .returned true

end Conduct

/-! ## Signals from inside the hooks -/

namespace State

/-- While the abort hooks run and once the latch has failed, a signal has nothing run. -/
def IsLate (c : Cause) (state : State) : Prop :=
  (∃ completing, state = aborting c completing) ∨ state = failed c

/-- What signals leave behind that come one after the other. -/
def afterAll (state : State) (signals : List Signal) : State :=
  signals.foldl (fun state signal => (state.receive signal).1) state

variable {c : Cause} {state : State}

theorem IsLate.cause? (h : state.IsLate c) : state.cause? = some c := by
  obtain ⟨completing, rfl⟩ | rfl := h <;> rfl

theorem IsLate.closing (h : state.IsLate c) (signal : Signal) : state.closing signal = [] := by
  obtain ⟨completing, rfl⟩ | rfl := h <;> rfl

theorem IsLate.receive (h : state.IsLate c) (signal : Signal) :
    (state.receive signal).1.IsLate c := by
  obtain ⟨completing, rfl⟩ | rfl := h
  · left
    cases signal with
    | finish ending => exact ⟨true, rfl⟩
    | abort d => exact ⟨completing, rfl⟩
  · right
    rw [receive_failed]

/-- An ending is kept, and an abort is not. -/
theorem afterAll_aborting (c : Cause) (completing : Bool) (signals : List Signal) :
    (aborting c completing).afterAll signals =
      aborting c (completing || signals.any Signal.isEnding) := by
  induction signals generalizing completing with
  | nil => simp [afterAll]
  | cons signal signals ih =>
      cases signal with
      | finish ending =>
          have htail := ih true
          simpa [afterAll, State.receive, Signal.isEnding] using htail
      | abort d =>
          have htail := ih completing
          simpa [afterAll, State.receive, Signal.isEnding] using htail

theorem afterAll_failed (c : Cause) (signals : List Signal) :
    (failed c).afterAll signals = failed c := by
  induction signals with
  | nil => rfl
  | cons signal signals ih => simpa [afterAll] using ih

end State

variable (inner : Surroundings (List Happening)) {id : Nat} {c : Cause} {s s' s'' : Store}
  {signals : List Signal}

theorem run_deliver_inside (h : (s.stateOf id).IsLate c) (signal : Signal)
    (seen : List Happening) :
    ((Sink.latch id).deliver signal).run inner seen s =
      (.returned false, seen, (s.receive id signal).2.record (signal.cause?.map (c, ·))) := by
  rw [run_deliver_held h.cause? signal, h.closing signal]
  rfl

/-- Between the two stores the latch, which held `c` before, has been sent the signals. -/
structure Sent (id : Nat) (c : Cause) (signals : List Signal) (s s' : Store) : Prop where
  state : s'.stateOf id = (s.stateOf id).afterAll signals
  grown : s.register.Grown s'.register
  associated : ∀ signal ∈ signals, ∀ d, signal.cause? = some d →
    s'.register.associated c d = true

theorem Sent.nil (id : Nat) (c : Cause) (s : Store) : Sent id c [] s s where
  state := rfl
  grown := .refl _
  associated := by simp

theorem Sent.mem_causes (h : Sent id c signals s s') (hc : c ∈ s.register.causes) :
    c ∈ s'.register.causes :=
  h.grown.causes.subset hc

theorem Sent.cons {signal : Signal} (h : Sent id c [signal] s s') (h' : Sent id c signals s' s'') :
    Sent id c (signal :: signals) s s'' where
  state := by
    rw [h'.state, h.state]
    rfl
  grown := h.grown.trans h'.grown
  associated := by
    rw [List.forall_mem_cons]
    refine ⟨fun d hd => ?_, h'.associated⟩
    exact h'.grown.associated (h.associated signal (List.mem_singleton_self signal) d hd)

theorem sent_singleton (h : (s.stateOf id).IsLate c) (hc : c ∈ s.register.causes)
    (signal : Signal) :
    Sent id c [signal] s ((s.receive id signal).2.record (signal.cause?.map (c, ·))) := by
  have hbusy : s.stateOf id ≠ .idle := by
    intro hidle
    have hcause := h.cause?
    rw [hidle] at hcause
    nomatch hcause
  have hreceived : (s.receive id signal).2.stateOf id = ((s.stateOf id).receive signal).1 :=
    (Store.perform_receive (Store.lt_of_ne_idle hbusy) signal).2
  have hregister : ((s.receive id signal).2.record (signal.cause?.map (c, ·))).register =
      (signal.cause?.map (c, ·)).elim s.register fun pair =>
        s.register.suppress pair.1 pair.2 := by
    rw [Store.register_record, Store.register_receive]
  refine ⟨?_, ?_, ?_⟩
  · rw [Store.stateOf, Store.latches_record]
    exact hreceived
  · rw [hregister]
    cases signal.cause? with
    | none => exact .refl _
    | some d => exact Register.grown_suppress s.register c d
  · rw [List.forall_mem_singleton, hregister]
    intro d hd
    rw [hd]
    exact Register.associated_suppress hc d

namespace Conduct

/-- All that comes of the signals that a hook sends is that they are answered. -/
theorem exists_sendAll (h : (s.stateOf id).IsLate c) (hc : c ∈ s.register.causes)
    (signals : List Signal) (seen : List Happening) :
    ∃ s', sendAll inner id signals seen s =
        (.returned (), seen ++ signals.map (.answered · false), s') ∧
      Sent id c signals s s' := by
  induction signals generalizing s seen with
  | nil => exact ⟨s, by simp [sendAll], .nil id c s⟩
  | cons signal signals ih =>
      have hfirst := sent_singleton h hc signal
      have hlate : (((s.receive id signal).2.record
          (signal.cause?.map (c, ·))).stateOf id).IsLate c := by
        rw [hfirst.state]
        exact h.receive signal
      obtain ⟨s', hrest, hsent⟩ :=
        ih hlate (hfirst.mem_causes hc) (seen ++ [.answered signal false])
      refine ⟨s', ?_, hfirst.cons hsent⟩
      rw [sendAll, run_deliver_inside inner h signal seen]
      simpa using hrest

variable (conduct : Conduct)

/-- A hook of a latch that is late already fills one page. -/
theorem exists_play {state : State} (hstate : s.stateOf id = state) (h : state.IsLate c)
    (hc : c ∈ s.register.causes) (hook : Hook) (seen : List Happening) :
    ∃ s', conduct.around inner id (.hook id hook) seen s =
        (conduct.ends hook, seen ++ conduct.page hook state, s') ∧
      Sent id c (conduct.sends hook) s s' := by
  subst hstate
  obtain ⟨s', hsend, hsent⟩ := exists_sendAll inner h hc (conduct.sends hook)
    (seen ++ [.started hook (s.stateOf id)])
  refine ⟨s', ?_, hsent⟩
  simp [around, play, hsend, page, Outcome.and]

/-- The hook of completion runs if an ending was sent before, and does so when the latch has
failed. -/
theorem exists_completion {completing : Bool} (hstate : s.stateOf id = .aborting c completing)
    (hc : c ∈ s.register.causes) (seen : List Happening) :
    ∃ s', (if (s.publish id).1 then
          conduct.around inner id (.hook id (.completed (some c))) seen (s.publish id).2
        else (.returned (), seen, (s.publish id).2)) =
        (if completing then conduct.ends (.completed (some c)) else .returned (),
          seen ++ (if completing then conduct.page (.completed (some c)) (.failed c) else []), s') ∧
      s'.stateOf id = (if completing then .failed c else .aborted c) ∧
      s.register.Grown s'.register ∧
      (completing = true → ∀ signal ∈ conduct.sends (.completed (some c)), ∀ d,
        signal.cause? = some d → s'.register.associated c d = true) := by
  obtain ⟨hreply, hpublished⟩ := Store.perform_publish s id
  rw [hstate] at hreply hpublished
  have hgrown := (Store.grown_publish s id).register
  cases completing with
  | false =>
      refine ⟨(s.publish id).2, ?_, hpublished, hgrown, nofun⟩
      have hnone : (s.publish id).1 = false := hreply
      simp [hnone]
  | true =>
      have hsome : (s.publish id).1 = true := hreply
      have hfailed : (s.publish id).2.stateOf id = .failed c := hpublished
      obtain ⟨s', hplay, hsent⟩ := conduct.exists_play inner hfailed (.inr rfl)
        (hgrown.causes.subset hc) (.completed (some c)) seen
      refine ⟨s', ?_, ?_, hgrown.trans hsent.grown, fun _ => hsent.associated⟩
      · rw [if_pos hsome]
        exact hplay
      · rw [hsent.state, hfailed]
        exact State.afterAll_failed c _

end Conduct

/-! ## The abort -/

/-- Whatever signals the hooks send and whichever of them panic, an idle latch that is aborted has
both its abort hooks run, and then has failed if an ending was sent from inside them, and else is
aborted. The panic of the hook of completion goes on before that of the first abort hook, and that
before the panic of the second. -/
theorem abort_survives_panics (conduct : Conduct) {latch : Latch}
    (hlatch : s.latches[id]? = some latch) (hidle : latch.state = .idle)
    (hc : c ∈ s.register.causes) (seen : List Happening) :
    ∃ s', ((Sink.latch id).deliver (.abort c)).run (conduct.around inner id) seen s =
        (conduct.verdict c, seen ++ conduct.account c, s') ∧
      s'.stateOf id = (if conduct.completes c then .failed c else .aborted c) ∧
      ∀ hook ∈ conduct.hooks c, ∀ signal ∈ conduct.sends hook, ∀ d, signal.cause? = some d →
        s'.register.associated c d = true := by
  have hlt : id < s.latches.length := (List.getElem?_eq_some_iff.mp hlatch).1
  have hreceived : (s.receive id (.abort c)).2.stateOf id = .aborting c false := by
    refine (Store.perform_receive hlt (.abort c)).2.trans ?_
    rw [Store.stateOf_eq hlatch, hidle]
    rfl
  have hc₀ : c ∈ (s.receive id (.abort c)).2.register.causes := by
    rwa [Store.register_receive]
  obtain ⟨s₁, hfirst, hsent₁⟩ := conduct.exists_play inner hreceived
    (.inl ⟨false, rfl⟩) hc₀ (.aborted c) seen
  have hc₁ := hsent₁.mem_causes hc₀
  have hstate₁ : s₁.stateOf id = .aborting c (conduct.sendsEnding (.aborted c)) := by
    rw [hsent₁.state, hreceived, State.afterAll_aborting]
    rfl
  obtain ⟨s₂, hsecond, hsent₂⟩ := conduct.exists_play inner hstate₁
    (.inl ⟨_, rfl⟩) hc₁ (.failed c) (seen ++ conduct.page (.aborted c) (.aborting c false))
  have hc₂ := hsent₂.mem_causes hc₁
  have hstate₂ : s₂.stateOf id = .aborting c (conduct.completes c) := by
    rw [hsent₂.state, hstate₁, State.afterAll_aborting]
    rfl
  obtain ⟨s', hthird, hstate, hgrown, hassociated⟩ := conduct.exists_completion inner
    hstate₂ hc₂ (seen ++ conduct.page (.aborted c) (.aborting c false) ++
      conduct.page (.failed c) (.aborting c (conduct.sendsEnding (.aborted c))))
  refine ⟨s', ?_, hstate, ?_⟩
  · have hverdict : ((if conduct.completes c then conduct.ends (.completed (some c))
        else .returned ()).and ((conduct.ends (.aborted c)).and
          (conduct.ends (.failed c)))).yielding true = conduct.verdict c := by
      rw [Conduct.verdict]
      cases (if conduct.completes c then conduct.ends (.completed (some c)) else .returned ()) <;>
        cases conduct.ends (.aborted c) <;> cases conduct.ends (.failed c) <;> rfl
    rw [run_deliver_idle_abort hlatch hidle, run_aborting hfirst hsecond hthird, hverdict]
    simp only [Conduct.account, List.append_assoc]
  · -- What was associated after one hook stays so while the next ones run.
    intro hook hhook
    rw [Conduct.hooks, abortHooks, List.mem_append, List.mem_pair] at hhook
    rcases hhook with (rfl | rfl) | hcompletion
    · intro signal hsignal d hd
      exact hgrown.associated (hsent₂.grown.associated (hsent₁.associated signal hsignal d hd))
    · intro signal hsignal d hd
      exact hgrown.associated (hsent₂.associated signal hsignal d hd)
    · cases hcompletes : conduct.completes c with
      | false => simp [hcompletes] at hcompletion
      | true =>
          obtain rfl : hook = .completed (some c) := by simpa [hcompletes] using hcompletion
          exact hassociated hcompletes

def givenUp : Cause := ⟨0, .message "given up"⟩
def connectionLost : Cause := ⟨1, .message "connection lost"⟩

/-- Two causes have been created, and a latch. -/
def beforeAbort : Store :=
  { register := ⟨[(givenUp, []), (connectionLost, [])]⟩, latches := [{}] }

/-- The first abort hook reports an ending before it panics, and the second panics as well. -/
def reporting : Conduct where
  sends
    | .aborted _ => [.finish (.failure connectionLost), .abort connectionLost]
    | _ => []
  ends
    | .aborted _ => .panicked "aborted"
    | .failed _ => .panicked "failed"
    | _ => .returned ()

def calm : Surroundings (List Happening) := fun _ seen s => (.returned (), seen, s)

theorem abort_survives_reporting :
    beforeAbort.latches[0]? = some ({} : Latch) ∧ givenUp ∈ beforeAbort.register.causes ∧
      ∃ s', ((Sink.latch 0).deliver (.abort givenUp)).run (reporting.around calm 0) []
          beforeAbort = (.panicked "aborted",
        [.started (.aborted givenUp) (.aborting givenUp false),
          .answered (.finish (.failure connectionLost)) false,
          .answered (.abort connectionLost) false,
          .ended (.aborted givenUp) (.panicked "aborted"),
          .started (.failed givenUp) (.aborting givenUp true),
          .ended (.failed givenUp) (.panicked "failed"),
          .started (.completed (some givenUp)) (.failed givenUp),
          .ended (.completed (some givenUp)) (.returned ())], s') ∧
        s'.stateOf 0 = .failed givenUp ∧
        s'.register.associated givenUp connectionLost = true := by
  have hlatch : beforeAbort.latches[0]? = some ({} : Latch) := rfl
  have hc : givenUp ∈ beforeAbort.register.causes := List.mem_cons_self
  obtain ⟨s', hrun, hstate, hassociated⟩ :=
    abort_survives_panics calm reporting hlatch rfl hc []
  refine ⟨hlatch, hc, s', hrun, hstate, ?_⟩
  exact hassociated (.aborted givenUp) (by simp [Conduct.hooks, abortHooks]) (.abort connectionLost)
    (by simp [reporting]) connectionLost rfl

end OneShot.Latch
