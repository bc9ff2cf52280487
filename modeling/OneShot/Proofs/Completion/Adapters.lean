import OneShot.Proofs.Completion.Deliveries

/-!
# What closures are told

The closures of a latch run with its first signal, apart from the closure of
completion, which runs with the first ending. A pair of closures keeps no account
of what has come before, so it runs one of them with every signal.
-/

namespace OneShot

open Course

/-- How a signal was answered, and the closures that were called meanwhile. -/
structure Hearing where
  answer : Outcome Bool
  calls : List ClosureCall
  deriving DecidableEq

namespace Course

variable {μ : Type}

/-- Every call of a closure is noted when it is made. -/
def Surroundings.noting (answer : Surroundings μ) : Surroundings (List ClosureCall × μ)
  | u, (calls, memory), s =>
      let (outcome, memory, s') := answer u memory s
      (outcome, (calls ++ (s.closureCall? u).toList, memory), s')

/-- Whatever else it does, an upcall comes back, and leaves the latch alone. -/
structure Surroundings.Behaves (answer : Surroundings μ) (id : Nat) : Prop where
  returns : ∀ u memory s, (answer u memory s).1 = .returned ()
  spares : ∀ u memory s, (answer u memory s).2.2.latches[id]? = s.latches[id]?

end Course

/-- What is heard of signals sent one after the other. -/
def Sink.hearings {μ : Type} (answer : Surroundings μ) (sink : Sink) :
    List Signal → μ → Store → List Hearing
  | [], _, _ => []
  | signal :: signals, memory, s =>
      let (answered, (calls, memory), s) := (sink.deliver signal).run answer.noting ([], memory) s
      ⟨answered, calls⟩ :: hearings answer sink signals memory s

/-- What is heard of a new latch. -/
def Hooks.hearings {μ : Type} (answer : Surroundings μ) (hooks : Hooks) (signals : List Signal)
    (memory : μ) (s : Store) : List Hearing :=
  (Sink.latch (s.addLatch hooks).1).hearings answer signals memory (s.addLatch hooks).2

/-- The closures of `opening` are called with the first signal, and those of `completion` with the
first ending. An abort is answered true if it comes first. -/
def Hearing.once (opening : Signal → List ClosureCall)
    (completion : Option Cause → List ClosureCall) (signals : List Signal) : List Hearing :=
  signals.mapIdx fun i signal =>
    { answer := .returned (decide (i = 0) && !signal.isEnding)
      calls := (if i = 0 then opening signal else []) ++
        if signals.findIdx? Signal.isEnding = some i then
          completion (signals.head?.bind Signal.cause?)
        else [] }

namespace Signal

/-- The hooks that the first signal has run, but for the hook of completion. -/
def opening : Signal → List Hook
  | finish .success => [.succeeded]
  | finish (.failure c) => [.failed c]
  | abort c => Latch.abortHooks c

theorem endingHooks_eq (ending : Ending) :
    Latch.endingHooks ending.cause? = (finish ending).opening ++ [.completed ending.cause?] := by
  cases ending <;> rfl

/-- An abort is a failure as well. -/
def calls (success : Closure) (abort? : Option Closure) (failure : Closure) :
    Signal → List ClosureCall
  | finish .success => [⟨success, .nothing⟩]
  | finish (.failure c) => [⟨failure, .cause c⟩]
  | abort c => abort?.toList.map (⟨·, .cause c⟩) ++ [⟨failure, .cause c⟩]

theorem filterMap_opening {hooks : Hooks} {success failure : Closure} {abort? : Option Closure}
    (hsuccess : hooks.onSucceeded = .tell success) (hfailure : hooks.onFailed = .tell failure)
    (habort : hooks.onAborted = abort?.elim .ignore .tell) (signal : Signal) :
    signal.opening.filterMap hooks.call? = signal.calls success abort? failure := by
  have hsucceeded : hooks.call? .succeeded = some ⟨success, .nothing⟩ := by
    rw [Hooks.call?, Hooks.handler, hsuccess]
    rfl
  have hfailed (c : Cause) : hooks.call? (.failed c) = some ⟨failure, .cause c⟩ := by
    rw [Hooks.call?, Hooks.handler, hfailure]
    rfl
  have haborted (c : Cause) : hooks.call? (.aborted c) = abort?.map (⟨·, .cause c⟩) := by
    rw [Hooks.call?, Hooks.handler, habort]
    cases abort? <;> rfl
  cases signal with
  | finish ending => cases ending <;> simp [opening, calls, hsucceeded, hfailed]
  | abort c => cases abort? <;> simp [opening, Latch.abortHooks, calls, haborted, hfailed]

end Signal

namespace Latch

variable {μ : Type} {answer : Surroundings μ} {s : Store} {id : Nat} {latch : Latch} {c : Cause}

/-! ## One signal -/

section Steps

variable (h : answer.Behaves id) (hlatch : s.latches[id]? = some latch)
  (calls : List ClosureCall) (memory : μ)

include h hlatch

theorem exists_noting_hook (hook : Hook) :
    ∃ memory' s', answer.noting (.hook id hook) (calls, memory) s =
        (.returned (), (calls ++ (latch.hooks.call? hook).toList, memory'), s') ∧
      s'.latches[id]? = some latch := by
  refine ⟨(answer (.hook id hook) memory s).2.1, (answer (.hook id hook) memory s).2.2, ?_,
    (h.spares (.hook id hook) memory s).trans hlatch⟩
  simp only [Surroundings.noting, h.returns, Store.closureCall?, hlatch, Option.bind_some]

theorem exists_run_callAll (hooks : List Hook) :
    ∃ memory' s', (callAll id hooks).run answer.noting (calls, memory) s =
        (.returned (), (calls ++ hooks.filterMap latch.hooks.call?, memory'), s') ∧
      s'.latches[id]? = some latch := by
  induction hooks generalizing calls memory s with
  | nil => exact ⟨memory, s, by simp [callAll], hlatch⟩
  | cons hook hooks ih =>
      obtain ⟨memory₁, s₁, hfirst, hlatch₁⟩ := exists_noting_hook h hlatch calls memory hook
      obtain ⟨memory', s', hrest, hlatch'⟩ := ih hlatch₁ _ memory₁
      have hcall : (call (.hook id hook)).run answer.noting (calls, memory) s =
          (.returned (), (calls ++ (latch.hooks.call? hook).toList, memory₁), s₁) := by
        simp only [call, run, hfirst]
      refine ⟨memory', s', ?_, hlatch'⟩
      rw [callAll, run_bind_of_returned hcall, hrest]
      cases hcall? : latch.hooks.call? hook <;> simp [hcall?]

theorem exists_run_idle_finish (hidle : latch.state = .idle) (ending : Ending) :
    ∃ memory' s', ((Sink.latch id).deliver (.finish ending)).run answer.noting (calls, memory) s =
        (.returned false,
          (calls ++ (endingHooks ending.cause?).filterMap latch.hooks.call?, memory'), s') ∧
      s'.latches[id]? =
        some { latch with state := (latch.state.receive (.finish ending)).1 } := by
  obtain ⟨memory', s', hcalls, hlatch'⟩ := exists_run_callAll h
    (Store.getElem?_receive hlatch (.finish ending)) calls memory (endingHooks ending.cause?)
  refine ⟨memory', s', ?_, hlatch'⟩
  rw [run_deliver_idle_finish hlatch hidle, run_bind_of_returned hcalls, run_pure]

theorem exists_run_idle_abort (hidle : latch.state = .idle) (c : Cause) :
    ∃ memory' s', ((Sink.latch id).deliver (.abort c)).run answer.noting (calls, memory) s =
        (.returned true, (calls ++ (abortHooks c).filterMap latch.hooks.call?, memory'), s') ∧
      s'.latches[id]? = some { latch with state := .aborted c } := by
  have hreceived : (s.receive id (.abort c)).2.latches[id]? =
      some { latch with state := .aborting c false } := by
    rw [Store.getElem?_receive hlatch, hidle]
    rfl
  obtain ⟨memory₁, s₁, hfirst, hlatch₁⟩ :=
    exists_noting_hook h hreceived calls memory (.aborted c)
  obtain ⟨memory₂, s₂, hsecond, hlatch₂⟩ := exists_noting_hook h hlatch₁
    (calls ++ (latch.hooks.call? (.aborted c)).toList) memory₁ (.failed c)
  have hpublish : ¬ (s₂.publish id).1 = true := by
    rw [Store.publish_eq hlatch₂]
    nofun
  refine ⟨memory₂, (s₂.publish id).2, ?_, Store.getElem?_publish hlatch₂⟩
  rw [run_deliver_idle_abort hlatch hidle, run_aborting hfirst hsecond (if_neg hpublish)]
  cases haborted : latch.hooks.call? (.aborted c) <;>
    cases hfailed : latch.hooks.call? (.failed c) <;>
    simp [abortHooks, haborted, hfailed, Outcome.and, Outcome.yielding]

theorem exists_run_held (hheld : latch.state.cause? = some c) (signal : Signal) :
    ∃ memory' s', ((Sink.latch id).deliver signal).run answer.noting (calls, memory) s =
        (.returned false,
          (calls ++ (latch.state.closing signal).filterMap latch.hooks.call?, memory'), s') ∧
      s'.latches[id]? = some { latch with state := (latch.state.receive signal).1 } := by
  have hstate : s.stateOf id = latch.state := Store.stateOf_eq hlatch
  have hlatch₁ : ((s.receive id signal).2.record (signal.cause?.map (c, ·))).latches[id]? =
      some { latch with state := (latch.state.receive signal).1 } := by
    rw [Store.latches_record, Store.getElem?_receive hlatch]
  obtain ⟨memory', s', hcalls, hlatch'⟩ :=
    exists_run_callAll h hlatch₁ calls memory (latch.state.closing signal)
  refine ⟨memory', s', ?_, hlatch'⟩
  rw [← hstate] at hheld hcalls
  rw [run_deliver_held hheld, run_bind_of_returned hcalls, run_pure, hstate]

end Steps

/-! ## One signal after the other -/

section Runs

variable (h : answer.Behaves id) (memory : μ)

include h

theorem hearings_completed (hlatch : s.latches[id]? = some latch)
    (hcompleted : latch.state.isCompleted = true) (signals : List Signal) :
    (Sink.latch id).hearings answer signals memory s =
      signals.mapIdx fun _ _ => ⟨.returned false, []⟩ := by
  induction signals generalizing memory s with
  | nil => rfl
  | cons signal signals ih =>
      obtain ⟨hooks, state⟩ := latch
      cases state with
      | succeeded =>
          have hfirst := run_deliver_succeeded answer.noting ([], memory)
            (Store.stateOf_eq hlatch) signal
          simp only [Sink.hearings, hfirst, List.mapIdx_cons, ih memory hlatch]
      | failed c =>
          obtain ⟨memory', s', hfirst, hlatch'⟩ :=
            exists_run_held h hlatch [] memory rfl signal
          rw [State.receive_failed] at hlatch'
          have hclosing : (State.failed c).closing signal = [] := rfl
          simp only [Sink.hearings, hfirst, hclosing, List.mapIdx_cons, ih memory' hlatch']
          rfl
      | _ => nomatch hcompleted

theorem hearings_aborted {hooks : Hooks}
    (hlatch : s.latches[id]? = some { hooks, state := .aborted c }) (signals : List Signal) :
    (Sink.latch id).hearings answer signals memory s =
      signals.mapIdx fun i _ =>
        { answer := .returned false
          calls := if signals.findIdx? Signal.isEnding = some i then
              (hooks.call? (.completed (some c))).toList
            else [] } := by
  induction signals generalizing memory s with
  | nil => rfl
  | cons signal signals ih =>
      obtain ⟨memory', s', hfirst, hlatch'⟩ := exists_run_held h hlatch [] memory rfl signal
      simp only [Sink.hearings, hfirst, List.mapIdx_cons]
      cases signal with
      | finish ending =>
          -- The latch has failed now, so nothing more is heard.
          have hclosing : (State.aborted c).closing (.finish ending) = [.completed (some c)] := rfl
          rw [hearings_completed h memory' hlatch' rfl signals, hclosing]
          cases hcall : hooks.call? (.completed (some c)) <;>
            simp [List.findIdx?_cons, Signal.isEnding, hcall]
      | abort d =>
          have hclosing : (State.aborted c).closing (.abort d) = [] := rfl
          rw [ih memory' hlatch', hclosing]
          simp [List.findIdx?_cons, Signal.isEnding]

/-- What is heard of a latch that nobody has signalled before. -/
theorem hearings_idle (hlatch : s.latches[id]? = some latch) (hidle : latch.state = .idle)
    (signals : List Signal) :
    (Sink.latch id).hearings answer signals memory s =
      Hearing.once (fun signal => signal.opening.filterMap latch.hooks.call?)
        (fun cause => (latch.hooks.call? (.completed cause)).toList) signals := by
  cases signals with
  | nil => rfl
  | cons signal signals =>
      cases signal with
      | finish ending =>
          obtain ⟨memory', s', hfirst, hlatch'⟩ :=
            exists_run_idle_finish h hlatch [] memory hidle ending
          have hcompleted : (latch.state.receive (.finish ending)).1.isCompleted = true := by
            rw [hidle]
            cases ending <;> rfl
          simp only [Sink.hearings, hfirst, hearings_completed h memory' hlatch' hcompleted signals,
            Signal.endingHooks_eq]
          cases hcall : latch.hooks.call? (.completed ending.cause?) <;>
            simp [Hearing.once, List.findIdx?_cons, Signal.isEnding, Signal.cause?, hcall]
      | abort c =>
          obtain ⟨memory', s', hfirst, hlatch'⟩ :=
            exists_run_idle_abort h hlatch [] memory hidle c
          simp only [Sink.hearings, hfirst, hearings_aborted h memory' hlatch' signals]
          simp [Hearing.once, List.findIdx?_cons, Signal.isEnding, Signal.cause?, Signal.opening]

end Runs

end Latch

namespace Hooks

variable {μ : Type} {answer : Surroundings μ}

theorem hearings_eq {hooks : Hooks} {opening : Signal → List ClosureCall}
    {completion : Option Cause → List ClosureCall} {s : Store}
    (h : answer.Behaves s.latches.length) (memory : μ)
    (hopening : ∀ signal, signal.opening.filterMap hooks.call? = opening signal)
    (hcompletion : ∀ cause, (hooks.call? (.completed cause)).toList = completion cause)
    (signals : List Signal) :
    hooks.hearings answer signals memory s = Hearing.once opening completion signals := by
  have hlatch : (s.addLatch hooks).2.latches[(s.addLatch hooks).1]? = some { hooks } :=
    List.getElem?_concat_length
  rw [← funext hopening, ← funext hcompletion]
  exact Latch.hearings_idle h memory hlatch rfl signals

end Hooks

namespace Sink

variable {μ : Type} {answer : Surroundings μ}

theorem hearings_pair (hreturns : ∀ u memory s, (answer u memory s).1 = .returned ())
    (success failure : Closure) (signals : List Signal) (memory : μ) (s : Store) :
    (Sink.pair success failure).hearings answer signals memory s =
      signals.map fun signal =>
        ⟨.returned (!signal.isEnding), signal.calls success none failure⟩ := by
  induction signals generalizing memory s with
  | nil => rfl
  | cons signal signals ih =>
      have hcall (c : ClosureCall) :
          (call (.closure c)).run answer.noting ([], memory) s =
            (.returned (), ([c], (answer (.closure c) memory s).2.1),
              (answer (.closure c) memory s).2.2) := by
        simp [call, run, Surroundings.noting, hreturns, Store.closureCall?]
      have hdeliver : ∃ memory' s',
          ((Sink.pair success failure).deliver signal).run answer.noting ([], memory) s =
            (.returned (!signal.isEnding),
              (signal.calls success none failure, memory'), s') := by
        cases signal with
        | finish ending => cases ending <;> exact ⟨_, _, run_bind_of_returned (hcall _) _⟩
        | abort c => exact ⟨_, _, run_bind_of_returned (hcall ⟨failure, .cause c⟩) _⟩
      obtain ⟨memory', s', hfirst⟩ := hdeliver
      simp only [hearings, hfirst, List.map_cons, ih memory' s']

/-- Whatever the signals are, closures that come back and leave their own latch alone are called as
follows. -/
theorem hearings_of_adapters (s : Store) (h : answer.Behaves s.latches.length) (memory : μ)
    (signals : List Signal) :
    (∀ complete,
      (Hooks.onCompletion complete).hearings answer signals memory s =
        Hearing.once (fun _ => []) (fun _ => [⟨complete, .nothing⟩]) signals) ∧
    (∀ success abort failure,
      (Hooks.abortable success abort failure).hearings answer signals memory s =
        Hearing.once (Signal.calls success (some abort) failure) (fun _ => []) signals) ∧
    (∀ success failure completed,
      (Hooks.endings success failure completed).hearings answer signals memory s =
        Hearing.once (Signal.calls success none failure)
          (fun cause => [⟨completed, .outcome cause⟩]) signals) ∧
    (∀ success abort failure completed,
      (Hooks.full success abort failure completed).hearings answer signals memory s =
        Hearing.once (Signal.calls success (some abort) failure)
          (fun cause => [⟨completed, .outcome cause⟩]) signals) ∧
    ∀ success failure,
      (pair success failure).hearings answer signals memory s =
        signals.map fun signal =>
          ⟨.returned (!signal.isEnding), signal.calls success none failure⟩ := by
  refine ⟨?_, ?_, ?_, ?_, ?_⟩
  · intro complete
    refine Hooks.hearings_eq h memory ?_ (fun _ => rfl) signals
    rintro ((_ | c) | c) <;> rfl
  · intro success abort failure
    exact Hooks.hearings_eq h memory (Signal.filterMap_opening rfl rfl rfl) (fun _ => rfl) signals
  · intro success failure completed
    exact Hooks.hearings_eq h memory (Signal.filterMap_opening rfl rfl rfl) (fun _ => rfl) signals
  · intro success abort failure completed
    exact Hooks.hearings_eq h memory (Signal.filterMap_opening rfl rfl rfl) (fun _ => rfl) signals
  · intro success failure
    exact hearings_pair h.returns success failure signals memory s

/-- Each upcall creates a cause. -/
def creating : Surroundings Nat := fun _ n s =>
  (.returned (), n + 1, (s.addCause (.message "noted")).2)

open Gate (lost unreachable) in
/-- The abort that comes first counts, and an ending completes the latch once. -/
theorem hearings_of_full :
    creating.Behaves 0 ∧
      (Hooks.full 1 2 3 4).hearings creating
          [.abort lost, .abort unreachable, .finish .success, .finish (.failure unreachable)] 0 {} =
        [⟨.returned true, [⟨2, .cause lost⟩, ⟨3, .cause lost⟩]⟩,
          ⟨.returned false, []⟩,
          ⟨.returned false, [⟨4, .outcome (some lost)⟩]⟩,
          ⟨.returned false, []⟩] := by
  have h : creating.Behaves 0 := ⟨fun _ _ _ => rfl, fun _ _ _ => rfl⟩
  obtain ⟨-, -, -, hfull, -⟩ := hearings_of_adapters {} h 0
    [.abort lost, .abort unreachable, .finish .success, .finish (.failure unreachable)]
  exact ⟨h, hfull 1 2 3 4⟩

end Sink

end OneShot
