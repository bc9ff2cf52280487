import OneShot.Proofs.Completion.Decision
import OneShot.Proofs.Failure.Holder

/-!
# Late causes

Who holds a cause and is signalled once more has that cause suppress the late
one. The three kinds of holders do this each in its own way, but what comes of
it in the register is the same, and it is done before the hook of completion
runs, if there is one left to run. What has succeeded lets late causes go.
-/

namespace OneShot

open Relation Course

namespace Register

/-- Between the registers at most the list of the keeper grows, and that by the late cause, if the
two were not associated. -/
structure Records (r : Register) (keeper late : Cause) (r' : Register) : Prop where
  causes : r'.causes = r.causes
  suppressed : ∀ c, r'.suppressed c =
    r.suppressed c ++ if c = keeper ∧ r.associated keeper late = false then [late] else []
  path : ReflTransGen r'.Edge keeper late ∨ ReflTransGen r.Edge late keeper

theorem records_suppress {r : Register} {keeper : Cause} (hkeeper : keeper ∈ r.causes)
    (late : Cause) : r.Records keeper late (r.suppress keeper late) :=
  ⟨causes_suppress r keeper late, suppressed_suppress hkeeper late, path_suppress hkeeper late⟩

end Register

namespace Course

variable {α μ : Type} {answer : Surroundings μ}

/-- The surroundings create causes and have causes suppress others, but take nothing back. -/
def Surroundings.Grows (answer : Surroundings μ) : Prop :=
  ∀ u memory (s : Store), s.register.Grown (answer u memory s).2.2.register

theorem discard_bind {β γ : Type} (course : Course α) (value : β) (f : Unit → Course γ) :
    (do
      let told ← discard (do
        let _ ← course
        pure value)
      f told) = course >>= fun _ => f () := by
  induction course with
  | done outcome => cases outcome <;> rfl
  | access a next ih => exact congrArg (access a) (funext ih)
  | upcall u next ih => exact congrArg (upcall u) (funext ih)

theorem run_bind_of_returned {β : Type} {course : Course α} {memory memory' : μ} {s s' : Store}
    {value : α} (h : course.run answer memory s = (.returned value, memory', s'))
    (f : α → Course β) : (course >>= f).run answer memory s = (f value).run answer memory' s' := by
  rw [run_bind, h]

theorem grown_run (h : answer.Grows) (course : Course α) (memory : μ) (s : Store) :
    s.register.Grown (course.run answer memory s).2.2.register := by
  induction course generalizing memory s with
  | done outcome => exact .refl _
  | access a next ih => exact (Store.grown_perform s a).register.trans (ih _ _ _)
  | upcall u next ih => exact (h u memory s).trans (ih _ _ _)

end Course

/-! ## Signals to a latch -/

namespace Latch

/-- The hook that is left to run when an ending completes a latch that was aborted. -/
def State.closing : State → Signal → List Hook
  | aborted c, .finish _ => [.completed (some c)]
  | _, _ => []

theorem callAll_singleton (id : Nat) (hook : Hook) : callAll id [hook] = call (.hook id hook) :=
  Course.bind_pure (call (.hook id hook))

theorem State.receive_of_cause? {state : State} {c : Cause} (h : state.cause? = some c)
    (signal : Signal) :
    (state.receive signal).2 = .suppress c signal.cause? (state.closing signal) := by
  cases state with
  | idle => nomatch h
  | succeeded => nomatch h
  | failed d =>
      cases h
      rw [State.receive_failed]
      rfl
  | aborting d completing =>
      cases h
      cases signal <;> rfl
  | aborted d =>
      cases h
      cases signal <;> rfl

end Latch

namespace Store

variable {s : Store} {id : Nat} {c d : Cause} {signal : Signal}

theorem register_receive (s : Store) (id : Nat) (signal : Signal) :
    (s.receive id signal).2.register = s.register := by
  rw [receive]
  split <;> rfl

theorem receive_of_cause? (h : (s.stateOf id).cause? = some c) (signal : Signal) :
    (s.receive id signal).1 = .suppress c signal.cause? ((s.stateOf id).closing signal) := by
  have hbusy : s.stateOf id ≠ .idle := by
    intro hidle
    rw [hidle] at h
    nomatch h
  exact (perform_receive (lt_of_ne_idle hbusy) signal).1.trans
    (Latch.State.receive_of_cause? h signal)

theorem receive_of_succeeded (h : s.stateOf id = .succeeded) (signal : Signal) :
    s.receive id signal = (.call [], s) := by
  cases hlatch : s.latches[id]? with
  | none => rw [receive, hlatch]
  | some latch =>
      have hstate : latch.state = .succeeded := (stateOf_eq hlatch).symm.trans h
      obtain ⟨hlt, hget⟩ := List.getElem?_eq_some_iff.mp hlatch
      have hsame : ({ latch with state := .succeeded } : Latch) = s.latches[id] := by
        rw [hget, ← hstate]
      simp only [receive, hlatch, hstate, Latch.State.receive_succeeded, hsame,
        List.set_getElem_self]

/-- What a holder still does for the caller of a signal once the late cause has been recorded. -/
def closing (s : Store) (signal : Signal) : Object → Course Bool
  | .latch id => do
      Latch.callAll id ((s.stateOf id).closing signal)
      pure false
  | .gate _ | .body _ => pure (!signal.isEnding)

def HasSucceeded (s : Store) : Object → Prop
  | .latch id => s.stateOf id = .succeeded
  | .gate id => s.gates[id]?.bind Gate.ending = some .success
  | .body _ => False

end Store

/-- A gate knows of no aborts and takes them for failures. -/
def Signal.asEnding : Signal → Ending
  | finish ending => ending
  | abort cause => .failure cause

@[simp] theorem Signal.cause?_asEnding (signal : Signal) :
    signal.asEnding.cause? = signal.cause? := by
  cases signal <;> rfl

/-- The sink that signals an object. -/
def Object.sink : Object → Sink
  | latch id => .latch id
  | gate id => .gate id
  | body id => .cursor id

namespace Latch

/-- What a sink does once its latch has received a signal. -/
def concluding (id : Nat) (signal : Signal) (duty : Duty) : Course Bool :=
  match signal with
  | .finish _ => do
      discard (fulfilling id duty)
      pure false
  | .abort _ => fulfilling id duty

theorem deliver_latch (id : Nat) (signal : Signal) :
    (Sink.latch id).deliver signal = access (.receive id signal) (concluding id signal) := by
  cases signal with
  | finish ending =>
      rw [Sink.deliver, Sink.finish, deliver_eq]
      rfl
  | abort cause => exact deliver_eq id (.abort cause)

theorem concluding_call (id : Nat) (signal : Signal) (hooks : List Hook) :
    concluding id signal (.call hooks) = (do
      callAll id hooks
      pure false) := by
  cases signal with
  | finish ending => exact discard_bind (callAll id hooks) false fun _ => pure false
  | abort cause => rfl

theorem concluding_suppress (id : Nat) (signal : Signal) (keeper : Cause) (late : Option Cause)
    (hooks : List Hook) :
    concluding id signal (.suppress keeper late hooks) = (do
      suppressing keeper late
      callAll id hooks
      pure false) := by
  cases signal with
  | finish ending =>
      rw [concluding, fulfilling, ← bind_assoc, discard_bind, bind_assoc]
  | abort cause => rfl

end Latch

section Runs

variable {μ : Type} (answer : Surroundings μ) (memory : μ) {s : Store} {id : Nat} {c d : Cause}
  {signal : Signal}

theorem Latch.run_deliver_late (hheld : (s.stateOf id).cause? = some c)
    (hd : signal.cause? = some d) :
    ((Sink.latch id).deliver signal).run answer memory s =
      (do
        callAll id ((s.stateOf id).closing signal)
        pure false : Course Bool).run answer memory ((s.receive id signal).2.suppress c d) := by
  have hduty := Store.receive_of_cause? hheld signal
  rw [hd] at hduty
  simp only [deliver_latch, run, Store.perform, hduty, concluding_suppress]
  rfl

theorem Latch.run_deliver_succeeded (h : s.stateOf id = .succeeded) (signal : Signal) :
    ((Sink.latch id).deliver signal).run answer memory s = (.returned false, memory, s) := by
  simp only [deliver_latch, run, Store.perform, Store.receive_of_succeeded h, concluding_call]
  rfl

/-! ## Signals to a gate and to a body -/

theorem Store.register_settle_late {gate : Gate} (hgate : s.gates[id]? = some gate)
    (hending : gate.ending = some (.failure c)) :
    (s.settle id (.failure d)).register = s.register.suppress c d := by
  simp only [settle, hgate, Gate.late?, hending]
  rfl

theorem Store.settle_succeeded {gate : Gate} (hgate : s.gates[id]? = some gate)
    (hending : gate.ending = some .success) (ending : Ending) : s.settle id ending = s := by
  obtain ⟨hlt, hget⟩ := List.getElem?_eq_some_iff.mp hgate
  have hsame : gate.settle ending = s.gates[id] := by
    rw [hget, Gate.settle, hending]
  simp only [settle, hgate, Gate.late?, hending, hsame, List.set_getElem_self]

theorem Sink.run_deliver_gate (s : Store) (id : Nat) (signal : Signal) :
    ((Sink.gate id).deliver signal).run answer memory s =
      (.returned (!signal.isEnding), memory, s.settle id signal.asEnding) := by
  cases signal <;> rfl

theorem Body.run_failing_late {b : Body} (hb : s.bodies[id]? = some b)
    (hfailure : b.failure = some c) (d : Cause) :
    (failing id d).run answer memory s = (.returned false, memory, s.suppress c d) := by
  rw [failing, run_bind]
  simp only [touch, run, Store.perform, Store.fail_again hb hfailure]
  rfl

/-- The cursor of a body takes an abort for a failure. -/
theorem Sink.run_deliver_cursor_late {b : Body} (hb : s.bodies[id]? = some b)
    (hfailure : b.failure = some c) (hd : signal.cause? = some d) :
    ((Sink.cursor id).deliver signal).run answer memory s =
      (.returned (!signal.isEnding), memory, s.suppress c d) := by
  have hcall : signal.atCursor id = .fail id d := by
    rcases signal with (_ | late) | late
    · nomatch hd
    · exact congrArg (Call.fail id) (Option.some.inj hd)
    · exact congrArg (Call.fail id) (Option.some.inj hd)
  have hfail : (Call.fail id d).course.run answer memory s =
      (.returned (.truth false), memory, s.suppress c d) :=
    run_bind_of_returned (Body.run_failing_late answer memory hb hfailure d) _
  rw [deliver_cursor, hcall]
  exact run_bind_of_returned hfail _

end Runs

/-! ## All holders -/

namespace Store

variable {s : Store} {o : Object} {c d : Cause} {signal : Signal}

theorem exists_run_closing {μ : Type} (answer : Surroundings μ) (memory : μ)
    (hheld : s.held? o = some c) (hd : signal.cause? = some d) :
    ∃ s', s'.register = s.register.suppress c d ∧
      (o.sink.deliver signal).run answer memory s =
        (s.closing signal o).run answer memory s' := by
  cases o with
  | latch id =>
      refine ⟨(s.receive id signal).2.suppress c d, ?_,
        Latch.run_deliver_late answer memory hheld hd⟩
      rw [suppress, register_receive]
  | gate id =>
      obtain ⟨gate, hgate, hending⟩ := Option.bind_eq_some_iff.mp hheld
      obtain ⟨first, hfirst, hc⟩ := Option.bind_eq_some_iff.mp hending
      refine ⟨s.settle id signal.asEnding, ?_, Sink.run_deliver_gate answer memory s id signal⟩
      rw [← signal.cause?_asEnding] at hd
      cases first with
      | success => nomatch hc
      | failure keeper =>
          obtain rfl : keeper = c := Option.some.inj hc
          cases hsecond : signal.asEnding with
          | success =>
              rw [hsecond] at hd
              nomatch hd
          | failure late =>
              rw [hsecond] at hd
              obtain rfl : late = d := Option.some.inj hd
              exact register_settle_late hgate hfirst
  | body id =>
      obtain ⟨b, hb, hfailure⟩ := Option.bind_eq_some_iff.mp hheld
      exact ⟨s.suppress c d, rfl, Sink.run_deliver_cursor_late answer memory hb hfailure hd⟩

/-- What becomes of the causes that come late to the objects of a store. -/
structure SuppressesLate (s : Store) : Prop where
  /-- The late cause is recorded, and only then the rest of the delivery follows. -/
  recorded : ∀ (μ : Type) (answer : Surroundings μ) (memory : μ) (o : Object) (signal : Signal)
    (c d : Cause), s.held? o = some c → signal.cause? = some d →
      ∃ s', s.register.Records c d s'.register ∧
        (o.sink.deliver signal).run answer memory s = (s.closing signal o).run answer memory s'
  /-- The rest is the hook of completion if a failure completes a latch that was aborted. -/
  completed : ∀ (μ : Type) (answer : Surroundings μ) (memory : μ) (id : Nat) (c d : Cause),
    s.stateOf id = .aborted c →
      ∃ s', s.register.Records c d s'.register ∧
        ((Sink.latch id).deliver (.finish (.failure d))).run answer memory s =
          (do
            call (.hook id (.completed (some c)))
            pure false : Course Bool).run answer memory s'
  /-- In the end the late cause can be reached from the cause held, unless that could be reached
  from it before. -/
  reached : ∀ (μ : Type) (answer : Surroundings μ) (memory : μ) (o : Object) (signal : Signal)
    (c d : Cause), s.held? o = some c → signal.cause? = some d → answer.Grows →
      ReflTransGen ((o.sink.deliver signal).run answer memory s).2.2.register.Edge c d ∨
        ReflTransGen s.register.Edge d c
  /-- To fail a body once more is no different. -/
  failedAgain : ∀ (μ : Type) (answer : Surroundings μ) (memory : μ) (id : Nat) (c d : Cause),
    s.held? (.body id) = some c →
      ∃ s', s.register.Records c d s'.register ∧
        (Body.failing id d).run answer memory s = (.returned false, memory, s')
  /-- What has succeeded changes nothing for a signal. -/
  letGo : ∀ (μ : Type) (answer : Surroundings μ) (memory : μ) (o : Object) (signal : Signal),
    s.HasSucceeded o →
      ∃ answered, (o.sink.deliver signal).run answer memory s = (.returned answered, memory, s)

theorem suppressesLate_of_held (h : ∀ o c, s.held? o = some c → c ∈ s.register.causes) :
    s.SuppressesLate := by
  have hrecorded {μ : Type} (answer : Surroundings μ) (memory : μ) (o : Object) (signal : Signal)
      (c d : Cause) (hheld : s.held? o = some c) (hd : signal.cause? = some d) :
      ∃ s', s.register.Records c d s'.register ∧
        (o.sink.deliver signal).run answer memory s =
          (s.closing signal o).run answer memory s' := by
    obtain ⟨s', hregister, hrun⟩ := exists_run_closing answer memory hheld hd
    refine ⟨s', ?_, hrun⟩
    rw [hregister]
    exact Register.records_suppress (h o c hheld) d
  refine ⟨fun μ => hrecorded, ?_, ?_, ?_, ?_⟩
  · intro μ answer memory id c d haborted
    have hheld : s.held? (.latch id) = some c := by
      rw [held?, haborted]
      rfl
    obtain ⟨s', hrecords, hrun⟩ := hrecorded answer memory (.latch id) (.finish (.failure d)) c d
      hheld rfl
    refine ⟨s', hrecords, hrun.trans ?_⟩
    rw [closing, haborted, Latch.State.closing, Latch.callAll_singleton]
  · intro μ answer memory o signal c d hheld hd hgrows
    obtain ⟨s', hrecords, hrun⟩ := hrecorded answer memory o signal c d hheld hd
    rw [hrun]
    exact hrecords.path.imp (grown_run hgrows _ memory s').path id
  · intro μ answer memory id c d hheld
    obtain ⟨b, hb, hfailure⟩ := Option.bind_eq_some_iff.mp hheld
    exact ⟨s.suppress c d, Register.records_suppress (h _ c hheld) d,
      Body.run_failing_late answer memory hb hfailure d⟩
  · intro μ answer memory o signal hsucceeded
    cases o with
    | latch id => exact ⟨false, Latch.run_deliver_succeeded answer memory hsucceeded signal⟩
    | gate id =>
        obtain ⟨gate, hgate, hending⟩ := Option.bind_eq_some_iff.mp hsucceeded
        have hrun := Sink.run_deliver_gate answer memory s id signal
        rw [settle_succeeded hgate hending] at hrun
        exact ⟨_, hrun⟩
    | body id => exact hsucceeded.elim

end Store

end OneShot
