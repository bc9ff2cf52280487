import OneShot.Proofs.Body.Panics
import OneShot.Proofs.Completion.Deliveries

/-!
# The effect of a delivery

Whatever is delivered to an object, a latch, a gate or a body, the store is changed
first, and all that follows is calls out. An object keeps the first ending that it
is given, and has its cause suppress what comes later.
-/

namespace OneShot

open Course

/-- A signal to an object, or a failure given to a body straight away. -/
inductive Delivery : Object → Type
  | signal {o : Object} (signal : Signal) : Delivery o
  | fail {id : Nat} (cause : Cause) : Delivery (.body id)

namespace Delivery

variable {o : Object}

def course : {o : Object} → Delivery o → Course Bool
  | o, signal s => o.sink.deliver s
  | .body id, fail cause => Body.failing id cause

/-- The cause that is delivered. -/
def cause? : Delivery o → Option Cause
  | signal s => s.cause?
  | fail cause => some cause

/-- The ending that the object keeps if it has none before. A chunk that was acknowledged ends
nothing for a body. -/
def ending? : {o : Object} → Delivery o → Option Ending
  | .body _, signal s => s.cause?.map .failure
  | .latch _, signal s | .gate _, signal s => some s.asEnding
  | .body _, fail cause => some (.failure cause)

/-- One delivery after the other, even if some of them panic. -/
def deliverAll (deliveries : List (Delivery o)) : Course (List (Outcome Bool)) :=
  deliveries.mapM fun delivery => attempt delivery.course

theorem ending?_eq_some_failure {x : Delivery o} {c : Cause} :
    x.ending? = some (.failure c) ↔ x.cause? = some c := by
  cases x with
  | fail d => simp [ending?, cause?]
  | signal s =>
      cases o with
      | body id => simp [ending?, cause?]
      | latch id | gate id => rcases s with (_ | d) | d <;> simp [ending?, cause?, Signal.asEnding,
          Signal.cause?, Ending.cause?]

end Delivery

/-- The ending that the state keeps, whether or not all that comes of it has been done. -/
def Latch.State.ending? : Latch.State → Option Ending
  | idle => none
  | succeeded => some .success
  | aborting c _ | aborted c | failed c => some (.failure c)

namespace Store

variable {s s' s'' : Store} {o : Object} {ds : List Cause}

/-- The ending that an object keeps. -/
def ending? (s : Store) : Object → Option Ending
  | .latch id => (s.stateOf id).ending?
  | .gate id => s.gates[id]?.bind Gate.ending
  | .body id => (s.bodies[id]?.bind Body.failure).map .failure

/-- The object is there, and if it is a latch its hooks are silent. -/
def Stands (s : Store) : Object → Prop
  | .latch id => s.latches[id]?.map Latch.hooks = some .silent
  | .gate id => id < s.gates.length
  | .body id => id < s.bodies.length

theorem held?_eq (s : Store) (o : Object) : s.held? o = (s.ending? o).bind Ending.cause? := by
  cases o with
  | latch id =>
      rw [held?, ending?]
      cases s.stateOf id <;> rfl
  | gate id =>
      rw [held?, ending?]
      cases s.gates[id]? <;> rfl
  | body id =>
      rw [held?, ending?]
      cases s.bodies[id]?.bind Body.failure <;> rfl

theorem held?_eq_none_of_hasSucceeded (h : s.HasSucceeded o) : s.held? o = none := by
  cases o with
  | latch id =>
      have hstate : s.stateOf id = .succeeded := h
      rw [held?, hstate]
      rfl
  | gate id =>
      rw [held?_eq]
      have hending : s.ending? (.gate id) = some .success := h
      rw [hending]
      rfl
  | body id => exact h.elim

theorem ending?_body {id : Nat} {b : Body} (hb : s.bodies[id]? = some b) :
    s.ending? (.body id) = b.failure.map .failure := by
  rw [ending?, hb, Option.bind_some]

/-- Between the two stores the object has kept its ending, and no cause has been made to suppress
another. -/
structure Spared (o : Object) (ds : List Cause) (s s' : Store) : Prop where
  stands : s.Stands o → s'.Stands o
  ending : s'.ending? o = s.ending? o
  causes : s.register.causes ⊆ s'.register.causes
  suppressed : ∀ d ∈ ds, s'.register.suppressed d = s.register.suppressed d

theorem Spared.refl (o : Object) (ds : List Cause) (s : Store) : Spared o ds s s :=
  ⟨id, rfl, List.Subset.refl _, fun _ _ => rfl⟩

theorem Spared.trans (h : Spared o ds s s') (h' : Spared o ds s' s'') : Spared o ds s s'' where
  stands := h'.stands ∘ h.stands
  ending := h'.ending.trans h.ending
  causes := List.Subset.trans h.causes h'.causes
  suppressed := fun d hd => (h'.suppressed d hd).trans (h.suppressed d hd)

end Store

namespace Course

variable {α β μ : Type} {answer : Surroundings μ} {o : Object} {ds : List Cause}

/-- Silent hooks do nothing. The listener of a body and the callbacks of its chunks neither fail it
nor have one of the causes suppress another. -/
def Surroundings.LeavesAlone (answer : Surroundings μ) (ds : List Cause) : Object → Prop
  | .latch _ => answer.AddsNothing
  | .gate _ => True
  | .body id => ∀ u memory s, u.object? = some (.body id) →
      Store.Spared (.body id) ds s (answer u memory s).2.2

theorem Surroundings.LeavesAlone.spared (h : answer.LeavesAlone ds o) {u : Upcall}
    (hu : u.object? = some o) (memory : μ) {s : Store} (hs : s.Stands o) :
    s.Spared o ds (answer u memory s).2.2 := by
  cases o with
  | latch id =>
      cases u with
      | hook other hook =>
          obtain rfl : other = id := by simpa [Upcall.object?] using hu
          obtain ⟨latch, hlatch, hsilent⟩ := Option.map_eq_some_iff.mp hs
          have hnone : s.closureCall? (.hook other hook) = none := by
            rw [Store.closureCall?, hlatch, Option.bind_some, hsilent, Hooks.call?_silent]
          rw [h other hook memory s hnone]
          exact .refl _ _ s
      | _ => cases hu
  | gate id => cases u <;> cases hu
  | body id => exact h u memory s hu

/-- All that a course does to an object is to call out from it, and to publish it if it is a
latch. -/
def CallsOut (o : Object) : Course α → Prop
  | done _ => True
  | access a next => (∃ id, o = .latch id ∧ a = .publish id) ∧ ∀ reply, (next reply).CallsOut o
  | upcall u next => u.object? = some o ∧ ∀ outcome, (next outcome).CallsOut o

theorem CallsOut.bind {course : Course α} (h : course.CallsOut o) {f : α → Course β}
    (hf : ∀ value, (f value).CallsOut o) : (course >>= f).CallsOut o := by
  induction course with
  | done outcome =>
      cases outcome with
      | returned value => exact hf value
      | panicked text => trivial
  | access a next ih => exact ⟨h.1, fun reply => ih reply (h.2 reply)⟩
  | upcall u next ih => exact ⟨h.1, fun outcome => ih outcome (h.2 outcome)⟩

theorem callsOut_call {u : Upcall} (h : u.object? = some o) : (call u).CallsOut o :=
  ⟨h, fun _ => trivial⟩

theorem callsOut_tellAll {us : List Upcall} (h : ∀ u ∈ us, u.object? = some o) :
    (tellAll us).CallsOut o := by
  induction us with
  | nil => trivial
  | cons u us ih =>
      obtain ⟨hu, hus⟩ := List.forall_mem_cons.mp h
      exact (callsOut_call hu).bind fun _ => ih hus

end Course

namespace Latch

variable {s : Store} {id : Nat}

theorem callsOut_callAll (id : Nat) (hooks : List Hook) (answered : Bool) :
    (do
      callAll id hooks
      pure answered : Course Bool).CallsOut (.latch id) := by
  induction hooks with
  | nil => trivial
  | cons hook hooks ih =>
      rw [callAll, bind_assoc]
      exact (callsOut_call rfl).bind fun _ => ih

theorem callsOut_aborting (id : Nat) (c : Cause) : (aborting id c).CallsOut (.latch id) := by
  have hdone (outcome : Outcome Unit) :
      (do
        done outcome
        pure true : Course Bool).CallsOut (.latch id) := by
    cases outcome <;> trivial
  refine ⟨rfl, fun first => ⟨rfl, fun second => ⟨⟨id, rfl, rfl⟩, fun completing => ?_⟩⟩⟩
  cases completing with
  | false => exact hdone _
  | true => exact (callsOut_call rfl).bind fun _ => hdone _

theorem State.ending?_publish (state : State) : state.publish.1.ending? = state.ending? := by
  cases state with
  | aborting c completing => cases completing <;> rfl
  | _ => rfl

theorem State.ending?_receive (state : State) (signal : Signal) :
    (state.receive signal).1.ending? = state.ending?.or (some signal.asEnding) := by
  cases state with
  | succeeded => rw [receive_succeeded]; rfl
  | failed c => rw [receive_failed]; rfl
  | _ => rcases signal with (_ | d) | d <;> rfl

theorem spared_publish (ds : List Cause) (s : Store) (id : Nat) :
    s.Spared (.latch id) ds (s.publish id).2 := by
  cases hlatch : s.latches[id]? with
  | none =>
      rw [Store.publish, hlatch]
      exact .refl _ _ s
  | some latch =>
      have hpublished := Store.getElem?_publish hlatch
      refine ⟨fun hs => ?_, ?_, (Store.grown_publish s id).register.causes.subset, ?_⟩
      · rw [Store.Stands, hpublished]
        rwa [Store.Stands, hlatch] at hs
      · rw [Store.ending?, Store.ending?, Store.stateOf_eq hpublished, Store.stateOf_eq hlatch]
        exact State.ending?_publish _
      · rw [Store.publish_eq hlatch]
        exact fun _ _ => rfl

end Latch

namespace Course

variable {α μ : Type} {answer : Surroundings μ} {o : Object} {ds : List Cause}

theorem CallsOut.spared_run {course : Course α} (h : course.CallsOut o)
    (hanswer : answer.LeavesAlone ds o) (memory : μ) {s : Store} (hs : s.Stands o) :
    s.Spared o ds (course.run answer memory s).2.2 := by
  induction course generalizing memory s with
  | done outcome => exact .refl _ _ s
  | access a next ih =>
      obtain ⟨⟨id, rfl, rfl⟩, hnext⟩ := h
      have hpublish := Latch.spared_publish ds s id
      exact hpublish.trans (ih _ (hnext _) memory (hpublish.stands hs))
  | upcall u next ih =>
      have hupcall := hanswer.spared h.1 memory hs
      exact hupcall.trans (ih _ (h.2 _) _ (hupcall.stands hs))

end Course

/-- The late cause is suppressed by the cause held, if there are two such. -/
def Register.suppressLate (r : Register) : Option Cause → Option Cause → Register
  | some keeper, some late => r.suppress keeper late
  | _, _ => r

namespace Delivery

variable {o : Object} {s s' : Store}

/-- What a delivery does in the store before it calls out. -/
structure Effect (x : Delivery o) (s s' : Store) : Prop where
  stands : s'.Stands o
  ending : s'.ending? o = (s.ending? o).or x.ending?
  register : s'.register = s.register.suppressLate (s.held? o) x.cause?

/-- A delivery has its effect, and then calls out. -/
def TakesEffect (x : Delivery o) (s : Store) : Prop :=
  ∃ (s' : Store) (rest : Course Bool), x.Effect s s' ∧ rest.CallsOut o ∧
    ∀ (μ : Type) (answer : Surroundings μ) (memory : μ),
      x.course.run answer memory s = rest.run answer memory s'

/-- The cause held and a cause that comes late. -/
def late? (keeper? cause? : Option Cause) : Option (Cause × Cause) :=
  keeper?.bind fun keeper => cause?.map (keeper, ·)

theorem register_record_late? (s : Store) (keeper? cause? : Option Cause) :
    (s.record (late? keeper? cause?)).register = s.register.suppressLate keeper? cause? := by
  cases keeper? <;> cases cause? <;> rfl

theorem effect_latch {id : Nat} (hs : s.Stands (.latch id)) (signal : Signal) :
    (Delivery.signal (o := .latch id) signal).Effect s
      ((s.receive id signal).2.record (late? (s.held? (.latch id)) signal.cause?)) := by
  obtain ⟨latch, hlatch, hsilent⟩ := Option.map_eq_some_iff.mp hs
  have hreceived := Store.getElem?_receive hlatch signal
  refine ⟨?_, ?_, ?_⟩
  · rw [Store.Stands, Store.latches_record, hreceived]
    exact congrArg some hsilent
  · rw [Store.ending?, Store.stateOf, Store.latches_record, hreceived, Store.ending?,
      Store.stateOf_eq hlatch]
    exact latch.state.ending?_receive signal
  · rw [register_record_late?, Store.register_receive]
    rfl

theorem takesEffect_latch {id : Nat} (hs : s.Stands (.latch id)) (signal : Signal) :
    (Delivery.signal (o := .latch id) signal).TakesEffect s := by
  obtain ⟨latch, hlatch, hsilent⟩ := Option.map_eq_some_iff.mp hs
  have heffect := effect_latch hs signal
  cases hheld : s.held? (.latch id) with
  | some c =>
      rw [hheld] at heffect
      exact ⟨_, _, heffect, Latch.callsOut_callAll id _ false,
        fun μ answer memory => Latch.run_deliver_held hheld signal⟩
  | none =>
      rw [hheld] at heffect
      have hnone : latch.state.cause? = none := by rwa [← Store.stateOf_eq hlatch]
      cases hstate : latch.state with
      | idle =>
          cases signal with
          | finish ending =>
              exact ⟨_, _, heffect, Latch.callsOut_callAll id _ false,
                fun μ answer memory => Latch.run_deliver_idle_finish hlatch hstate ending⟩
          | abort c =>
              exact ⟨_, _, heffect, Latch.callsOut_aborting id c,
                fun μ answer memory => Latch.run_deliver_idle_abort hlatch hstate⟩
      | succeeded =>
          have hsucceeded : s.stateOf id = .succeeded := (Store.stateOf_eq hlatch).trans hstate
          rw [Store.receive_of_succeeded hsucceeded] at heffect
          exact ⟨s, pure false, heffect, trivial,
            fun μ answer memory => Latch.run_deliver_succeeded answer memory hsucceeded signal⟩
      | _ =>
          rw [hstate] at hnone
          nomatch hnone

theorem takesEffect_gate {id : Nat} (hs : s.Stands (.gate id)) (signal : Signal) :
    (Delivery.signal (o := .gate id) signal).TakesEffect s := by
  have hgate : s.gates[id]? = some s.gates[id] := List.getElem?_eq_getElem hs
  generalize s.gates[id] = gate at hgate
  have hsettled : (s.settle id signal.asEnding).gates[id]? =
      some (gate.settle signal.asEnding) := by
    rw [Store.gates_settle hgate, List.getElem?_set_self hs]
  have hlate : gate.late? signal.asEnding = late? (s.held? (.gate id)) signal.cause? := by
    rw [Store.held?, hgate, ← signal.cause?_asEnding]
    obtain ⟨_ | _ | c⟩ := gate <;> cases signal.asEnding <;> rfl
  refine ⟨s.settle id signal.asEnding, pure (!signal.isEnding), ⟨?_, ?_, ?_⟩, trivial,
    fun μ answer memory => Sink.run_deliver_gate answer memory s id signal⟩
  · exact (List.getElem?_eq_some_iff.mp hsettled).1
  · rw [Store.ending?, hsettled, Store.ending?, hgate]
    exact gate.ending_settle signal.asEnding
  · rw [Store.settle_eq hgate, hlate, register_record_late?]
    rfl

theorem effect_fail {id : Nat} (hs : s.Stands (.body id)) {x : Delivery (.body id)} {c : Cause}
    (hx : x.cause? = some c) : x.Effect s (s.fail id c).2 := by
  have hbody : s.bodies[id]? = some s.bodies[id] := List.getElem?_eq_getElem hs
  generalize s.bodies[id] = b at hbody
  have hheld : s.held? (.body id) = b.failure := by
    rw [Store.held?, hbody, Option.bind_some]
  cases hfailure : b.failure with
  | some first =>
      have hkept : s.ending? (.body id) = some (.failure first) := by
        rw [Store.ending?_body hbody, hfailure, Option.map_some]
      rw [Store.fail_again hbody hfailure]
      refine ⟨hs, ?_, ?_⟩
      · rw [hkept]
        exact hkept
      · rw [hx, hheld, hfailure]
        rfl
  | none =>
      have hfailed := Store.getElem?_putBody hbody (b.fail c)
      rw [Store.fail_first hbody hfailure]
      refine ⟨(List.getElem?_eq_some_iff.mp hfailed).1, ?_, ?_⟩
      · rw [Store.ending?_body hfailed, Store.ending?_body hbody, hfailure,
          ending?_eq_some_failure.mpr hx]
        rfl
      · rw [hx, hheld, hfailure]
        rfl

theorem effect_acknowledge {id : Nat} (hs : s.Stands (.body id)) :
    (Delivery.signal (o := .body id) (.finish .success)).Effect s (s.acknowledge id).2 := by
  have hbody : s.bodies[id]? = some s.bodies[id] := List.getElem?_eq_getElem hs
  generalize s.bodies[id] = b at hbody
  have hacknowledge : (s.acknowledge id).2 = s.putBody id b.acknowledge.2 := by
    simp only [Store.acknowledge, hbody]
  have hacknowledged := Store.getElem?_putBody hbody b.acknowledge.2
  rw [hacknowledge]
  refine ⟨(List.getElem?_eq_some_iff.mp hacknowledged).1, ?_, ?_⟩
  · rw [Store.ending?_body hacknowledged, Store.ending?_body hbody, Body.failure_acknowledge]
    exact Option.or_none.symm
  · cases s.held? (.body id) <;> rfl

theorem takesEffect_of_access {x : Delivery o} {a : Access} (answered : a.Reply → Bool)
    (heffect : x.Effect s (s.perform a).2) (ha : a.object? = some o)
    (hcourse : x.course = .access a fun reply =>
      tellAll (a.upcalls reply) >>= fun _ => pure (answered reply)) : x.TakesEffect s := by
  refine ⟨(s.perform a).2,
    tellAll (a.upcalls (s.perform a).1) >>= fun _ => pure (answered (s.perform a).1), heffect, ?_,
    fun μ answer memory => ?_⟩
  · have htell : (tellAll (a.upcalls (s.perform a).1)).CallsOut o :=
      callsOut_tellAll fun u hu => (Access.object?_of_mem_upcalls hu).trans ha
    exact htell.bind fun _ => trivial
  · rw [hcourse]
    rfl

/-- The cursor of a body takes an abort for a failure. -/
theorem takesEffect_cursor {id : Nat} (hs : s.Stands (.body id)) (signal : Signal) :
    (Delivery.signal (o := .body id) signal).TakesEffect s := by
  have hcourse {a : Access} (haccess : (signal.atCursor id).access? = some a) :
      (Delivery.signal (o := .body id) signal).course =
        .access a fun reply => tellAll (a.upcalls reply) >>= fun _ => pure (!signal.isEnding) := by
    simp only [course, Object.sink, Sink.deliver_cursor, Call.course_eq haccess, Access.errand,
      finish, access_bind, Course.bind_assoc, Course.pure_bind]
  rcases signal with (_ | c) | c
  · exact takesEffect_of_access (a := .acknowledge id) _ (effect_acknowledge hs) rfl (hcourse rfl)
  · exact takesEffect_of_access (a := .fail id c) _ (effect_fail hs rfl) rfl (hcourse rfl)
  · exact takesEffect_of_access (a := .fail id c) _ (effect_fail hs rfl) rfl (hcourse rfl)

theorem takesEffect (x : Delivery o) (hs : s.Stands o) : x.TakesEffect s := by
  cases x with
  | fail c =>
      exact takesEffect_of_access (a := .fail _ c) Option.isSome (effect_fail hs rfl) rfl
        (Body.failing_eq _ c)
  | signal signal =>
      cases o with
      | latch id => exact takesEffect_latch hs signal
      | gate id => exact takesEffect_gate hs signal
      | body id => exact takesEffect_cursor hs signal

end Delivery

end OneShot
