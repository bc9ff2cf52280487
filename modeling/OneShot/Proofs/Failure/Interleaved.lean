import OneShot.Proofs.Failure.Late

/-!
# Late causes while calls interleave

A latch receives a late cause and has it suppressed in two accesses, and
others may come in between. But the cause that a latch holds it never loses,
so whatever is suppressed in the course of a call is still suppressed by the
holder of that moment.

In a store a cause is looked for and listed in one step. Where these are two,
another caller may list a cause in between, which the search has not seen then.
So what is said of the one list that grows is said of a caller whom no other has
disturbed in this way.
-/

namespace OneShot

open Course

/-- The mark suppresses nothing but what the duty says. -/
def Mark.Suits (duty : Latch.Duty) : Mark → Prop
  | accessed (.suppress keeper late) _ => ∃ hooks, duty = .suppress keeper (some late) hooks
  | _ => True

/-- The accesses by which a cause may come to be listed among those that another suppresses. -/
def Mark.MaySuppress : Mark → Prop
  | accessed (.suppress _ _) _ | accessed (.settle _ _) _ | accessed (.fail _ _) _ => True
  | _ => False

namespace Latch

variable {call : Call} {duty : Duty}

theorem keeps_callAll_suits (id : Nat) (hooks : List Hook) :
    (callAll id hooks).Keeps (.only (Mark.Suits duty)) call (fun _ _ => True) () := by
  induction hooks with
  | nil => trivial
  | cons hook hooks ih =>
      refine ⟨(), trivial, fun outcome => ⟨(), trivial, ?_⟩⟩
      cases outcome with
      | returned value => exact ih
      | panicked text => trivial

theorem keeps_fulfilling_suits (id : Nat) (duty : Duty) :
    (fulfilling id duty).Keeps (.only (Mark.Suits duty)) call (fun _ _ => True) () := by
  have hcallAll {duty : Duty} (hooks : List Hook) :
      (do callAll id hooks; pure false : Course Bool).Keeps (.only (Mark.Suits duty)) call
        (fun _ _ => True) () :=
    (keeps_callAll_suits id hooks).bind (fun _ _ _ => trivial) fun _ _ _ => trivial
  cases duty with
  | call hooks => exact hcallAll hooks
  | suppress keeper late hooks =>
      cases late with
      | none => exact hcallAll hooks
      | some late => exact fun _ => ⟨(), ⟨hooks, rfl⟩, hcallAll hooks⟩
  | abort cause =>
      exact keeps_only_aborting id cause (fun _ => trivial) (fun _ _ => trivial) (fun _ => trivial)
        trivial fun _ => trivial

theorem State.cause?_of_suppress {state : State} {signal : Signal} {keeper late : Cause}
    {hooks : List Hook} (h : (state.receive signal).2 = .suppress keeper (some late) hooks) :
    state.cause? = some keeper ∧ signal.cause? = some late := by
  cases hcause : state.cause? with
  | none =>
      cases state with
      | idle =>
          cases signal with
          | finish ending => cases ending <;> cases h
          | abort d => cases h
      | succeeded =>
          rw [receive_succeeded] at h
          cases h
      | _ => cases hcause
  | some c =>
      rw [State.receive_of_cause? hcause] at h
      obtain ⟨rfl, hlate, -⟩ := Duty.suppress.inj h
      exact ⟨rfl, hlate⟩

end Latch

theorem Gate.eq_of_late? {gate : Gate} {ending : Ending} {both : Cause × Cause}
    (h : gate.late? ending = some both) :
    gate.ending = some (.failure both.1) ∧ ending = .failure both.2 := by
  unfold late? at h
  split at h
  · rename_i hfirst
    cases h
    exact ⟨hfirst, rfl⟩
  · cases h

namespace Store

variable {s s' : Store} {o : Object} {late? : Option Cause}

/-- Between the stores no list changes but that of the cause held by the object, and that for the
late cause. -/
def RecordsAtMost (s : Store) (o : Object) (late? : Option Cause) (s' : Store) : Prop :=
  (∀ c, s'.register.suppressed c = s.register.suppressed c) ∨
    ∃ keeper late, s.held? o = some keeper ∧ late? = some late ∧
      s.register.Records keeper late s'.register

theorem recordsAtMost_of_eq (h : s'.register = s.register) : s.RecordsAtMost o late? s' :=
  .inl fun c => congrArg (·.suppressed c) h

theorem recordsAtMost_perform (h : ∀ o c, s.held? o = some c → c ∈ s.register.causes)
    {a : Access} (ha : a.object? = some o) : s.RecordsAtMost o a.brought? (s.perform a).2 := by
  cases a with
  | suppress keeper late => cases ha
  | receive id signal => exact recordsAtMost_of_eq (register_receive s id signal)
  | publish id | next id | acknowledge id | listen id listener =>
      apply recordsAtMost_of_eq
      simp only [perform, publish, next, acknowledge, listen]
      split <;> rfl
  | close id =>
      apply recordsAtMost_of_eq
      simp only [perform, close]
      split
      · rfl
      · split <;> rfl
  | offer id chunk =>
      left
      intro c
      simp only [perform, offer]
      split
      · rfl
      · split
        · rfl
        · split
          · rfl
          · exact Register.suppressed_create s.register _ c
  | settle id ending =>
      cases ha
      cases hgate : s.gates[id]? with
      | none =>
          apply recordsAtMost_of_eq
          simp only [perform, settle, hgate]
      | some gate =>
          cases hlate : gate.late? ending with
          | none =>
              apply recordsAtMost_of_eq
              simp only [perform, settle, hgate, hlate]
          | some both =>
              obtain ⟨hfirst, rfl⟩ := Gate.eq_of_late? hlate
              have hheld : s.held? (.gate id) = some both.1 := by
                rw [held?, hgate, Option.bind_some, hfirst]
                rfl
              refine .inr ⟨both.1, both.2, hheld, rfl, ?_⟩
              rw [perform, register_settle_late hgate hfirst]
              exact Register.records_suppress (h _ _ hheld) both.2
  | fail id cause =>
      cases ha
      cases hb : s.bodies[id]? with
      | none =>
          apply recordsAtMost_of_eq
          simp only [perform, fail, hb]
      | some b =>
          cases hfailure : b.failure with
          | none =>
              apply recordsAtMost_of_eq
              rw [perform, fail_first hb hfailure]
              rfl
          | some first =>
              right
              have hheld : s.held? (.body id) = some first := by
                rw [held?, hb]
                exact hfailure
              refine ⟨first, cause, hheld, rfl, ?_⟩
              rw [perform, fail_again hb hfailure]
              exact Register.records_suppress (h _ _ hheld) cause

end Store

namespace World

open Latch

variable {w : World} {caller : Nat} {call : Call} {rest : List Frame}

/-- A latch is only made to suppress what comes to the cause it holds. -/
theorem Reachable.held_of_suppress (h : w.Reachable) {id : Nat} {signal : Signal}
    {keeper late : Cause} {next : Unit → Course Response}
    (hframes : w.frames caller =
      ⟨.signal id signal, .working (.access (.suppress keeper late) next)⟩ :: rest) :
    (w.store.stateOf id).cause? = some keeper ∧ signal.cause? = some late := by
  obtain ⟨marks, -, -, hfollows, -⟩ := h.followed.exists_of_cons hframes
  have hleads := hfollows.leads
  rw [course_signal] at hleads
  -- The course begins with the receiving, which has been seen before the suppressing.
  generalize hseen : marks.map Prod.snd = seen at hleads
  generalize hstage : Stage.working (.access (.suppress keeper late) next) = stage at hleads
  cases hleads with
  | start => cases hstage
  | @access _ _ duty seen _ hrest =>
      obtain ⟨⟨before, mark⟩, marks, rfl, rfl, -⟩ := List.map_eq_cons_iff.mp hseen
      have hreceive := hfollows.dated _ List.mem_cons_self
      subst hstage
      have hkeeps : (do return .truth (← fulfilling id duty) : Course Response).Keeps
          (.only (Mark.Suits duty)) (.signal id signal) (fun _ _ => True) () :=
        (keeps_fulfilling_suits id duty).bind (fun _ _ _ => trivial) fun _ _ _ => trivial
      obtain ⟨hooks, hduty⟩ := (hrest.concat_accessed ()).forall_of_only hkeeps _
        (List.mem_append_right _ List.mem_cons_self)
      rw [h.duty_eq hreceive] at hduty
      obtain ⟨hkeeper, hlate⟩ := State.cause?_of_suppress hduty
      have hearlier : before <+: w.log := (List.prefix_append _ _).trans (mem_dated_iff.mp hreceive)
      rw [h.stateOf_eq]
      exact ⟨(State.advances_ofLog id hearlier).cause keeper hkeeper, hlate⟩

theorem Reachable.signal_of_suppress (h : w.Reachable) {keeper late : Cause}
    {next : Unit → Course Response} {o : Object}
    (hframes : w.frames caller =
      ⟨call, .working (.access (.suppress keeper late) next)⟩ :: rest)
    (hobject : call.object? = some o) : ∃ id signal, call = .signal id signal := by
  cases call with
  | signal id signal => exact ⟨id, signal, rfl⟩
  | settle id ending => cases h.eq_settle_of_access hframes
  | suppress keeper late => cases hobject
  | _ => cases (h.eq_errand_of_access hframes rfl).1

/-- A call about an object changes no list, or has the cause held there suppress the one that the
call delivers. -/
theorem Reachable.recordsAtMost_of_access (h : w.Reachable) {a : Access}
    {next : a.Reply → Course Response} {o : Object}
    (hframes : w.frames caller = ⟨call, .working (.access a next)⟩ :: rest)
    (hobject : call.object? = some o) :
    w.store.RecordsAtMost o call.delivered? (w.store.perform a).2 := by
  cases ha : a.object? with
  | some other =>
      obtain rfl : o = other :=
        Option.some.inj (hobject.symm.trans (h.object?_of_access hframes ha))
      rcases Store.recordsAtMost_perform (fun _ _ => h.held_mem_causes) ha with
        hsame | ⟨keeper, late, hheld, hbrought, hrecords⟩
      · exact .inl hsame
      · exact .inr ⟨keeper, late, hheld, h.delivered_of_brought hframes hbrought, hrecords⟩
  | none =>
      cases a with
      | suppress keeper late =>
          obtain ⟨id, signal, rfl⟩ := h.signal_of_suppress hframes hobject
          obtain ⟨hkeeper, hlate⟩ := h.held_of_suppress hframes
          cases hobject
          exact .inr ⟨keeper, late, hkeeper, hlate,
            Register.records_suppress (h.held_mem_causes (o := .latch id) hkeeper) late⟩
      | _ => cases ha

theorem Reachable.exists_suppress_of_late (h : w.Reachable) {id : Nat} {signal : Signal}
    {c d : Cause}
    (hframes : w.frames caller =
      ⟨.signal id signal, .working (Call.signal id signal).course⟩ :: rest)
    (hheld : w.store.held? (.latch id) = some c) (hd : signal.cause? = some d) :
    ∃ next, (w.step (.advance caller)).frames caller =
      ⟨.signal id signal, .working (.access (.suppress c d) next)⟩ :: rest := by
  rw [course_signal] at hframes
  have hduty := (Store.perform_receive (h.lt_of_access hframes rfl) signal).1
  rw [State.receive_of_cause? hheld, hd] at hduty
  refine ⟨fun _ => do
    callAll id ((w.store.stateOf id).closing signal)
    return .truth false, ?_⟩
  simp only [step, hframes, put, Function.update_self, hduty, fulfilling, suppressing, bind_assoc,
    pure_bind]
  rfl

/-- Since the caller was last seen, nobody else has made an access that may list a cause. -/
def Undisturbed (w : World) (caller : Nat) : Prop :=
  ∃ past mark since, w.log = past ++ (caller, mark) :: since ∧
    ∀ entry ∈ since, ¬ entry.2.MaySuppress

/-- What becomes of late causes while the calls interleave. -/
structure RecordsLate (w : World) : Prop where
  /-- An access made by a call about an object changes no list, or has the cause held there suppress
  the one that the call delivers, if the caller is undisturbed. -/
  only : ∀ caller call a next rest o, w.Undisturbed caller →
    w.frames caller = ⟨call, .working (.access a next)⟩ :: rest → call.object? = some o →
      w.store.RecordsAtMost o call.delivered? (w.store.perform a).2
  /-- A signal that is late at its latch goes on to have its cause suppressed. -/
  next : ∀ caller id signal rest c d,
    w.frames caller = ⟨.signal id signal, .working (Call.signal id signal).course⟩ :: rest →
      w.store.held? (.latch id) = some c → signal.cause? = some d →
        ∃ next, (w.step (.advance caller)).frames caller =
          ⟨.signal id signal, .working (.access (.suppress c d) next)⟩ :: rest

end World

namespace Store

/-- At every moment of a run each holder has the cause it holds suppress a late one, as the rule of
association says, before anything else follows. So it is too when other calls come in between. -/
theorem late_causes_suppressed (moves : List Move) :
    (World.after moves).store.SuppressesLate ∧ (World.after moves).RecordsLate := by
  have hreachable := World.reachable_after moves
  refine ⟨suppressesLate_of_held fun _ _ => hreachable.held_mem_causes, ?_, ?_⟩
  · intro caller call a next rest o _
    exact hreachable.recordsAtMost_of_access
  · intro caller id signal rest c d
    exact hreachable.exists_suppress_of_late

end Store

end OneShot
