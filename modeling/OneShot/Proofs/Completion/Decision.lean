import OneShot.Proofs.Completion.Timeline

/-!
# The decision for an abort

A latch takes one abort at most, and only while it is idle. The call that
brought it goes through the abort hooks; every other abort call comes to its
end without calling out, and its answer is no. So whatever a latch first
decides is final, however the calls interleave.
-/

namespace OneShot

open Course

/-! ## Courses without upcalls -/

namespace Course

variable {α β : Type}

/-- Whatever it is replied, the course makes no upcall and ends with the value. -/
def Returns (value : α) : Course α → Prop
  | done outcome => outcome = .returned value
  | access _ next => ∀ reply, (next reply).Returns value
  | upcall _ _ => False

theorem Returns.bind {course : Course α} {value : α} (h : course.Returns value)
    {f : α → Course β} {value' : β} (hf : (f value).Returns value') :
    (course >>= f).Returns value' := by
  induction course with
  | done outcome =>
      obtain rfl : outcome = .returned value := h
      exact hf
  | access a next ih => exact fun reply => ih reply (h reply)
  | upcall u next ih => exact h.elim

theorem Returns.of_leads {course : Course Response} {value : Response} (h : course.Returns value)
    {marks : List Mark} {outcome : Outcome Response}
    (hleads : course.Leads marks (.working (.done outcome))) : outcome = .returned value := by
  generalize hstage : Stage.working (.done outcome) = stage at hleads
  induction hleads with
  | start course =>
      obtain rfl := Stage.working.inj hstage
      exact h
  | access _ ih => exact ih (h _) hstage
  | waiting u next => nomatch hstage
  | upcall _ _ => exact h.elim

end Course

namespace Latch

/-! ## The answer to an abort -/

/-- What a call does once its signal has been received. -/
def fulfilling (id : Nat) : Duty → Course Bool
  | .call hooks => do
      callAll id hooks
      pure false
  | .suppress keeper late hooks => do
      suppressing keeper late
      callAll id hooks
      pure false
  | .abort cause => aborting id cause

theorem deliver_eq (id : Nat) (s : Signal) :
    deliver id s = access (.receive id s) (fulfilling id) := by
  apply congrArg (access (.receive id s))
  funext duty
  cases duty <;> rfl

theorem course_signal (id : Nat) (s : Signal) :
    (Call.signal id s).course =
      access (.receive id s) fun duty => do return .truth (← fulfilling id duty) := by
  rw [Call.course, deliver_eq, access_bind]

/-- A latch that is not idle turns an abort down. -/
theorem returns_fulfilling {state : State} (h : state ≠ .idle) (id : Nat) (d : Cause) :
    (fulfilling id (state.receive (.abort d)).2).Returns false := by
  cases state with
  | idle => exact absurd rfl h
  | succeeded => exact rfl
  | _ => exact fun _ => rfl

theorem returns_declining {state : State} (h : state ≠ .idle) (id : Nat) (d : Cause) :
    (do return .truth (← fulfilling id (state.receive (.abort d)).2) : Course Response).Returns
      (.truth false) :=
  (returns_fulfilling h id d).bind rfl

/-- To abort is to call hooks and to publish once. The answer is yes if no hook panics. -/
theorem keeps_only_aborting {P : Mark → Prop} {Q : Outcome Bool → Unit → Prop} {call : Call}
    (id : Nat) (cause : Cause) (hstarted : ∀ hook, P (.started (.hook id hook)))
    (hended : ∀ hook outcome, P (.ended (.hook id hook) outcome))
    (hpublish : ∀ completing, P (.accessed (.publish id) completing))
    (hreturned : Q (.returned true) ()) (hpanicked : ∀ text, Q (.panicked text) ()) :
    (aborting id cause).Keeps (.only P) call Q () := by
  have hdone (first second : Outcome Unit) :
      (do
        done (first.and second)
        pure true : Course Bool).Keeps (.only P) call Q () := by
    cases first with
    | returned value =>
        cases second with
        | returned value => exact hreturned
        | panicked text => exact hpanicked text
    | panicked text => exact hpanicked text
  refine ⟨(), hstarted _, fun first => ⟨(), hended _ first, (), hstarted _, fun second =>
    ⟨(), hended _ second, fun completing => ⟨(), hpublish completing, ?_⟩⟩⟩⟩
  cases completing with
  | false => exact hdone first second
  | true =>
      refine ⟨(), hstarted _, fun third => ⟨(), hended _ third, ?_⟩⟩
      cases third with
      | returned value => exact hdone first second
      | panicked text => exact hpanicked text

/-- The answer is yes, or there is none because a hook has panicked. -/
def Affirms (outcome : Outcome Response) : Prop :=
  outcome = .returned (.truth true) ∨ ∃ text, outcome = .panicked text

theorem keeps_aborting_affirms (id : Nat) (cause : Cause) (call : Call) :
    (do return .truth (← aborting id cause) : Course Response).Keeps (.only fun _ => True) call
      (fun outcome _ => Affirms outcome) () := by
  have haborting : (aborting id cause).Keeps (.only fun _ => True) call
      (fun outcome _ => outcome = .returned true ∨ ∃ text, outcome = .panicked text) () :=
    keeps_only_aborting id cause (fun _ => trivial) (fun _ _ => trivial) (fun _ => trivial)
      (.inl rfl) fun text => .inr ⟨text, rfl⟩
  apply haborting.bind
  · intro value _ houtcome
    rcases houtcome with hyes | ⟨text, hpanicked⟩
    · cases hyes
      exact .inl rfl
    · cases hpanicked
  · intro text _ _
    exact .inr ⟨text, rfl⟩

theorem State.receive_abort {state : State} (h : state ≠ .idle) (d : Cause) :
    (state.receive (.abort d)).1 = state := by
  cases state with
  | idle => exact absurd rfl h
  | _ => rfl

/-! ## The one abort that is taken -/

/-- A moment at which a latch that held no cause receives an abort and holds its cause then. -/
def Takes (id : Nat) (moment : Log × Nat × Mark) : Prop :=
  ∃ d duty, moment.2.2 = .accessed (.receive id (.abort d)) duty ∧
    (State.ofLog id moment.1).cause? = none ∧
      (State.ofLog id (moment.1 ++ [moment.2])).cause? = some d

variable {id : Nat} {log : Log}

theorem takes_iff {past : Log} {caller : Nat} {d : Cause} {duty : Duty} :
    Takes id (past, caller, .accessed (.receive id (.abort d)) duty) ↔
      State.ofLog id past = .idle := by
  constructor
  · rintro ⟨d', duty', -, hnone, hsome⟩
    by_contra hbusy
    rw [State.ofLog_concat, State.mark_receive, State.receive_abort hbusy] at hsome
    exact nomatch hnone.symm.trans hsome
  · intro hidle
    refine ⟨d, duty, rfl, ?_, ?_⟩
    · rw [hidle]
      rfl
    · rw [State.ofLog_concat, State.mark_receive, hidle]
      rfl

theorem Takes.idle {moment : Log × Nat × Mark} (h : Takes id moment) :
    State.ofLog id moment.1 = .idle := by
  obtain ⟨past, caller, mark⟩ := moment
  have htakes := h
  obtain ⟨d, duty, rfl, -⟩ := h
  exact takes_iff.mp htakes

/-- A latch that has taken an abort is never idle again. -/
theorem Takes.not_prefix {moment moment' : Log × Nat × Mark} (h : Takes id moment)
    (h' : Takes id moment') : ¬ moment.1 ++ [moment.2] <+: moment'.1 := by
  intro hearlier
  obtain ⟨d, duty, -, -, hsome⟩ := h
  have hcause : (State.ofLog id (moment.1 ++ [moment.2])).cause? ≠ none := by
    rw [hsome]
    exact Option.some_ne_none d
  exact (State.advances_ofLog id hearlier).ne_idle hcause h'.idle

theorem takes_once {moment moment' : Log × Nat × Mark} (hmem : moment ∈ dated log)
    (hmem' : moment' ∈ dated log) (h : Takes id moment) (h' : Takes id moment') :
    moment = moment' :=
  eq_of_mem_dated (fun _ _ h h' => h.not_prefix h') hmem hmem' h h'

end Latch

/-! ## Abort calls -/

/-- How an abort call went that has been left: first of all its signal was received. -/
inductive Passage.Aborts (id caller : Nat) (d : Cause) : Passage → Outcome Response → Prop
  | taken {before duty marks outcome}
      (htakes : Latch.Takes id (before, caller, .accessed (.receive id (.abort d)) duty))
      (houtcome : Latch.Affirms outcome) :
      Aborts id caller d
        ⟨.signal id (.abort d), (before, .accessed (.receive id (.abort d)) duty) :: marks⟩ outcome
  | declined {before duty marks}
      (hdeclines : ¬ Latch.Takes id (before, caller, .accessed (.receive id (.abort d)) duty)) :
      Aborts id caller d
        ⟨.signal id (.abort d), (before, .accessed (.receive id (.abort d)) duty) :: marks⟩
        (.returned (.truth false))

namespace World

open Latch

variable {w : World} {id caller : Nat} {d : Cause} {past : Log}

/-- A call that brings a signal has it received first of all. -/
theorem Reachable.exists_receive_of_left (h : w.Reachable) {signal : Signal}
    {outcome : Outcome Response}
    (hleft : (past, caller, Mark.left (.signal id signal) outcome) ∈ dated w.log) :
    ∃ before duty told others,
      passages caller past =
        ⟨.signal id signal, (before, .accessed (.receive id signal) duty) :: told⟩ :: others ∧
      (do return .truth (← fulfilling id duty) : Course Response).Leads (told.map Prod.snd)
        (.working (.done outcome)) ∧
      ∀ m ∈ (before, Mark.accessed (.receive id signal) duty) :: told,
        (m.1, caller, m.2) ∈ dated w.log := by
  obtain ⟨marks, others, hpassages, hleads, hdated, hsub⟩ := h.exists_passage_of_left hleft
  rw [course_signal] at hleads
  -- The course begins with the receiving, which therefore has been seen.
  generalize hseen : marks.map Prod.snd = seen at hleads
  generalize hstage : Stage.working (.done outcome) = stage at hleads
  cases hleads with
  | start => nomatch hstage
  | @access _ _ duty _ _ hrest =>
      obtain ⟨⟨before, mark⟩, told, rfl, rfl, rfl⟩ := List.map_eq_cons_iff.mp hseen
      subst hstage
      exact ⟨before, duty, told, others, hpassages, hrest, fun m hm => hsub (hdated m hm)⟩

theorem Reachable.aborts (h : w.Reachable) {outcome : Outcome Response}
    (hleft : (past, caller, Mark.left (.signal id (.abort d)) outcome) ∈ dated w.log) :
    ∃ p others, passages caller past = p :: others ∧ p.Aborts id caller d outcome ∧
      ∀ m ∈ p.marks, (m.1, caller, m.2) ∈ dated w.log := by
  obtain ⟨before, duty, told, others, hpassages, hleads, hdated⟩ := h.exists_receive_of_left hleft
  refine ⟨_, others, hpassages, ?_, hdated⟩
  have hduty := h.duty_eq (hdated _ List.mem_cons_self)
  by_cases hidle : State.ofLog id before = .idle
  · apply Passage.Aborts.taken (takes_iff.mpr hidle)
    rw [hduty, hidle] at hleads
    exact hleads.outcome_of_keeps (keeps_aborting_affirms id d (.signal id (.abort d)))
  · rw [hduty] at hleads
    rw [(returns_declining hidle id d).of_leads hleads]
    exact .declined (takes_iff.not.mpr hidle)

end World

namespace Latch

/-- What the log of a run tells of the aborts of a latch. -/
structure AbortsOnce (id : Nat) (log : Log) : Prop where
  /-- A latch that takes an abort was idle. -/
  idle : ∀ moment ∈ dated log, Takes id moment → State.ofLog id moment.1 = .idle
  taken_once : ∀ moment ∈ dated log, ∀ moment' ∈ dated log,
    Takes id moment → Takes id moment' → moment = moment'
  answered : ∀ past caller d outcome,
    (past, caller, .left (.signal id (.abort d)) outcome) ∈ dated log →
      ∃ p others, passages caller past = p :: others ∧ p.Aborts id caller d outcome
  /-- No two abort calls are answered yes. -/
  answered_once : ∀ past caller d past' caller' d',
    (past, caller, .left (.signal id (.abort d)) (.returned (.truth true))) ∈ dated log →
      (past', caller', .left (.signal id (.abort d')) (.returned (.truth true))) ∈ dated log →
        past = past' ∧ caller = caller' ∧ d = d'

theorem abortsOnce_of_reachable {w : World} (h : w.Reachable) (id : Nat) :
    AbortsOnce id w.log := by
  refine ⟨fun moment _ htakes => htakes.idle,
    fun moment hmem moment' hmem' => takes_once hmem hmem', ?_, ?_⟩
  · intro past caller d outcome hleft
    obtain ⟨p, others, hpassages, haborts, -⟩ := h.aborts hleft
    exact ⟨p, others, hpassages, haborts⟩
  · intro past caller d past' caller' d' hleft hleft'
    obtain ⟨p, others, hpassages, haborts, hseen⟩ := h.aborts hleft
    obtain ⟨p', others', hpassages', haborts', hseen'⟩ := h.aborts hleft'
    cases haborts with
    | taken htakes houtcome =>
        cases haborts' with
        | taken htakes' houtcome' =>
            have hreceive := hseen _ List.mem_cons_self
            have hreceive' := hseen' _ List.mem_cons_self
            have hsame := takes_once hreceive hreceive' htakes htakes'
            simp only [Prod.mk.injEq, Mark.accessed.injEq, Access.receive.injEq,
              Signal.abort.injEq] at hsame
            obtain ⟨rfl, rfl, ⟨-, rfl⟩, hduty⟩ := hsame
            cases hduty
            have honce := left_once hleft hleft' hpassages hpassages' List.mem_cons_self
              List.mem_cons_self
            exact ⟨congrArg Prod.fst honce, rfl, rfl⟩

/-- An abort call that comes to a latch that is not idle is through with it after one access. -/
theorem exists_returns_of_busy {w : World} {id caller : Nat} {d : Cause} {rest : List Frame}
    (h : w.Reachable)
    (hframes : w.frames caller =
      ⟨.signal id (.abort d), .working (Call.signal id (.abort d)).course⟩ :: rest)
    (hbusy : w.store.stateOf id ≠ .idle) :
    ∃ course, (w.step (.advance caller)).frames caller =
        ⟨.signal id (.abort d), .working course⟩ :: rest ∧ course.Returns (.truth false) := by
  rw [course_signal] at hframes
  have hreply := (Store.perform_receive (h.lt_of_access hframes rfl) (.abort d)).1
  refine ⟨_, ?_, returns_declining hbusy id d⟩
  simp only [World.step, hframes, World.put, Function.update_self, hreply]

/-- In every run the state of a latch only goes on, keeps the cause it holds, does not succeed once
it holds one, and is final once the latch is complete. At most one abort is taken and at most one
abort call answered yes; a latch that is not idle lets an abort call go on only to the answer no. -/
theorem first_decision_final (moves : List Move) (id : Nat) :
    (∀ more,
      ((World.after moves).store.stateOf id).Advances
          ((World.after (moves ++ more)).store.stateOf id) ∧
        (((World.after moves).store.stateOf id).cause? ≠ none →
          (World.after (moves ++ more)).store.stateOf id ≠ .succeeded)) ∧
      ¬ (((World.after moves).store.stateOf id).isAborted = true ∧
        ((World.after moves).store.stateOf id).isCompleted = true) ∧
        AbortsOnce id (World.after moves).log ∧
          ∀ caller d rest,
            (World.after moves).frames caller =
                ⟨.signal id (.abort d), .working (Call.signal id (.abort d)).course⟩ :: rest →
              (World.after moves).store.stateOf id ≠ .idle →
                ∃ course, (World.after (moves ++ [.advance caller])).frames caller =
                    ⟨.signal id (.abort d), .working course⟩ :: rest ∧
                  course.Returns (.truth false) := by
  have hreachable := World.reachable_after moves
  refine ⟨?_, State.not_isAborted_of_isCompleted _, abortsOnce_of_reachable hreachable id, ?_⟩
  · intro more
    have hadvances : ((World.after moves).store.stateOf id).Advances
        ((World.after (moves ++ more)).store.stateOf id) := by
      rw [hreachable.stateOf_eq, (World.reachable_after (moves ++ more)).stateOf_eq]
      exact State.advances_ofLog id (World.log_prefix_after moves more)
    exact ⟨hadvances, hadvances.ne_succeeded⟩
  · intro caller d rest hframes hbusy
    rw [World.after_concat]
    exact exists_returns_of_busy hreachable hframes hbusy

end Latch

end OneShot
