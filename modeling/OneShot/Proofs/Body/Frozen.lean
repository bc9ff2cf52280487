import OneShot.Deadline
import OneShot.Proofs.Body.Failing
import OneShot.Proofs.Calls.Growth

/-!
# Bodies that have failed

The first failure of a body is stored, be it sent by the producer or to the
cursor. A body stores one failure at most, and from then on it stays as that
failure left it. Whoever makes a call about it after that, be it from inside the
very upcalls that tell of the failure, is turned down.
-/

namespace OneShot

open Course

/-! ## The one failure that is stored -/

namespace Ledger

variable {id : Nat} {c : Cause}

theorem failure_ofLog {past log : Log} (h : past <+: log)
    (hfailure : (ofLog id past).failure = some c) : (ofLog id log).failure = some c := by
  obtain ⟨more, rfl⟩ := h
  rw [ofLog, List.foldl_append]
  refine List.foldlRecOn (motive := fun l : Ledger => l.failure = some c) more _ hfailure ?_
  intro l hl entry _
  have hne : l.failure ≠ none := hl ▸ Option.some_ne_none c
  exact (failure_mark id hne).trans hl

end Ledger

namespace Body

/-- A moment at which a body that has not failed receives a failure and holds its cause then. -/
def Stores (id : Nat) (moment : Log × Nat × Mark) : Prop :=
  ∃ cause reply, moment.2.2 = .accessed (.fail id cause) reply ∧
    (Ledger.ofLog id moment.1).failure = none ∧
      (Ledger.ofLog id (moment.1 ++ [moment.2])).failure = some cause

variable {id : Nat} {log : Log}

theorem stores_iff {past : Log} {caller : Nat} {cause : Cause}
    {reply : (Access.fail id cause).Reply} :
    Stores id (past, caller, .accessed (.fail id cause) reply) ↔
      (Ledger.ofLog id past).failure = none := by
  constructor
  · rintro ⟨-, -, -, hnone, -⟩
    exact hnone
  · intro hnone
    refine ⟨cause, reply, rfl, hnone, ?_⟩
    simp only [Ledger.ofLog_concat, Ledger.mark, Access.object?, Ledger.after, hnone, if_pos]

/-- A body that has stored a failure is never again without one. -/
theorem Stores.not_prefix {moment moment' : Log × Nat × Mark} (h : Stores id moment)
    (h' : Stores id moment') : ¬ moment.1 ++ [moment.2] <+: moment'.1 := by
  intro hearlier
  obtain ⟨cause, -, -, -, hsome⟩ := h
  obtain ⟨-, -, -, hnone, -⟩ := h'
  exact nomatch hnone.symm.trans (Ledger.failure_ofLog hearlier hsome)

theorem stores_once {moment moment' : Log × Nat × Mark} (hmem : moment ∈ dated log)
    (hmem' : moment' ∈ dated log) (h : Stores id moment) (h' : Stores id moment') :
    moment = moment' :=
  eq_of_mem_dated (fun _ _ h h' => h.not_prefix h') hmem hmem' h h'

end Body

/-! ## Calls that are turned down -/

/-- How a call about a body goes on if the access finds that the body has failed. -/
def Call.refused (c : Cause) : Call → Course Response
  | .offer id chunk => do
      Course.call (.chunk id chunk.sink (.failure c))
      return .truth false
  | .next _ => return .octets (.error (.failed c))
  | .fail _ _ => return .truth false
  | _ => return .nothing

theorem Ledger.Serves.finish_eq_refused {l : Ledger} {a : Access} {us : List Upcall}
    {response : Response} (h : l.Serves a us response) {call : Call}
    (haccess : call.access? = some a) {c : Cause} (hfailure : l.failure = some c) :
    finish us response = call.refused c := by
  have hclosed : l.isOpen ≠ true := by
    intro hopen
    exact nomatch (failure_of_isOpen hopen).symm.trans hfailure
  have hfailed : l.failure ≠ none := hfailure ▸ Option.some_ne_none c
  cases call with
  | offer id chunk =>
      cases haccess
      cases h with
      | accepted hopen => exact absurd hopen hclosed
      | rejected hopen hcause =>
          rw [hcause c hfailure]
          exact finish_cons _ [] (.truth false)
  | next id =>
      cases haccess
      cases h with
      | next =>
          have hanswer : l.next = .error (.failed c) := by rw [Ledger.next, hfailure]
          rw [hanswer]
          rfl
  | acknowledge id =>
      cases haccess
      cases h with
      | acknowledged hnone => exact absurd hnone hfailed
      | ignored => rfl
  | close id =>
      cases haccess
      cases h with
      | closed hopen => exact absurd hopen hclosed
      | closedBefore => rfl
  | fail id cause =>
      cases haccess
      cases h with
      | failed hnone => exact absurd hnone hfailed
      | failedBefore => rfl
  | listen id listener =>
      cases haccess
      cases h with
      | listened => rfl
  | _ => cases haccess

/-- What a body is like once it has failed. -/
structure Body.Frozen (c : Cause) (b : Body) : Prop where
  failure_eq : b.failure = some c
  closed_eq : b.closed = true
  queued_eq : b.queued = []
  inFlight_eq : b.inFlight = []
  outstanding_eq : b.outstanding = 0
  flush_eq : b.flush? = some (.error (.failed c))
  /-- The deadline is reckoned before the failure is looked at, and the clock may not get there. -/
  flushWithin_eq : ∀ now limit, (now.after? limit).isSome = true →
    b.flushWithin now limit = .returned (.error (.failed c))

theorem Ledger.Agrees.frozen {l : Ledger} {b : Body} (h : l.Agrees b) {c : Cause}
    (hfailure : l.failure = some c) : b.Frozen c := by
  obtain ⟨hflight, hqueued⟩ := h.emptied (hfailure ▸ Option.some_ne_none c)
  have hbody : b.failure = some c := h.failure_eq.trans hfailure
  have hflush : b.flush? = some (.error (.failed c)) := by rw [Body.flush?, hbody]
  refine ⟨hbody, ?_, hqueued, hflight, ?_, hflush, ?_⟩
  · rw [h.closed_eq, hfailure]
    exact Bool.or_true _
  · rw [h.outstanding_eq, hqueued, hflight]
    rfl
  · intro now limit hclock
    rw [Body.flushWithin, hflush]
    exact Instant.await_of_after? hclock _

namespace World

variable {w : World} {id caller : Nat} {call : Call} {c : Cause}

theorem Reachable.exists_frozen (h : w.Reachable)
    (hfailure : (Ledger.ofLog id w.log).failure = some c) :
    ∃ b, w.store.bodies[id]? = some b ∧ b.Frozen c := by
  have hkept := h.kept id
  cases hb : w.store.bodies[id]? with
  | none =>
      rw [hkept.blank hb] at hfailure
      nomatch hfailure
  | some b => exact ⟨b, rfl, (hkept.agrees b hb).frozen hfailure⟩

theorem Reachable.step_eq_refused (h : w.Reachable) {rest : List Frame}
    (hframes : w.frames caller = ⟨call, .working call.course⟩ :: rest)
    (hobject : call.object? = some (.body id))
    (hfailure : (Ledger.ofLog id w.log).failure = some c) :
    (w.step (.advance caller)).frames caller = ⟨call, .working (call.refused c)⟩ :: rest := by
  obtain ⟨a, haccess⟩ := Call.exists_access hobject
  rw [Call.course_eq haccess, Access.errand] at hframes
  have hserves := h.serves_of_frame hframes ((Call.object?_of_access? haccess).trans hobject)
  simp only [step, hframes, put, Function.update_self, hserves.finish_eq_refused haccess hfailure]

/-- Whoever is about to fail a body that has not failed stores the cause there. -/
def StoresFirst (w : World) (id : Nat) : Prop :=
  ∀ caller cause rest b,
    w.frames caller = ⟨.fail id cause, .working (Call.fail id cause).course⟩ :: rest →
      w.store.bodies[id]? = some b → b.failure = none →
        (w.step (.advance caller)).store.bodies[id]? = some (b.fail cause)

theorem storesFirst (w : World) (id : Nat) : w.StoresFirst id := by
  intro caller cause rest b hframes hb hfailure
  rw [Call.course_eq rfl, Access.errand] at hframes
  simp only [step, hframes, put, Store.perform, Store.fail_first hb hfailure]
  exact Store.getElem?_putBody hb _

/-- A call about a body that has been left began with its access. If the body had failed by then,
nothing is seen of the call after that but how it was turned down. -/
theorem Reachable.exists_refused_of_left (h : w.Reachable) {past : Log} {outcome : Outcome Response}
    (hleft : (past, caller, Mark.left call outcome) ∈ dated w.log)
    (hobject : call.object? = some (.body id)) :
    ∃ a before reply told others,
      passages caller past = ⟨call, (before, .accessed a reply) :: told⟩ :: others ∧
        call.access? = some a ∧ (before, caller, Mark.accessed a reply) ∈ dated w.log ∧
          ∀ c, (Ledger.ofLog id before).failure = some c →
            (call.refused c).Leads (told.map Prod.snd) (.working (.done outcome)) := by
  obtain ⟨marks, others, hpassages, hleads, hdated, hsub⟩ := h.exists_passage_of_left hleft
  obtain ⟨a, haccess, ⟨-, hfresh⟩ | ⟨before, reply, told, rfl, hfinish⟩⟩ :=
    Call.leads_errand hobject hleads
  · cases hfresh
  · have hmem := hsub (hdated _ List.mem_cons_self)
    have hserves := h.serves hmem ((Call.object?_of_access? haccess).trans hobject)
    refine ⟨a, before, reply, told, others, hpassages, haccess, hmem, ?_⟩
    intro c hfailure
    rwa [← hserves.finish_eq_refused haccess hfailure]

end World

namespace Body

/-- What the log of a run tells of the calls that fail a body. -/
structure FailsOnce (id : Nat) (log : Log) : Prop where
  stored_once : ∀ moment ∈ dated log, ∀ moment' ∈ dated log,
    Stores id moment → Stores id moment' → moment = moment'
  /-- A call that is answered yes has stored its cause. -/
  stored_of_answered : ∀ past caller cause,
    (past, caller, .left (.fail id cause) (.returned (.truth true))) ∈ dated log →
      ∃ before reply told others,
        passages caller past =
          ⟨.fail id cause, (before, .accessed (.fail id cause) reply) :: told⟩ :: others ∧
        (before, caller, .accessed (.fail id cause) reply) ∈ dated log ∧
          Stores id (before, caller, .accessed (.fail id cause) reply)
  /-- No two calls are answered yes. -/
  answered_once : ∀ past caller cause past' caller' cause',
    (past, caller, .left (.fail id cause) (.returned (.truth true))) ∈ dated log →
      (past', caller', .left (.fail id cause') (.returned (.truth true))) ∈ dated log →
        past = past' ∧ caller = caller' ∧ cause = cause'

theorem exists_stores_of_answered {w : World} (h : w.Reachable) {id caller : Nat} {past : Log}
    {cause : Cause}
    (hleft : (past, caller, Mark.left (.fail id cause) (.returned (.truth true))) ∈ dated w.log) :
    ∃ before reply told others,
      passages caller past =
        ⟨.fail id cause, (before, .accessed (.fail id cause) reply) :: told⟩ :: others ∧
      (before, caller, Mark.accessed (.fail id cause) reply) ∈ dated w.log ∧
        Stores id (before, caller, .accessed (.fail id cause) reply) := by
  obtain ⟨a, before, reply, told, others, hpassages, haccess, hmem, hrefused⟩ :=
    h.exists_refused_of_left hleft rfl
  cases haccess
  refine ⟨before, reply, told, others, hpassages, hmem, stores_iff.mpr ?_⟩
  cases hfailure : (Ledger.ofLog id before).failure with
  | none => rfl
  | some c =>
      -- A call that is turned down is answered no.
      have hno := hrefused c hfailure
      generalize told.map Prod.snd = marks at hno
      nomatch hno

theorem failsOnce_of_reachable {w : World} (h : w.Reachable) (id : Nat) : FailsOnce id w.log := by
  refine ⟨fun moment hmem moment' hmem' => stores_once hmem hmem',
    fun past caller cause => exists_stores_of_answered h, ?_⟩
  intro past caller cause past' caller' cause' hleft hleft'
  obtain ⟨before, reply, told, others, hpassages, hmem, hstores⟩ :=
    exists_stores_of_answered h hleft
  obtain ⟨before', reply', told', others', hpassages', hmem', hstores'⟩ :=
    exists_stores_of_answered h hleft'
  have hsame := stores_once hmem hmem' hstores hstores'
  simp only [Prod.mk.injEq, Mark.accessed.injEq, Access.fail.injEq, true_and] at hsame
  obtain ⟨rfl, rfl, rfl, hreply⟩ := hsame
  cases hreply
  have honce := left_once hleft hleft' hpassages hpassages' List.mem_cons_self List.mem_cons_self
  exact ⟨congrArg Prod.fst honce, rfl, rfl⟩

end Body

/-- A body has failed with the cause in a run, and the log was `past` when it had: how it stands
with the body and with the calls about it since. -/
structure World.FrozenSince (past : Log) (w : World) (id : Nat) (c : Cause) : Prop where
  body : ∃ b, w.store.bodies[id]? = some b ∧ b.Frozen c
  /-- Whoever is about to access the body is turned down. -/
  next : ∀ caller call rest, w.frames caller = ⟨call, .working call.course⟩ :: rest →
    call.object? = some (.body id) →
      (w.step (.advance caller)).frames caller = ⟨call, .working (call.refused c)⟩ :: rest
  /-- Every call that has accessed the body since was turned down. -/
  refused : ∀ past' caller call outcome, (past', caller, .left call outcome) ∈ dated w.log →
    call.object? = some (.body id) →
      ∃ a before reply told others,
        passages caller past' = ⟨call, (before, .accessed a reply) :: told⟩ :: others ∧
          (past <+: before →
            (call.refused c).Leads (told.map Prod.snd) (.working (.done outcome)))

namespace Body

/-- The first failure of a body is stored, and the cursor takes failures and aborts to the same
call. In every run at most one call that fails a body stores its cause or is answered yes. Once a
cause is stored, the body stays as the failure has left it, with this cause, and every call about it
is turned down, from wherever it is made. -/
theorem failure_freezes (moves : List Move) (id : Nat) :
    (World.after moves).StoresFirst id ∧
      (∀ signal, (Sink.cursor id).deliver signal =
        (signal.atCursor id).course >>= fun _ => pure (!signal.isEnding)) ∧
      FailsOnce id (World.after moves).log ∧
      ∀ b c, (World.after moves).store.bodies[id]? = some b → b.failure = some c →
        ∀ more, (World.after (moves ++ more)).FrozenSince (World.after moves).log id c := by
  have hreachable := World.reachable_after moves
  refine ⟨World.storesFirst _ id, Sink.deliver_cursor id, failsOnce_of_reachable hreachable id, ?_⟩
  intro b c hb hfailure more
  have hstored : (Ledger.ofLog id (World.after moves).log).failure = some c :=
    ((hreachable.kept id).agrees b hb).failure_eq.symm.trans hfailure
  have hstays {log : Log} (hlog : (World.after moves).log <+: log) :
      (Ledger.ofLog id log).failure = some c := Ledger.failure_ofLog hlog hstored
  have hreachable' := World.reachable_after (moves ++ more)
  have hnow := hstays (World.log_prefix_after moves more)
  refine ⟨hreachable'.exists_frozen hnow, ?_, ?_⟩
  · intro caller call rest hframes hobject
    exact hreachable'.step_eq_refused hframes hobject hnow
  · intro past' caller call outcome hleft hobject
    obtain ⟨a, before, reply, told, others, hpassages, -, -, hrefused⟩ :=
      hreachable'.exists_refused_of_left hleft hobject
    exact ⟨a, before, reply, told, others, hpassages, fun hlog => hrefused c (hstays hlog)⟩

end Body

/-! ## Calls from inside the failing call -/

def Mark.answer? : Mark → Option (Call × Outcome Response)
  | .left call outcome => some (call, outcome)
  | _ => none

namespace Body

def brokenPipe : Cause := ⟨0, .message "broken pipe"⟩
def timeLimit : Cause := ⟨1, .message "time limit"⟩

/-- A body with a listener and one chunk in flight has just stored a failure. -/
def storedFailure : List Move :=
  [.create (.cause brokenPipe.wrapped), .create (.cause timeLimit.wrapped), .create .body,
    .enter 0 (.offer 0 ⟨[1], .pair 0 1⟩), .advance 0, .advance 0,
    .enter 0 (.next 0), .advance 0, .advance 0,
    .enter 0 (.listen 0 9), .advance 0, .advance 0,
    .enter 0 (.fail 0 brokenPipe), .advance 0]

/-- The callback of the chunk, and then the listener, make further calls about the body before they
let the failing call go on. -/
def insideFailing : List Move :=
  [.advance 0,
    .enter 0 (.fail 0 timeLimit), .advance 0, .advance 0,
    .enter 0 (.offer 0 ⟨[2], .pair 2 3⟩), .advance 0, .advance 0, .comeBack 0 (.returned ()),
    .advance 0,
    .enter 0 (.acknowledge 0), .advance 0, .advance 0,
    .comeBack 0 (.returned ()), .advance 0,
    .enter 0 (.next 0), .advance 0, .advance 0,
    .enter 0 (.close 0), .advance 0, .advance 0,
    .comeBack 0 (.returned ()), .advance 0]

theorem failure_freezes_insideFailing :
    ∃ b, (World.after storedFailure).store.bodies[0]? = some b ∧ b.failure = some brokenPipe ∧
      (World.after (storedFailure ++ insideFailing)).FrozenSince (World.after storedFailure).log 0
        brokenPipe ∧
      ((World.after (storedFailure ++ insideFailing)).log.filterMap (·.2.answer?)).drop 3 =
        [(.fail 0 timeLimit, .returned (.truth false)),
          (.offer 0 ⟨[2], .pair 2 3⟩, .returned (.truth false)),
          (.acknowledge 0, .returned .nothing),
          (.next 0, .returned (.octets (.error (.failed brokenPipe)))),
          (.close 0, .returned .nothing),
          (.fail 0 brokenPipe, .returned (.truth true))] ∧
      (World.after (storedFailure ++ insideFailing)).log.filterMap (·.2.started?) =
        [.chunk 0 (.pair 0 1) (.failure brokenPipe), .chunk 0 (.pair 2 3) (.failure brokenPipe),
          .listener 0 9] := by
  obtain ⟨-, -, -, hfrozen⟩ := failure_freezes storedFailure 0
  exact ⟨_, rfl, rfl, hfrozen _ _ rfl rfl insideFailing, rfl, rfl⟩

/-! ## Panics of whoever is turned down -/

/-- The callback of a chunk that is turned down panics. -/
def panicInsideOffer : List Move :=
  [.enter 1 (.offer 0 ⟨[2], .pair 2 3⟩), .advance 1, .advance 1, .comeBack 1 (.panicked "sink")]

theorem log_panicInsideOffer :
    (World.after (storedFailure ++ (panicInsideOffer ++ [.advance 1]))).log =
      (World.after (storedFailure ++ panicInsideOffer)).log ++
        [(1, .left (.offer 0 ⟨[2], .pair 2 3⟩) (.panicked "sink"))] := rfl

theorem prefix_log_panicInsideOffer :
    (World.after storedFailure).log ++ [(1, .entered (.offer 0 ⟨[2], .pair 2 3⟩))] <+:
      (World.after (storedFailure ++ panicInsideOffer)).log := by
  rw [World.after_append]
  exact ⟨_, rfl⟩

/-- It is not so that every offer to a body that has failed is answered no, whichever callbacks
panic, nor that every flush with a limit is told of the failure, however far off the deadline. -/
theorem not_every_call_turned_down :
    (¬ ∀ (moves more : List Move) (id : Nat) (b : Body) (c : Cause) (past : Log) (caller : Nat)
        (chunk : Chunk) (outcome : Outcome Response),
      (World.after moves).store.bodies[id]? = some b → b.failure = some c →
        (past, caller, .left (.offer id chunk) outcome) ∈
          dated (World.after (moves ++ more)).log →
          (World.after moves).log ++ [(caller, .entered (.offer id chunk))] <+: past →
            outcome = .returned (.truth false)) ∧
      ¬ ∀ (moves : List Move) (id : Nat) (b : Body) (c : Cause),
        (World.after moves).store.bodies[id]? = some b → b.failure = some c →
          ∀ now limit, b.flushWithin now limit = .returned (.error (.failed c)) := by
  constructor
  · intro hall
    have hleft := mem_dated_iff.mpr ⟨[], (List.append_nil _).trans log_panicInsideOffer.symm⟩
    have hrefused := hall storedFailure (panicInsideOffer ++ [.advance 1]) 0 _ brokenPipe
      (World.after (storedFailure ++ panicInsideOffer)).log 1 ⟨[2], .pair 2 3⟩ (.panicked "sink")
      rfl rfl
    have hfalse := hrefused hleft prefix_log_panicInsideOffer
    cases hfalse
  · intro hall
    have hfalse := hall storedFailure 0 _ brokenPipe rfl rfl .origin .longest
    rw [flushWithin, Instant.await, Instant.after?_longest] at hfalse
    cases hfalse

end Body

end OneShot
