import OneShot.Proofs.Body.Failing
import OneShot.Proofs.Body.Flush
import OneShot.Proofs.Body.Notices

/-!
# The listener of a body

Whom a call tells is settled at its access: an offer that is accepted, the
close of an open body and the first failure go to the listener that the body
has at that moment, once each. It hears of them when everybody can see them,
and of a failure after the callbacks of the chunks. It hears of nothing else.
-/

namespace OneShot

namespace Ledger

variable {l now : Ledger} {id : Nat} {a : Access} {us : List Upcall} {response : Response}

/-- The access changes what the listener is there to hear of. -/
def announces (l : Ledger) : Access → Bool
  | .offer _ _ | .close _ => l.isOpen
  | .fail _ _ => l.failure.isNone
  | _ => false

/-- The listener that is to hear of the access, if there is one and it is to hear of it. -/
def hearer (l : Ledger) (a : Access) : Option Closure := if l.announces a then l.listener else none

theorem hearer_eq_some_iff {closure : Closure} :
    l.hearer a = some closure ↔ l.announces a = true ∧ l.listener = some closure := by
  rw [hearer]
  split
  · rename_i hannounces
    exact (and_iff_right hannounces).symm
  · rename_i hnot
    exact iff_of_false nofun fun h => hnot h.1

/-- The callbacks of chunks that an access has signalled; the first failure signals those of all
chunks pending, in the order of the offers. -/
structure Signals (l : Ledger) (id : Nat) (a : Access) (callbacks : List Upcall) : Prop where
  chunk : ∀ u ∈ callbacks, ∃ sink ending, u = .chunk id sink ending
  failed : ∀ cause, a = .fail id cause → l.failure = none →
    callbacks = l.pending.map fun chunk => .chunk id chunk.sink (.failure cause)

theorem signals_nil (h : ∀ cause, a = .fail id cause → l.failure ≠ none) : l.Signals id a [] where
  chunk := nofun
  failed cause ha hnone := absurd hnone (h cause ha)

theorem signals_singleton {sink : Sink} {ending : Ending} (h : ∀ cause, a ≠ .fail id cause) :
    l.Signals id a [.chunk id sink ending] where
  chunk _ hu := ⟨sink, ending, List.mem_singleton.mp hu⟩
  failed cause ha := absurd ha (h cause)

theorem signals_failed (cause : Cause) : l.Signals id (.fail id cause)
    (l.pending.map fun chunk => .chunk id chunk.sink (.failure cause)) := by
  constructor
  · intro u hu
    obtain ⟨chunk, -, rfl⟩ := List.mem_map.mp hu
    exact ⟨chunk.sink, .failure cause, rfl⟩
  · rintro _ ⟨⟩ -
    rfl

/-- The callbacks come first, the listener last. -/
theorem Serves.exists_signals (h : l.Serves a us response) (ha : a.object? = some (.body id)) :
    ∃ callbacks, l.Signals id a callbacks ∧
      us = callbacks ++ Body.listening id (l.hearer a) := by
  cases h with
  | accepted hopen =>
      cases ha
      exact ⟨[], signals_nil nofun, by rw [hearer, announces, if_pos hopen, List.nil_append]⟩
  | @rejected other chunk cause hopen =>
      cases ha
      refine ⟨[.chunk id chunk.sink (.failure cause)], signals_singleton nofun, ?_⟩
      simp [hearer, announces, hopen, Body.listening]
  | next => exact ⟨[], signals_nil nofun, rfl⟩
  | acknowledged =>
      cases ha
      exact ⟨_, signals_singleton nofun, rfl⟩
  | ignored => exact ⟨[], signals_nil nofun, rfl⟩
  | closed hopen =>
      cases ha
      exact ⟨[], signals_nil nofun, by rw [hearer, announces, if_pos hopen, List.nil_append]⟩
  | closedBefore hopen =>
      exact ⟨[], signals_nil nofun, by simp [hearer, announces, hopen, Body.listening]⟩
  | @failed other cause hfailure =>
      cases ha
      exact ⟨_, signals_failed cause, by simp [hearer, announces, hfailure]⟩
  | failedBefore hfailure =>
      refine ⟨[], signals_nil fun _ _ => hfailure, ?_⟩
      simp [hearer, announces, hfailure, Body.listening]
  | listened => exact ⟨[], signals_nil nofun, rfl⟩

/-- What the access that found the ledger `l` has changed is to be seen in the ledger `now`. -/
def Shows (l : Ledger) (now : Ledger) : Access → Prop
  | .offer _ chunk => l.accepted ++ [chunk] <+: now.accepted
  | .close _ => now.closed = true
  | .fail _ cause => now.failure = some cause
  | _ => True

theorem shows_after (h : l.announces a = true) : l.Shows (l.after a) a := by
  cases a with
  | offer other chunk =>
      have hopen : l.isOpen = true := h
      rw [Shows, after, if_pos hopen]
  | close other => rfl
  | fail other cause =>
      rw [Shows, after, if_pos (Option.isNone_iff_eq_none.mp h)]
  | _ => trivial

theorem closed_mark (h : now.closed = true) (id : Nat) (m : Mark) :
    (now.mark id m).closed = true := by
  cases m with
  | accessed a reply =>
      simp only [mark]
      split
      · cases a with
        | close other => rfl
        | offer other chunk | next other | acknowledge other | fail other cause =>
            simp only [after]
            split <;> exact h
        | _ => exact h
      · exact h
  | _ => exact h

theorem Shows.mark (h : l.Shows now a) (id : Nat) (m : Mark) : l.Shows (now.mark id m) a := by
  cases a with
  | offer other chunk => exact List.IsPrefix.trans h (now.accepted_prefix_mark id m)
  | close other => exact closed_mark h id m
  | fail other cause =>
      have hfailed : now.failure = some cause := h
      have hne : now.failure ≠ none := hfailed ▸ Option.some_ne_none cause
      exact (failure_mark id hne).trans hfailed
  | _ => trivial

theorem Shows.ofLog {past log : Log} (h : l.Shows (Ledger.ofLog id past) a) (hlog : past <+: log) :
    l.Shows (Ledger.ofLog id log) a := by
  obtain ⟨more, rfl⟩ := hlog
  rw [Ledger.ofLog, List.foldl_append]
  exact List.foldlRecOn (motive := fun now => l.Shows now a) more _ h
    fun _ hnow entry _ => hnow.mark id entry.2

end Ledger

/-- The call has had its access and made the upcalls, and all of these have come back. -/
structure Passage.HasMade (p : Passage) (before : Log) (a : Access) (us : List Upcall) : Prop where
  access : p.call.access? = some a
  marks : ∃ reply told, p.marks = (before, .accessed a reply) :: told ∧
    told.map Prod.snd = returns us

theorem exists_returns_of_leads {us : List Upcall} {response : Response} {marks : List Mark}
    {u : Upcall} {next : Outcome Unit → Course Response}
    (h : (Course.finish us response).Leads marks (.working (.upcall u next))) :
    ∃ made rest, us = made ++ u :: rest ∧ marks = returns made := by
  induction us generalizing marks with
  | nil => cases h
  | cons first us ih =>
      rw [Course.finish_cons] at h
      cases h with
      | start => exact ⟨[], us, rfl, rfl⟩
      | upcall h =>
          rename_i back marks
          cases back with
          | returned value =>
              obtain ⟨made, rest, rfl, rfl⟩ := ih h
              exact ⟨first :: made, rest, rfl, rfl⟩
          | panicked text => cases h

/-- A listener that is called is the one that was to hear, and all before it are callbacks. -/
theorem Ledger.Signals.eq_of_append {l : Ledger} {id : Nat} {a : Access}
    {callbacks made rest : List Upcall} {listener : Option Closure} {closure : Closure}
    (h : l.Signals id a callbacks)
    (hupcalls : callbacks ++ Body.listening id listener = made ++ .listener id closure :: rest) :
    made = callbacks ∧ listener = some closure := by
  have hnot {past : List Upcall} : callbacks ≠ made ++ .listener id closure :: past := by
    rintro rfl
    obtain ⟨sink, ending, hchunk⟩ := h.chunk (.listener id closure) (by simp)
    nomatch hchunk
  cases listener with
  | none =>
      rw [Body.listening, Option.toList_none, List.map_nil, List.append_nil] at hupcalls
      exact absurd hupcalls hnot
  | some heard =>
      rcases List.eq_nil_or_concat' rest with rfl | ⟨past, last, rfl⟩
      · obtain ⟨rfl, hlast⟩ := List.append_inj' hupcalls rfl
        obtain ⟨-, rfl⟩ := Upcall.listener.inj (List.cons.inj hlast).1
        exact ⟨rfl, rfl⟩
      · rw [← List.cons_append, ← List.append_assoc] at hupcalls
        exact absurd (List.append_inj' hupcalls rfl).1 hnot

/-! ## Runs -/

namespace World

/-- How a world in which nobody has panicked tells the listeners of a body. -/
structure TellsListener (id : Nat) (w : World) : Prop where
  agrees : ∀ b, w.store.bodies[id]? = some b → (Ledger.ofLog id w.log).Agrees b
  /-- A call that has been left has told the listener that was to hear, and told it once and last;
  if none was to hear, it has told none. -/
  left : ∀ past caller call outcome, (past, caller, .left call outcome) ∈ dated w.log →
    call.object? = some (.body id) →
      ∃ p others before a callbacks, passages caller past = p :: others ∧ p.call = call ∧
        (Ledger.ofLog id before).Signals id a callbacks ∧
          p.HasMade before a
            (callbacks ++ Body.listening id ((Ledger.ofLog id before).hearer a))
  /-- Whoever calls a listener has had an access that it was to hear of, and all callbacks have come
  back; what the access has changed is there in everything that is accessed from then on. -/
  started : ∀ past caller closure, (past, caller, .started (.listener id closure)) ∈ dated w.log →
    ∃ p others before a callbacks, passages caller past = p :: others ∧
      p.HasMade before a callbacks ∧ (Ledger.ofLog id before).Signals id a callbacks ∧
        (Ledger.ofLog id before).announces a = true ∧
        (Ledger.ofLog id before).listener = some closure ∧
        (Ledger.ofLog id before).Shows (Ledger.ofLog id past) a ∧
        ∀ later actor a' reply, (later, actor, .accessed a' reply) ∈ dated w.log →
          past <+: later → a'.object? = some (.body id) →
            (Ledger.ofLog id before).Shows (Ledger.ofLog id later) a ∧
              (Ledger.ofLog id later).Serves a' (a'.upcalls reply) (a'.response reply)

variable {w : World} {id caller : Nat} {past : Log}

theorem Reachable.exists_hasMade_of_left (h : w.Reachable) (hcalm : Calm id w.log) {call : Call}
    {outcome : Outcome Response} (hleft : (past, caller, .left call outcome) ∈ dated w.log)
    (hobject : call.object? = some (.body id)) :
    ∃ p others before a callbacks, passages caller past = p :: others ∧ p.call = call ∧
      (Ledger.ofLog id before).Signals id a callbacks ∧
        p.HasMade before a
          (callbacks ++ Body.listening id ((Ledger.ofLog id before).hearer a)) := by
  obtain ⟨marks, others, hpassages, hleads, hdated, hsub⟩ := h.exists_passage_of_left hleft
  obtain ⟨a, haccess, ⟨-, hfresh⟩ | ⟨before, reply, told, rfl, hfinish⟩⟩ :=
    Call.leads_errand hobject hleads
  · cases hfresh
  · have ha : a.object? = some (.body id) := (Call.object?_of_access? haccess).trans hobject
    obtain ⟨ended, htold, -⟩ := told_of_leads hfinish
    obtain ⟨callbacks, hsignals, hupcalls⟩ :=
      (h.serves (hsub (hdated _ List.mem_cons_self)) ha).exists_signals ha
    refine ⟨_, others, before, a, callbacks, hpassages, rfl, hsignals, haccess, reply, told, rfl,
      ?_⟩
    rw [← hupcalls]
    rcases htold.returned_or_panicked with ⟨-, hmarks⟩ | ⟨made, u, rest, text, hu, -, hmarks⟩
    · exact hmarks
    · -- The panic would be in the log.
      have hended : Mark.ended u (.panicked text) ∈ told.map Prod.snd := by
        rw [hmarks]
        simp
      obtain ⟨m, hm, hpanic⟩ := List.mem_map.mp hended
      have hquiet := hcalm _ (mem_of_mem_dated (hsub (hdated m (List.mem_cons_of_mem _ hm))))
      have hmem : u ∈ a.upcalls reply := by
        rw [hu]
        exact List.mem_append_right _ List.mem_cons_self
      have hbody : u.object? = some (.body id) := (Access.object?_of_mem_upcalls hmem).trans ha
      simp only [hpanic, Mark.isPanic, hbody, decide_true] at hquiet
      nomatch hquiet

theorem Reachable.exists_hasMade_of_started (h : w.Reachable) {closure : Closure}
    (hstarted : (past, caller, .started (.listener id closure)) ∈ dated w.log) :
    ∃ p others before a callbacks, passages caller past = p :: others ∧
      p.HasMade before a callbacks ∧ (Ledger.ofLog id before).Signals id a callbacks ∧
        (Ledger.ofLog id before).announces a = true ∧
        (Ledger.ofLog id before).listener = some closure ∧
        ∀ log, past <+: log → (Ledger.ofLog id before).Shows (Ledger.ofLog id log) a := by
  obtain ⟨v, hv, rfl, -, call, next, rest, hframes⟩ := h.exists_makes hstarted
  have hobject : call.object? = some (.body id) := hv.object?_of_upcall hframes rfl
  obtain ⟨marks, others, hpassages, hfollows, -⟩ := hv.followed.exists_of_cons hframes
  obtain ⟨a, haccess, ⟨-, hfresh⟩ | ⟨before, reply, told, rfl, hfinish⟩⟩ :=
    Call.leads_errand hobject hfollows.leads
  · cases hfresh
  · have ha : a.object? = some (.body id) := (Call.object?_of_access? haccess).trans hobject
    have hdated := hfollows.dated _ List.mem_cons_self
    obtain ⟨callbacks, hsignals, hupcalls⟩ := (hv.serves hdated ha).exists_signals ha
    obtain ⟨made, rest', hmade, hmarks⟩ := exists_returns_of_leads hfinish
    obtain ⟨rfl, hhearer⟩ := hsignals.eq_of_append (hupcalls.symm.trans hmade)
    obtain ⟨hannounces, hlistener⟩ := Ledger.hearer_eq_some_iff.mp hhearer
    refine ⟨_, others, before, a, made, hpassages, ⟨haccess, reply, told, rfl, hmarks⟩, hsignals,
      hannounces, hlistener, ?_⟩
    intro log hlog
    have hbefore := (mem_dated_iff.mp hdated).trans hlog
    have hshows := Ledger.shows_after hannounces
    apply Ledger.Shows.ofLog _ hbefore
    rwa [Ledger.ofLog_concat, Ledger.mark, if_pos ha]

/-- As long as no callback and no listener of a body panics, each accepted offer, the close of the
open body and its first failure call the listener which the body has at that moment exactly once,
and no other call calls any. -/
theorem tells_listener (moves : List Move) {id : Nat} (hcalm : Calm id (after moves).log) :
    (after moves).TellsListener id := by
  have hreachable := reachable_after moves
  refine ⟨(hreachable.kept id).agrees, ?_, ?_⟩
  · intro past caller call outcome hleft hobject
    exact hreachable.exists_hasMade_of_left hcalm hleft hobject
  · intro past caller closure hstarted
    obtain ⟨p, others, before, a, callbacks, hpassages, hmade, hsignals, hannounces, hlistener,
      hshows⟩ := hreachable.exists_hasMade_of_started hstarted
    refine ⟨p, others, before, a, callbacks, hpassages, hmade, hsignals, hannounces, hlistener,
      hshows past List.prefix_rfl, ?_⟩
    intro later actor a' reply' haccess hlater ha'
    exact ⟨hshows later hlater, hreachable.serves haccess ha'⟩

end World

/-! ## A listener replaced from inside -/

/-- The listener whose call begins. -/
def Mark.heard? : Mark → Option Closure
  | .started (.listener _ closure) => some closure
  | _ => none

namespace World

/-- A chunk is offered; the listener has another take its place and offers a second chunk. Then the
body is closed and fails, and the callback of the first chunk closes it once more. -/
def replacedInside : List Move :=
  [.create (.cause Body.lostConnection.wrapped), .create .body,
    .enter 0 (.listen 0 7), .advance 0, .advance 0,
    .enter 0 (.offer 0 ⟨[1], .pair 0 1⟩), .advance 0, .advance 0,
    .enter 0 (.listen 0 8), .advance 0, .advance 0,
    .enter 0 (.offer 0 ⟨[2], .ignore⟩), .advance 0, .advance 0, .comeBack 0 (.returned ()),
    .advance 0,
    .comeBack 0 (.returned ()), .advance 0,
    .enter 0 (.close 0), .advance 0, .advance 0, .comeBack 0 (.returned ()), .advance 0,
    .enter 0 (.fail 0 Body.lostConnection), .advance 0, .advance 0,
    .enter 0 (.close 0), .advance 0, .advance 0,
    .comeBack 0 (.returned ()), .advance 0, .comeBack 0 (.returned ()), .advance 0,
    .comeBack 0 (.returned ()), .advance 0]

theorem tells_listener_replacedInside :
    Calm 0 (after replacedInside).log ∧
      (after replacedInside).log.filterMap (·.2.heard?) = [7, 8, 8, 8] ∧
        (after replacedInside).TellsListener 0 := by
  have hcalm : Calm 0 (after replacedInside).log := by decide
  exact ⟨hcalm, by decide, tells_listener replacedInside hcalm⟩

end World

end OneShot
