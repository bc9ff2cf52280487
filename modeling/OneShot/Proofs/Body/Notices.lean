import OneShot.Proofs.Body.Agreement
import Mathlib.Data.List.Perm.Subperm

/-!
# Notices

A notice is a signal to the callback of a chunk, sent in the course of a
call. An access makes notices due, and the upcalls behind it send them one
by one. As long as none of these panics, what a caller has sent and what its
calls in progress still owe is what its accesses have made due, in the same
order; and the ledger tells what that is.
-/

namespace OneShot

def Upcall.chunkSignal? (id : Nat) : Upcall → Option (Sink × Ending)
  | .chunk body sink ending => if body = id then some (sink, ending) else none
  | _ => none

theorem Upcall.object?_of_chunkSignal? {u : Upcall} {id : Nat} {s : Sink × Ending}
    (h : u.chunkSignal? id = some s) : u.object? = some (.body id) := by
  cases u with
  | chunk body sink ending =>
      rw [chunkSignal?] at h
      split at h
      · rename_i hbody
        rw [object?, hbody]
      · cases h
  | _ => cases h

namespace Mark

def sent (id : Nat) : Mark → List (Sink × Ending)
  | .started u => (u.chunkSignal? id).toList
  | _ => []

def incurred (id : Nat) : Mark → List (Sink × Ending)
  | .accessed a reply => (a.upcalls reply).filterMap (Upcall.chunkSignal? id)
  | _ => []

theorem object?_of_mem_sent {id : Nat} {mark : Mark} {s : Sink × Ending}
    (h : s ∈ mark.sent id) : mark.object? = some (.body id) := by
  cases mark with
  | started u => exact Upcall.object?_of_chunkSignal? (Option.mem_toList.mp h)
  | _ => cases h

theorem object?_of_mem_incurred {id : Nat} {mark : Mark} {s : Sink × Ending}
    (h : s ∈ mark.incurred id) : mark.object? = some (.body id) := by
  cases mark with
  | accessed a reply =>
      obtain ⟨u, hu, hsignal⟩ := List.mem_filterMap.mp h
      exact (Access.object?_of_mem_upcalls hu).symm.trans (Upcall.object?_of_chunkSignal? hsignal)
  | _ => cases h

def isPanic (id : Nat) : Mark → Bool
  | .ended u (.panicked _) => decide (u.object? = some (.body id))
  | _ => false

end Mark

/-- No callback of a chunk of the body panics, and no listener of it. -/
def Calm (id : Nat) (log : Log) : Prop := ∀ entry ∈ log, entry.2.isPanic id = false

instance (id : Nat) (log : Log) : Decidable (Calm id log) :=
  inferInstanceAs (Decidable (∀ entry ∈ log, entry.2.isPanic id = false))

namespace Call

/-- The calls that signal chunks which the body has accepted. -/
def settles (id : Nat) : Call → Bool
  | .acknowledge body | .fail body _ => decide (body = id)
  | _ => false

def offers (id : Nat) : Call → Bool
  | .offer body _ => decide (body = id)
  | _ => false

theorem object?_of_settles {call : Call} {id : Nat} (h : call.settles id = true) :
    call.object? = some (.body id) := by
  cases call with
  | acknowledge body => rw [object?, of_decide_eq_true h]
  | fail body cause => rw [object?, of_decide_eq_true h]
  | _ => cases h

theorem object?_of_offers {call : Call} {id : Nat} (h : call.offers id = true) :
    call.object? = some (.body id) := by
  cases call with
  | offer body chunk => rw [object?, of_decide_eq_true h]
  | _ => cases h

theorem object?_of_kind {call : Call} {id : Nat} {kind : Call → Bool}
    (hkind : kind = settles id ∨ kind = offers id) (h : kind call = true) :
    call.object? = some (.body id) := by
  rcases hkind with rfl | rfl
  · exact object?_of_settles h
  · exact object?_of_offers h

end Call

structure Notice where
  caller : Nat
  call : Call
  sink : Sink
  ending : Ending
  deriving DecidableEq

namespace Notice

def signal (n : Notice) : Sink × Ending := (n.sink, n.ending)

def isFrom (caller : Nat) (kind : Call → Bool) (n : Notice) : Bool :=
  decide (n.caller = caller) && kind n.call

def ofSignals (caller : Nat) (call : Call) (signals : List (Sink × Ending)) : List Notice :=
  signals.map fun s => ⟨caller, call, s.1, s.2⟩

/-- The signals that the marks of a log stand for, as notices of the innermost calls. -/
def tally (signals : Mark → List (Sink × Ending)) (log : Log) : List Notice :=
  (dated log).flatMap fun entry =>
    match passages entry.2.1 entry.1 with
    | [] => []
    | p :: _ => ofSignals entry.2.1 p.call (signals entry.2.2)

def sent (id : Nat) (log : Log) : List Notice := tally (Mark.sent id) log

def due (id : Nat) (log : Log) : List Notice := tally (Mark.incurred id) log

/-- The signals that calls of one kind have sent. -/
def sentSignals (id : Nat) (kind : Call → Bool) (log : Log) : List (Sink × Ending) :=
  ((sent id log).filter (kind ·.call)).map signal

/-- The signals that accesses in calls of one kind have made due. -/
def dueSignals (id : Nat) (kind : Call → Bool) (log : Log) : List (Sink × Ending) :=
  ((due id log).filter (kind ·.call)).map signal

/-- What the calls of one kind that a caller has in progress still owe. -/
def owed (id : Nat) (kind : Call → Bool) (caller : Nat) (frames : List Frame) : List Notice :=
  frames.flatMap fun frame =>
    if kind frame.call then
      ofSignals caller frame.call (frame.stage.due.filterMap (Upcall.chunkSignal? id))
    else []

section Tally

variable {signals : Mark → List (Sink × Ending)} {log : Log} {caller : Nat} {mark : Mark}

theorem map_signal_ofSignals (caller : Nat) (call : Call) (signals : List (Sink × Ending)) :
    (ofSignals caller call signals).map signal = signals := by
  rw [ofSignals, List.map_map]
  exact List.map_id signals

theorem tally_concat_of_nil (hnone : signals mark = []) :
    tally signals (log ++ [(caller, mark)]) = tally signals log := by
  rw [tally, dated_concat, List.flatMap_append, List.flatMap_singleton, hnone]
  split <;> exact List.append_nil _

theorem tally_concat_of_cons {call : Call} {marks : List (Log × Mark)} {others : List Passage}
    (hpassages : passages caller log = ⟨call, marks⟩ :: others) :
    tally signals (log ++ [(caller, mark)]) =
      tally signals log ++ ofSignals caller call (signals mark) := by
  rw [tally, dated_concat, List.flatMap_append, List.flatMap_singleton, hpassages]
  rfl

theorem filter_ofSignals (caller other : Nat) (kind : Call → Bool) (call : Call)
    (signals : List (Sink × Ending)) :
    (ofSignals caller call signals).filter (·.isFrom other kind) =
      if caller = other ∧ kind call = true then ofSignals caller call signals else [] := by
  split
  · rename_i hfrom
    rw [List.filter_eq_self]
    intro n hn
    obtain ⟨s, -, rfl⟩ := List.mem_map.mp hn
    simpa [isFrom] using hfrom
  · rename_i hnot
    rw [List.filter_eq_nil_iff]
    intro n hn
    obtain ⟨s, -, rfl⟩ := List.mem_map.mp hn
    simpa [isFrom] using hnot

theorem filter_call_ofSignals (caller : Nat) (kind : Call → Bool) (call : Call)
    (signals : List (Sink × Ending)) :
    (ofSignals caller call signals).filter (kind ·.call) =
      if kind call = true then ofSignals caller call signals else [] := by
  rw [ofSignals, List.filter_map]
  split
  · rename_i hkind
    simp [Function.comp_def, hkind]
  · rename_i hkind
    simp [Function.comp_def, hkind]

theorem filter_tally_concat_of_ne {kind : Call → Bool} {other : Nat} (hne : other ≠ caller) :
    (tally signals (log ++ [(caller, mark)])).filter (·.isFrom other kind) =
      (tally signals log).filter (·.isFrom other kind) := by
  rw [tally, dated_concat, List.flatMap_append, List.flatMap_singleton, List.filter_append]
  cases passages caller log with
  | nil => exact List.append_nil _
  | cons p others =>
      have hother : ¬ (caller = other ∧ kind p.call = true) := fun h => hne h.1.symm
      simp only
      rw [filter_ofSignals, if_neg hother, List.append_nil]
      rfl

theorem filter_tally_of_sole {kind : Call → Bool} {id : Nat}
    (hsole : ∀ entry ∈ log, entry.2.object? = some (.body id) → entry.1 = caller)
    (hsignals : ∀ {m : Mark} {s}, s ∈ signals m → m.object? = some (.body id)) :
    (tally signals log).filter (kind ·.call) =
      (tally signals log).filter (·.isFrom caller kind) := by
  apply List.filter_congr
  intro n hn
  obtain ⟨⟨past, actor, mark⟩, hentry, hmem⟩ := List.mem_flatMap.mp hn
  split at hmem
  · cases hmem
  · obtain ⟨s, hs, rfl⟩ := List.mem_map.mp hmem
    have hactor : actor = caller := hsole _ (mem_of_mem_dated hentry) (hsignals hs)
    simp [isFrom, hactor]

end Tally

end Notice

/-! ## What calls behind an upcall owe -/

theorem Ledger.Serves.eq_nil_of_settles {l : Ledger} {a : Access} {us : List Upcall}
    {response : Response} (h : l.Serves a us response) {call : Call} {id : Nat}
    (haccess : call.access? = some a) (hsettles : call.settles id = true)
    (hfailure : l.failure ≠ none) : us = [] := by
  cases call with
  | acknowledge body =>
      cases haccess
      cases h with
      | acknowledged hnone => exact absurd hnone hfailure
      | ignored => rfl
  | fail body cause =>
      cases haccess
      cases h with
      | failed hnone => exact absurd hnone hfailure
      | failedBefore => rfl
  | _ => cases hsettles

namespace World

/-- Behind an upcall more is due only to a failure that the body holds. -/
theorem Reachable.due_of_waiting {w : World} (h : w.Reachable) {id caller : Nat} {frame : Frame}
    (hmem : frame ∈ w.frames caller) {u : Upcall} {next : Outcome Unit → Course Response}
    (hstage : frame.stage = .waiting u next) (hobject : frame.call.object? = some (.body id)) :
    frame.stage.due = [] ∨
      (Ledger.ofLog id w.log).failure ≠ none ∧ ∃ cause, frame.call = .fail id cause := by
  obtain ⟨past, a, reply, made, hdated, haccess, hupcalls⟩ :=
    h.exists_access_of_waiting hmem hstage hobject
  by_cases hfail : ∃ body cause, a = .fail body cause
  · obtain ⟨body, cause, rfl⟩ := hfail
    have hcall : frame.call = .fail body cause := by
      generalize frame.call = call at haccess
      cases call <;> cases haccess
      rfl
    rw [hcall] at hobject
    cases hobject
    exact .inr ⟨Ledger.failure_of_fail_mem hdated, cause, hcall⟩
  · left
    have hlength := Access.length_upcalls_le (fun body cause ha => hfail ⟨body, cause, ha⟩) reply
    rw [hupcalls, List.length_append, List.length_cons] at hlength
    apply List.eq_nil_of_length_eq_zero
    omega

variable {id : Nat} {kind : Call → Bool}

/-- An access cannot come in between the notices that a failure owes. -/
theorem Reachable.owed_eq_nil_or {w : World} (h : w.Reachable)
    (hkind : kind = Call.settles id ∨ kind = Call.offers id) {caller : Nat} {call : Call}
    {a : Access} {next : a.Reply → Course Response} {rest : List Frame}
    (hframes : w.frames caller = ⟨call, .working (.access a next)⟩ :: rest)
    (hcall : kind call = true) :
    Notice.owed id kind caller rest = [] ∨ a.upcalls (w.store.perform a).1 = [] := by
  have howed (hrest : ∀ frame ∈ rest, kind frame.call = true → frame.stage.due = []) :
      Notice.owed id kind caller rest = [] := by
    rw [Notice.owed, List.flatMap_eq_nil_iff]
    intro frame hframe
    split
    · rename_i hof
      rw [hrest frame hframe hof]
      rfl
    · rfl
  have hwaiting (frame : Frame) (hframe : frame ∈ rest) :
      ∃ u next, frame.stage = .waiting u next := by
    apply h.waiting_of_mem_tail
    rw [hframes]
    exact hframe
  have hmem (frame : Frame) (hframe : frame ∈ rest) : frame ∈ w.frames caller := by
    rw [hframes]
    exact List.mem_cons_of_mem _ hframe
  rcases hkind with rfl | rfl
  · -- Before the failure nobody owes behind an upcall, and after it nothing becomes due.
    by_cases hfailure : (Ledger.ofLog id w.log).failure = none
    · left
      apply howed
      intro frame hframe hof
      obtain ⟨u, next, hstage⟩ := hwaiting frame hframe
      rcases h.due_of_waiting (hmem frame hframe) hstage (Call.object?_of_settles hof) with
        hnone | ⟨hfailed, -⟩
      · exact hnone
      · exact absurd hfailure hfailed
    · right
      have hobject := Call.object?_of_settles hcall
      obtain ⟨haccess, -⟩ := h.eq_errand_of_access hframes hobject
      have hserves := h.serves_of_frame hframes ((Call.object?_of_access? haccess).trans hobject)
      exact hserves.eq_nil_of_settles haccess hcall hfailure
  · left
    apply howed
    intro frame hframe hof
    obtain ⟨u, next, hstage⟩ := hwaiting frame hframe
    rcases h.due_of_waiting (hmem frame hframe) hstage (Call.object?_of_offers hof) with
      hnone | ⟨-, cause, hfail⟩
    · exact hnone
    · rw [hfail] at hof
      cases hof

end World

/-! ## The balance -/

/-- For every caller, the notices sent and those still owed are those that were due. -/
def Balanced (id : Nat) (kind : Call → Bool) (frames : Nat → List Frame) (log : Log) : Prop :=
  ∀ caller, (Notice.sent id log).filter (·.isFrom caller kind) ++
    Notice.owed id kind caller (frames caller) = (Notice.due id log).filter (·.isFrom caller kind)

namespace Balanced

open Notice

variable {id : Nat} {kind : Call → Bool} {frames : Nat → List Frame} {log : Log} {caller : Nat}
  {mark : Mark}

theorem put (h : Balanced id kind frames log) {opened : List Frame}
    (hcaller : (sent id (log ++ [(caller, mark)])).filter (·.isFrom caller kind) ++
      owed id kind caller opened =
        (due id (log ++ [(caller, mark)])).filter (·.isFrom caller kind)) :
    Balanced id kind (Function.update frames caller opened) (log ++ [(caller, mark)]) := by
  intro other
  by_cases hother : other = caller
  · subst hother
    rwa [Function.update_self]
  · rw [Function.update_of_ne hother, sent, due, filter_tally_concat_of_ne hother,
      filter_tally_concat_of_ne hother]
    exact h other

theorem put_of_silent (h : Balanced id kind frames log) {opened : List Frame}
    (hsent : mark.sent id = []) (hincurred : mark.incurred id = [])
    (howed : owed id kind caller opened = owed id kind caller (frames caller)) :
    Balanced id kind (Function.update frames caller opened) (log ++ [(caller, mark)]) := by
  apply h.put
  rw [sent, due, tally_concat_of_nil hsent, tally_concat_of_nil hincurred, howed]
  exact h caller

/-- The innermost call goes on: what it owed and still owes accounts for the mark. -/
theorem goOn (h : Balanced id kind frames log) (hfollowed : Followed frames log) {call : Call}
    {stage stage' : Stage} {rest : List Frame} (hframes : frames caller = ⟨call, stage⟩ :: rest)
    (hmark : kind call = true →
      ofSignals caller call (mark.sent id) ++ owed id kind caller (⟨call, stage'⟩ :: rest) =
        owed id kind caller (⟨call, stage⟩ :: rest) ++ ofSignals caller call (mark.incurred id)) :
    Balanced id kind (Function.update frames caller (⟨call, stage'⟩ :: rest))
      (log ++ [(caller, mark)]) := by
  obtain ⟨marks, others, hpassages, -, -⟩ := hfollowed.exists_of_cons hframes
  have hcaller := h caller
  rw [hframes] at hcaller
  apply h.put
  rw [sent, due, tally_concat_of_cons hpassages, tally_concat_of_cons hpassages,
    List.filter_append, List.filter_append, filter_ofSignals, filter_ofSignals]
  by_cases hkind : kind call = true
  · rw [if_pos ⟨rfl, hkind⟩, if_pos ⟨rfl, hkind⟩, List.append_assoc, hmark hkind,
      ← List.append_assoc]
    exact congrArg (· ++ _) hcaller
  · have hnot : ¬ (caller = caller ∧ kind call = true) := fun hboth => hkind hboth.2
    have howed : owed id kind caller (⟨call, stage'⟩ :: rest) =
        owed id kind caller (⟨call, stage⟩ :: rest) := by
      simp only [owed, List.flatMap_cons, if_neg hkind]
    rw [if_neg hnot, if_neg hnot, List.append_nil, List.append_nil, howed]
    exact hcaller

theorem act (hkind : kind = Call.settles id ∨ kind = Call.offers id) {w w' : World}
    (hw : w.Reachable) (hcalm : Calm id w'.log) (h : Balanced id kind w.frames w.log)
    (hact : Act w w') : Balanced id kind w'.frames w'.log := by
  have hobject {call : Call} (hcall : kind call = true) : call.object? = some (.body id) :=
    Call.object?_of_kind hkind hcall
  cases hact with
  | enter hmay hknown =>
      rename_i caller call
      apply h.put_of_silent rfl rfl
      rw [owed, List.flatMap_cons]
      split
      · rename_i hcall
        obtain ⟨a, haccess⟩ := Call.exists_access (hobject hcall)
        rw [Call.course_eq haccess]
        rfl
      · rfl
  | access hframes =>
      apply h.goOn hw.followed hframes
      intro hcall
      obtain ⟨haccess, herrand⟩ := hw.eq_errand_of_access hframes (hobject hcall)
      obtain rfl := eq_of_heq (Course.access.inj herrand).2
      -- What is now due is owed before the rest but was due after it: one of the two is empty.
      rcases hw.owed_eq_nil_or hkind hframes hcall with hnone | hnone
      · rw [owed, owed, List.flatMap_cons, List.flatMap_cons, ← owed, hnone, if_pos hcall,
          if_pos hcall, Stage.due, Course.due_finish, List.append_nil, List.append_nil]
        rfl
      · rw [owed, owed, List.flatMap_cons, List.flatMap_cons, if_pos hcall,
          if_pos hcall, Stage.due, Course.due_finish, Mark.incurred, hnone]
        exact (List.append_nil _).symm
  | start hframes =>
      rename_i caller call u next rest
      apply h.goOn hw.followed hframes
      intro hcall
      have hdue : (Stage.working (.upcall u next)).due = u :: (Stage.waiting u next).due := rfl
      simp only [owed, List.flatMap_cons, if_pos hcall, hdue, Mark.sent, Mark.incurred,
        List.filterMap_cons]
      cases u.chunkSignal? id <;> simp [ofSignals]
  | stop hframes =>
      rename_i caller call u next rest outcome
      apply h.goOn hw.followed hframes
      intro hcall
      cases outcome with
      | returned value => exact (List.append_nil _).symm
      | panicked text =>
          -- The notices behind the panic would be lost, but no callback of the body panics.
          obtain ⟨past, a, reply, made, -, haccess, hupcalls⟩ :=
            hw.exists_access_of_waiting (hframes ▸ List.mem_cons_self) rfl (hobject hcall)
          have hmem : u ∈ a.upcalls reply := by
            rw [hupcalls]
            exact List.mem_append_right _ List.mem_cons_self
          have hu : u.object? = some (.body id) :=
            ((Access.object?_of_mem_upcalls hmem).trans (Call.object?_of_access? haccess)).trans
              (hobject hcall)
          have hpanic := hcalm _ (List.mem_append_right _ (List.mem_singleton_self _))
          exact absurd hu (of_decide_eq_false hpanic)
  | leave hframes =>
      apply h.put_of_silent rfl rfl
      rw [hframes, owed, owed, List.flatMap_cons]
      split <;> rfl
  | create => exact h

/-- A notice is counted among those of its caller as often as among all. -/
theorem count_filter_isFrom {n : Notice} (hkind : kind n.call = true) (ns : List Notice) :
    (ns.filter (·.isFrom n.caller kind)).count n = (ns.filter (kind ·.call)).count n := by
  have hfrom : n.isFrom n.caller kind = true := by
    simp [isFrom, hkind]
  rw [List.count_filter hfrom, List.count_filter (p := fun m : Notice => kind m.call) hkind]

theorem subperm (h : Balanced id kind frames log) :
    (sentSignals id kind log).Subperm (dueSignals id kind log) := by
  have hnotices : ((sent id log).filter (kind ·.call)).Subperm
      ((due id log).filter (kind ·.call)) := by
    rw [List.subperm_ext_iff]
    intro n hn
    have hkind : kind n.call = true := (List.mem_filter.mp hn).2
    rw [← count_filter_isFrom hkind, ← count_filter_isFrom hkind, ← h n.caller,
      List.count_append]
    exact Nat.le_add_right _ _
  obtain ⟨ns, hperm, hsub⟩ := hnotices
  exact ⟨ns.map signal, hperm.map signal, hsub.map signal⟩

theorem perm (h : Balanced id kind frames log)
    (hnone : ∀ caller, owed id kind caller (frames caller) = []) :
    (sentSignals id kind log).Perm (dueSignals id kind log) := by
  apply List.Perm.map
  -- The balance holds for each caller by itself, and counts add up whatever the interleaving.
  rw [List.perm_iff_count]
  intro n
  by_cases hkind : kind n.call = true
  · rw [← count_filter_isFrom hkind, ← count_filter_isFrom hkind, ← h n.caller, hnone,
      List.append_nil]
  · have hother (ns : List Notice) : (ns.filter (kind ·.call)).count n = 0 := by
      rw [List.count_eq_zero]
      intro hn
      exact hkind (List.mem_filter.mp hn).2
    rw [hother, hother]

/-- If one caller makes all calls about the body, signals are sent in the order they were due. -/
theorem isPrefix (h : Balanced id kind frames log)
    (hsole : ∀ entry ∈ log, entry.2.object? = some (.body id) → entry.1 = caller) :
    sentSignals id kind log <+: dueSignals id kind log := by
  apply List.IsPrefix.map
  rw [sent, due, filter_tally_of_sole hsole Mark.object?_of_mem_sent,
    filter_tally_of_sole hsole Mark.object?_of_mem_incurred]
  exact ⟨_, h caller⟩

end Balanced

theorem World.Reachable.balanced {w : World} (h : w.Reachable) {id : Nat} {kind : Call → Bool}
    (hkind : kind = Call.settles id ∨ kind = Call.offers id) (hcalm : Calm id w.log) :
    Balanced id kind w.frames w.log := by
  induction h with
  | empty => exact fun _ => rfl
  | @act w w' hw hact ih =>
      have hbefore : Calm id w.log := by
        intro entry hentry
        apply hcalm
        rcases hact.log_eq with hsame | ⟨last, hlog⟩
        · rwa [hsame]
        · rw [hlog]
          exact List.mem_append_left _ hentry
      exact (ih hbefore).act hkind hw hcalm hact

end OneShot
