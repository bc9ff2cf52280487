import OneShot.Proofs.Body.Ledger
import OneShot.Proofs.Calls.Conduct

/-!
# The ledger of a run

In every run, with calls made from inside the upcalls of others, by any
number of callers and with upcalls that panic, the log alone tells how the
ledger of a body stands. The body agrees with it at every moment, and every
call is answered as the ledger says at the moment of its access.
-/

namespace OneShot

namespace Store

theorem getElem?_bodies_perform (s : Store) {a : Access} {id : Nat}
    (h : a.object? ≠ some (.body id)) : (s.perform a).2.bodies[id]? = s.bodies[id]? := by
  have hput {other : Nat} (b : Body) (hne : other ≠ id) :
      (s.putBody other b).bodies[id]? = s.bodies[id]? := List.getElem?_set_ne hne
  cases a with
  | receive other signal =>
      simp only [perform, receive]
      split <;> rfl
  | publish other =>
      simp only [perform, publish]
      split <;> rfl
  | suppress keeper late => rfl
  | settle other ending =>
      simp only [perform, settle]
      split
      · rfl
      · split <;> rfl
  | offer other chunk =>
      have hne : other ≠ id := fun he => h (he ▸ rfl)
      simp only [perform, offer]
      split
      · rfl
      · split
        · exact hput _ hne
        · split <;> rfl
  | next other =>
      have hne : other ≠ id := fun he => h (he ▸ rfl)
      simp only [perform, next]
      split
      · rfl
      · exact hput _ hne
  | acknowledge other =>
      have hne : other ≠ id := fun he => h (he ▸ rfl)
      simp only [perform, acknowledge]
      split
      · rfl
      · exact hput _ hne
  | close other =>
      have hne : other ≠ id := fun he => h (he ▸ rfl)
      simp only [perform, close]
      split
      · rfl
      · split
        · rfl
        · exact hput _ hne
  | fail other cause =>
      have hne : other ≠ id := fun he => h (he ▸ rfl)
      simp only [perform, fail]
      split
      · rfl
      · split
        · rfl
        · exact hput _ hne
  | listen other listener =>
      have hne : other ≠ id := fun he => h (he ▸ rfl)
      simp only [perform, listen]
      split
      · rfl
      · exact hput _ hne

theorem getElem?_putBody {s : Store} {id : Nat} {b : Body} (hb : s.bodies[id]? = some b)
    (b' : Body) : (s.putBody id b').bodies[id]? = some b' :=
  List.getElem?_set_self (List.getElem?_eq_some_iff.mp hb).1

theorem fail_first {s : Store} {id : Nat} {b : Body} (hb : s.bodies[id]? = some b)
    (hfailure : b.failure = none) (cause : Cause) :
    s.fail id cause =
      (some ⟨b.pending.map Chunk.sink, b.listener⟩, s.putBody id (b.fail cause)) := by
  simp only [fail, hb, hfailure]

theorem fail_again {s : Store} {id : Nat} {b : Body} (hb : s.bodies[id]? = some b)
    {first : Cause} (hfailure : b.failure = some first) (cause : Cause) :
    s.fail id cause = (none, s.suppress first cause) := by
  simp only [fail, hb, hfailure]

theorem getElem?_bodies_add (s : Store) (novelty : Novelty) (id : Nat) :
    (s.add novelty).bodies[id]? = s.bodies[id]? ∨
      s.bodies[id]? = none ∧ (s.add novelty).bodies[id]? = some {} := by
  cases novelty with
  | body =>
      simp only [add, addBody]
      rcases Nat.lt_trichotomy id s.bodies.length with hlt | rfl | hgt
      · exact .inl (List.getElem?_append_left hlt)
      · exact .inr ⟨List.getElem?_eq_none (Nat.le_refl _), List.getElem?_concat_length⟩
      · left
        rw [List.getElem?_eq_none (Nat.le_of_lt hgt), List.getElem?_eq_none]
        rw [List.length_append]
        exact hgt
  | cause wrapped =>
      simp only [add]
      split <;> exact .inl rfl
  | _ => exact .inl rfl

end Store

namespace Ledger

/-- The reply brings what the ledger says, and the body it leaves agrees with the ledger after. -/
def Answers (l : Ledger) (id : Nat) (a : Access) (result : a.Reply × Store) : Prop :=
  l.Serves a (a.upcalls result.1) (a.response result.1) ∧
    ∃ b, result.2.bodies[id]? = some b ∧ (l.after a).Agrees b

namespace Agrees

variable {l : Ledger} {b : Body} {s : Store} {id : Nat}

theorem answers_offer (h : l.Agrees b) (hb : s.bodies[id]? = some b) (chunk : Chunk) :
    l.Answers id (.offer id chunk) (s.offer id chunk) := by
  cases hopen : l.isOpen with
  | true =>
      have hoffer : s.offer id chunk = (.accepted b.listener, s.putBody id (b.offer chunk)) := by
        simp [Store.offer, hb, h.accepts_eq, hopen]
      rw [hoffer, h.listener_eq]
      exact ⟨.accepted hopen, _, Store.getElem?_putBody hb _, h.offer hopen chunk⟩
  | false =>
      have hkept : l.after (.offer id chunk) = l := by simp [after, hopen]
      rw [Answers, hkept]
      cases hfailure : l.failure with
      | some cause =>
          have hoffer : s.offer id chunk = (.rejected cause, s) := by
            simp [Store.offer, hb, h.accepts_eq, hopen, h.failure_eq, hfailure]
          rw [hoffer]
          refine ⟨.rejected hopen ?_, b, hb, h⟩
          intro c hc
          exact Option.some.inj (hfailure.symm.trans hc)
      | none =>
          have hoffer : s.offer id chunk =
              (.rejected (s.addCause (.message "deferred content closed")).1,
                (s.addCause (.message "deferred content closed")).2) := by
            simp [Store.offer, hb, h.accepts_eq, hopen, h.failure_eq, hfailure]
          rw [hoffer]
          refine ⟨.rejected hopen ?_, b, hb, h⟩
          intro c hc
          exact absurd (hc.symm.trans hfailure) (Option.some_ne_none c)

theorem answers_next (h : l.Agrees b) (hb : s.bodies[id]? = some b) :
    l.Answers id (.next id) (s.next id) := by
  have hnext : s.next id = (b.next.1, s.putBody id b.next.2) := by
    simp only [Store.next, hb]
  obtain ⟨hanswer, hagrees⟩ := h.next id
  rw [hnext, hanswer]
  exact ⟨.next, _, Store.getElem?_putBody hb _, hagrees⟩

theorem answers_acknowledge (h : l.Agrees b) (hb : s.bodies[id]? = some b) :
    l.Answers id (.acknowledge id) (s.acknowledge id) := by
  have hacknowledge : s.acknowledge id = (b.acknowledge.1, s.putBody id b.acknowledge.2) := by
    simp only [Store.acknowledge, hb]
  rw [hacknowledge]
  by_cases hcounts : l.failure = none ∧ l.acknowledged < l.yielded
  · obtain ⟨chunk, hchunk, hsink, hagrees⟩ := h.acknowledge hcounts.1 hcounts.2 id
    rw [hsink]
    exact ⟨.acknowledged hcounts.1 hcounts.2 hchunk, _, Store.getElem?_putBody hb _, hagrees⟩
  · have hnone : l.failure ≠ none ∨ l.yielded ≤ l.acknowledged := by
      rcases not_and_or.mp hcounts with hfailure | hle
      · exact .inl hfailure
      · exact .inr (Nat.le_of_not_lt hle)
    obtain ⟨hbody, hkept⟩ := h.acknowledge_of_none hnone id
    rw [hbody, Answers, hkept]
    exact ⟨.ignored hnone, _, Store.getElem?_putBody hb _, h⟩

theorem answers_close (h : l.Agrees b) (hb : s.bodies[id]? = some b) :
    l.Answers id (.close id) (s.close id) := by
  have hclosed : b.closed = !l.isOpen := by
    rw [h.closed_eq, isOpen]
    cases l.closed <;> cases l.failure <;> rfl
  cases hopen : l.isOpen with
  | true =>
      have hclose : s.close id = (b.listener, s.putBody id b.close) := by
        simp [Store.close, hb, hclosed, hopen]
      rw [hclose, h.listener_eq]
      exact ⟨.closed hopen, _, Store.getElem?_putBody hb _, h.close⟩
  | false =>
      have hclose : s.close id = (none, s) := by
        simp [Store.close, hb, hclosed, hopen]
      rw [hclose]
      exact ⟨.closedBefore hopen, b, hb, h.close_of_not_isOpen hopen⟩

theorem answers_fail (h : l.Agrees b) (hb : s.bodies[id]? = some b) (cause : Cause) :
    l.Answers id (.fail id cause) (s.fail id cause) := by
  cases hfailure : l.failure with
  | none =>
      rw [Store.fail_first hb (h.failure_eq.trans hfailure), h.pending_eq, h.listener_eq]
      refine ⟨?_, _, Store.getElem?_putBody hb _, h.fail hfailure cause⟩
      rw [Access.upcalls, List.map_map]
      exact .failed hfailure
  | some first =>
      have hkept : l.after (.fail id cause) = l := by simp [after, hfailure]
      have hfailed : l.failure ≠ none := by
        rw [hfailure]
        exact Option.some_ne_none first
      rw [Store.fail_again hb (h.failure_eq.trans hfailure), Answers, hkept]
      exact ⟨.failedBefore hfailed, b, hb, h⟩

theorem answers (h : l.Agrees b) (hb : s.bodies[id]? = some b) {a : Access}
    (ha : a.object? = some (.body id)) : l.Answers id a (s.perform a) := by
  cases a with
  | offer other chunk =>
      cases ha
      exact h.answers_offer hb chunk
  | next other =>
      cases ha
      exact h.answers_next hb
  | acknowledge other =>
      cases ha
      exact h.answers_acknowledge hb
  | close other =>
      cases ha
      exact h.answers_close hb
  | fail other cause =>
      cases ha
      exact h.answers_fail hb cause
  | listen other listener =>
      cases ha
      have hlisten : s.perform (.listen id listener) = ((), s.putBody id (b.listen listener)) := by
        simp only [Store.perform, Store.listen, hb]
      rw [hlisten]
      exact ⟨.listened, _, Store.getElem?_putBody hb _, h.listen listener⟩
  | _ => nomatch ha

end Agrees

end Ledger

/-! ## What the log tells -/

namespace Ledger

def mark (l : Ledger) (id : Nat) : Mark → Ledger
  | .accessed a _ => if a.object? = some (.body id) then l.after a else l
  | _ => l

/-- How the ledger of a body stands after a log. -/
def ofLog (id : Nat) (log : Log) : Ledger := log.foldl (fun l entry => l.mark id entry.2) {}

@[simp] theorem ofLog_concat (id : Nat) (log : Log) (entry : Nat × Mark) :
    ofLog id (log ++ [entry]) = (ofLog id log).mark id entry.2 := by
  simp [ofLog]

theorem failure_mark {l : Ledger} (id : Nat) {m : Mark} (h : l.failure ≠ none) :
    (l.mark id m).failure = l.failure := by
  cases m with
  | accessed a reply =>
      simp only [mark]
      split
      · exact failure_after h a
      · rfl
  | _ => rfl

theorem failure_of_fail_mem {id caller : Nat} {log past : Log} {cause : Cause}
    {reply : (Access.fail id cause).Reply}
    (h : (past, caller, Mark.accessed (.fail id cause) reply) ∈ dated log) :
    (ofLog id log).failure ≠ none := by
  induction log using List.reverseRecOn with
  | nil => exact absurd h List.not_mem_nil
  | append_singleton log entry ih =>
      rw [dated_concat] at h
      rw [ofLog_concat]
      rcases List.mem_append.mp h with hpast | hlast
      · rw [failure_mark id (ih hpast)]
        exact ih hpast
      · obtain ⟨-, rfl⟩ := Prod.mk.inj (List.mem_singleton.mp hlast)
        simp only [mark, if_pos, Access.object?, after]
        split
        · exact Option.some_ne_none cause
        · assumption

end Ledger

namespace World

theorem Reachable.eq_errand_of_access {w : World} (h : w.Reachable) {id caller : Nat} {call : Call}
    {a : Access} {next : a.Reply → Course Response} {rest : List Frame}
    (hframes : w.frames caller = ⟨call, .working (.access a next)⟩ :: rest)
    (hobject : call.object? = some (.body id)) :
    call.access? = some a ∧ Course.access a next = a.errand := by
  obtain ⟨marks, -, -, hfollows, -⟩ := h.followed.exists_of_cons hframes
  obtain ⟨a', haccess, ⟨-, hfresh⟩ | ⟨before, reply, told, -, hfinish⟩⟩ :=
    Call.leads_errand hobject hfollows.leads
  · have herrand := Stage.working.inj hfresh
    obtain rfl : a = a' := (Course.access.inj herrand).1
    exact ⟨haccess, herrand⟩
  · exact absurd hfinish not_leads_access

/-- A call behind an upcall has had its access, which made that upcall due. -/
theorem Reachable.exists_access_of_waiting {w : World} (h : w.Reachable) {id caller : Nat}
    {frame : Frame} (hmem : frame ∈ w.frames caller) {u : Upcall}
    {next : Outcome Unit → Course Response} (hstage : frame.stage = .waiting u next)
    (hobject : frame.call.object? = some (.body id)) :
    ∃ past a reply made, (past, caller, Mark.accessed a reply) ∈ dated w.log ∧
      frame.call.access? = some a ∧ a.upcalls reply = made ++ u :: frame.stage.due := by
  obtain ⟨p, hfollows⟩ := h.followed.exists_passage hmem
  obtain ⟨a, haccess, ⟨-, hfresh⟩ | ⟨past, reply, told, hmarks, hfinish⟩⟩ :=
    Call.leads_errand hobject hfollows.leads
  · cases hstage.symm.trans hfresh
  · rw [hstage] at hfinish
    obtain ⟨made, hmade⟩ := exists_append_of_leads_waiting hfinish
    rw [← hstage] at hmade
    exact ⟨past, a, reply, made, hfollows.dated _ (hmarks ▸ List.mem_cons_self), haccess, hmade⟩

/-- Either the body has been made and agrees with the ledger, or nothing is known of it. -/
structure Kept (id : Nat) (w : World) : Prop where
  agrees : ∀ b, w.store.bodies[id]? = some b → (Ledger.ofLog id w.log).Agrees b
  blank : w.store.bodies[id]? = none → Ledger.ofLog id w.log = {}
  known : ∀ caller, ∀ frame ∈ w.frames caller, frame.call.object? = some (.body id) →
    ∃ b, w.store.bodies[id]? = some b

theorem exists_body_of_known {s : Store} {call : Call} {id : Nat} (h : call.Known s)
    (hobject : call.object? = some (.body id)) : ∃ b, s.bodies[id]? = some b := by
  have hlt : id < s.bodies.length := by
    cases call with
    | signal _ _ => nomatch hobject
    | settle _ _ => nomatch hobject
    | suppress _ _ => nomatch hobject
    | _ =>
        cases hobject
        exact h.1
  exact ⟨_, List.getElem?_eq_getElem hlt⟩

namespace Kept

variable {id : Nat} {w w' : World}

theorem of_same (h : w.Kept id) (hact : Act w w')
    (hstore : w'.store.bodies[id]? = w.store.bodies[id]?)
    (hledger : Ledger.ofLog id w'.log = Ledger.ofLog id w.log) : w'.Kept id := by
  refine ⟨?_, ?_, ?_⟩
  · rw [hstore, hledger]
    exact h.agrees
  · rw [hstore, hledger]
    exact h.blank
  · intro caller frame hmem hobject
    rw [hstore]
    rcases hact.exists_frame hmem with ⟨old, hold, hcall⟩ | hknown
    · exact h.known caller old hold (hcall ▸ hobject)
    · exact exists_body_of_known hknown hobject

theorem of_agrees {b : Body} (hb : w.store.bodies[id]? = some b)
    (hagrees : (Ledger.ofLog id w.log).Agrees b) : w.Kept id := by
  refine ⟨?_, ?_, fun _ _ _ _ => ⟨b, hb⟩⟩
  · intro b' hb'
    obtain rfl := Option.some.inj (hb.symm.trans hb')
    exact hagrees
  · intro hnone
    exact nomatch hb.symm.trans hnone

theorem act (hw : w.Reachable) (h : w.Kept id) (hact : Act w w') : w'.Kept id := by
  cases hact with
  | access hframes =>
      rename_i caller call a next rest
      by_cases ha : a.object? = some (.body id)
      · obtain ⟨b, hb⟩ := h.known caller _ (hframes ▸ List.mem_cons_self)
          (hw.object?_of_access hframes ha)
        obtain ⟨-, b', hb', hagrees⟩ := (h.agrees b hb).answers hb ha
        -- The call was entered when the body had been made, so there is a body to agree with.
        apply of_agrees hb'
        simpa only [put, Ledger.ofLog_concat, Ledger.mark, if_pos ha] using hagrees
      · apply h.of_same (.access hframes) (Store.getElem?_bodies_perform w.store ha)
        simp only [put, Ledger.ofLog_concat, Ledger.mark, if_neg ha]
  | create =>
      rename_i novelty
      rcases w.store.getElem?_bodies_add novelty id with hsame | ⟨hnone, hnew⟩
      · exact h.of_same .create hsame rfl
      · apply of_agrees hnew
        rw [h.blank hnone]
        exact .empty
  | enter hmay hknown => exact h.of_same (.enter hmay hknown) rfl (Ledger.ofLog_concat ..)
  | start hframes => exact h.of_same (.start hframes) rfl (Ledger.ofLog_concat ..)
  | stop hframes => exact h.of_same (.stop hframes) rfl (Ledger.ofLog_concat ..)
  | leave hframes => exact h.of_same (.leave hframes) rfl (Ledger.ofLog_concat ..)

end Kept

theorem Reachable.kept {w : World} (h : w.Reachable) (id : Nat) : w.Kept id := by
  induction h with
  | empty => exact ⟨nofun, fun _ => rfl, nofun⟩
  | act hw hact ih => exact ih.act hw hact

theorem Reachable.serves_of_frame {w : World} (h : w.Reachable) {id caller : Nat} {call : Call}
    {a : Access} {next : a.Reply → Course Response} {rest : List Frame}
    (hframes : w.frames caller = ⟨call, .working (.access a next)⟩ :: rest)
    (ha : a.object? = some (.body id)) :
    (Ledger.ofLog id w.log).Serves a (a.upcalls (w.store.perform a).1)
      (a.response (w.store.perform a).1) := by
  have hkept := h.kept id
  obtain ⟨b, hb⟩ := hkept.known caller _ (hframes ▸ List.mem_cons_self)
    (h.object?_of_access hframes ha)
  exact ((hkept.agrees b hb).answers hb ha).1

/-- Every access to a body brings what the ledger says at that moment. -/
theorem Reachable.serves {w : World} (h : w.Reachable) {id caller : Nat} {past : Log} {a : Access}
    {reply : a.Reply} (haccess : (past, caller, Mark.accessed a reply) ∈ dated w.log)
    (ha : a.object? = some (.body id)) :
    (Ledger.ofLog id past).Serves a (a.upcalls reply) (a.response reply) := by
  obtain ⟨v, hv, rfl, -, call, next, rest, hframes, rfl⟩ := h.exists_makes haccess
  exact hv.serves_of_frame hframes ha

end World

/-! ## Whole calls -/

/-- After its one access nothing is seen of the call but the upcalls that the ledger calls for at
that access, and it ends as they do. -/
inductive Passage.Served (id : Nat) : Passage → Outcome Response → Prop
  | intro {call a reply before us response told ended} (haccess : call.access? = some a)
      (hserves : (Ledger.ofLog id before).Serves a us response)
      (htold : Told us (told.map Prod.snd) ended) :
      Served id ⟨call, (before, .accessed a reply) :: told⟩ (ended.answering response)

theorem World.Reachable.exists_served {w : World} (h : w.Reachable) {id caller : Nat} {past : Log}
    {call : Call} {outcome : Outcome Response}
    (hleft : (past, caller, Mark.left call outcome) ∈ dated w.log)
    (hobject : call.object? = some (.body id)) :
    ∃ p others, passages caller past = p :: others ∧ p.call = call ∧ p.Served id outcome := by
  obtain ⟨marks, others, hpassages, hleads, hdated, hsub⟩ := h.exists_passage_of_left hleft
  refine ⟨_, others, hpassages, rfl, ?_⟩
  obtain ⟨a, haccess, ⟨-, hfresh⟩ | ⟨before, reply, told, rfl, hfinish⟩⟩ :=
    Call.leads_errand hobject hleads
  · cases hfresh
  · obtain ⟨ended, htold, rfl⟩ := told_of_leads hfinish
    have hserves := h.serves (hsub (hdated _ List.mem_cons_self))
      ((Call.object?_of_access? haccess).trans hobject)
    exact .intro haccess hserves htold

namespace Body

/-- At every moment of a run the queues and the count of a body agree with its ledger, and every
call about it that has been left was served as the ledger said. -/
theorem refines_ledger (moves : List Move) (id : Nat) :
    (∀ b, (World.after moves).store.bodies[id]? = some b →
      (Ledger.ofLog id (World.after moves).log).Agrees b ∧
        b.hasMore = (Ledger.ofLog id (World.after moves).log).hasMore ∧
          (b.inFlight ≠ [] → 0 < b.outstanding) ∧
            (b.outstanding = 0 ↔ (Ledger.ofLog id (World.after moves).log).pending = [])) ∧
      ∀ past caller call outcome,
        (past, caller, .left call outcome) ∈ dated (World.after moves).log →
          call.object? = some (.body id) →
            ∃ p others, passages caller past = p :: others ∧ p.call = call ∧
              p.Served id outcome := by
  have hreachable := World.reachable_after moves
  constructor
  · intro b hb
    have hagrees := (hreachable.kept id).agrees b hb
    refine ⟨hagrees, hagrees.hasMore_eq, ?_, hagrees.outstanding_eq_zero_iff⟩
    intro hflight
    rw [hagrees.outstanding_eq]
    exact Nat.add_pos_right _ (List.length_pos_of_ne_nil hflight)
  · intro past caller call outcome hleft hobject
    exact hreachable.exists_served hleft hobject

end Body

end OneShot
