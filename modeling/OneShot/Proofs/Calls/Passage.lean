import OneShot.Proofs.Calls.World
import Mathlib.Data.List.Forall2

/-!
# Passages

What is seen of one call, from its entering to its leaving, is its passage.
The log alone tells the passages of the calls in progress, and each passage
goes along the course of its call.
-/

namespace OneShot

/-! ## Acts -/

/-- What a move does, if it does anything. -/
inductive Act (w : World) : World → Prop
  | enter {caller call} (hmay : mayEnter (w.frames caller) = true) (hknown : call.Known w.store) :
      Act w (w.put caller (⟨call, .working call.course⟩ :: w.frames caller) (.entered call))
  | access {caller call a next rest}
      (hframes : w.frames caller = ⟨call, .working (.access a next)⟩ :: rest) :
      Act w ({ w with store := (w.store.perform a).2 }.put caller
        (⟨call, .working (next (w.store.perform a).1)⟩ :: rest)
        (.accessed a (w.store.perform a).1))
  | start {caller call u next rest}
      (hframes : w.frames caller = ⟨call, .working (.upcall u next)⟩ :: rest) :
      Act w (w.put caller (⟨call, .waiting u next⟩ :: rest) (.started u))
  | stop {caller call u next rest outcome}
      (hframes : w.frames caller = ⟨call, .waiting u next⟩ :: rest) :
      Act w (w.put caller (⟨call, .working (next outcome)⟩ :: rest) (.ended u outcome))
  | leave {caller call outcome rest}
      (hframes : w.frames caller = ⟨call, .working (.done outcome)⟩ :: rest) :
      Act w (w.put caller rest (.left call outcome))
  | create {novelty} : Act w { w with store := w.store.add novelty }

namespace World

theorem step_eq_or_act (w : World) (move : Move) : w.step move = w ∨ Act w (w.step move) := by
  cases move with
  | enter caller call =>
      by_cases hallowed : mayEnter (w.frames caller) ∧ call.Known w.store
      · simp only [step, if_pos hallowed]
        exact .inr (.enter hallowed.1 hallowed.2)
      · left
        simp only [step, if_neg hallowed]
  | advance caller =>
      simp only [step]
      split
      · rename_i hframes
        exact .inr (.leave hframes)
      · rename_i hframes
        exact .inr (.access hframes)
      · rename_i hframes
        exact .inr (.start hframes)
      · exact .inl rfl
  | comeBack caller outcome =>
      simp only [step]
      split
      · rename_i hframes
        exact .inr (.stop hframes)
      · exact .inl rfl
  | create novelty => exact .inr .create

inductive Reachable : World → Prop
  | empty : Reachable {}
  | act {w w'} (h : Reachable w) (hact : Act w w') : Reachable w'

theorem reachable_after (moves : List Move) : Reachable (after moves) := by
  have hrun (w : World) (hw : Reachable w) : Reachable (moves.foldl step w) := by
    induction moves generalizing w with
    | nil => exact hw
    | cons move moves ih =>
        apply ih
        rcases w.step_eq_or_act move with hsame | hchanged
        · rwa [hsame]
        · exact hw.act hchanged
  exact hrun {} .empty

end World

/-! ## Logs -/

abbrev Log := List (Nat × Mark)

def datedFrom (past : Log) : Log → List (Log × Nat × Mark)
  | [] => []
  | entry :: log => (past, entry) :: datedFrom (past ++ [entry]) log

/-- The entries of a log, each with the log before it. -/
def dated (log : Log) : List (Log × Nat × Mark) := datedFrom [] log

@[simp] theorem dated_concat (log : Log) (entry : Nat × Mark) :
    dated (log ++ [entry]) = dated log ++ [(log, entry)] := by
  have hfrom (past : Log) :
      datedFrom past (log ++ [entry]) = datedFrom past log ++ [(past ++ log, entry)] := by
    induction log generalizing past with
    | nil => simp [datedFrom]
    | cons first log ih => simp [datedFrom, ih]
  exact hfrom []

theorem mem_of_mem_datedFrom {log past before : Log} {entry : Nat × Mark}
    (h : (past, entry) ∈ datedFrom before log) : entry ∈ log := by
  induction log generalizing before with
  | nil => nomatch h
  | cons first log ih =>
      rcases List.mem_cons.mp h with hfirst | hlater
      · obtain ⟨-, rfl⟩ := Prod.mk.inj hfirst
        exact List.mem_cons_self
      · exact List.mem_cons_of_mem _ (ih hlater)

theorem mem_of_mem_dated {log past : Log} {entry : Nat × Mark} (h : (past, entry) ∈ dated log) :
    entry ∈ log :=
  mem_of_mem_datedFrom h

theorem Act.log_eq {w w' : World} (h : Act w w') :
    w'.log = w.log ∨ ∃ entry, w'.log = w.log ++ [entry] := by
  cases h with
  | create => exact .inl rfl
  | _ => exact .inr ⟨_, rfl⟩

/-- How a caller stands when a mark of it is made. -/
def World.Makes (w : World) (caller : Nat) : Mark → Prop
  | .entered call => mayEnter (w.frames caller) = true ∧ call.Known w.store
  | .accessed a reply =>
      ∃ call next rest, w.frames caller = ⟨call, .working (.access a next)⟩ :: rest ∧
        reply = (w.store.perform a).1
  | .started u => ∃ call next rest, w.frames caller = ⟨call, .working (.upcall u next)⟩ :: rest
  | .ended u _ => ∃ call next rest, w.frames caller = ⟨call, .waiting u next⟩ :: rest
  | .left call outcome => ∃ rest, w.frames caller = ⟨call, .working (.done outcome)⟩ :: rest

theorem Act.makes {w w' : World} (h : Act w w') {caller : Nat} {mark : Mark}
    (hlog : w'.log = w.log ++ [(caller, mark)]) : w.Makes caller mark := by
  have hentry {entry : Nat × Mark} (hput : w.log ++ [entry] = w.log ++ [(caller, mark)]) :
      entry = (caller, mark) :=
    List.head_eq_of_cons_eq (List.append_cancel_left hput)
  cases h with
  | enter hmay hknown =>
      obtain ⟨rfl, rfl⟩ := Prod.mk.inj (hentry hlog)
      exact ⟨hmay, hknown⟩
  | access hframes =>
      obtain ⟨rfl, rfl⟩ := Prod.mk.inj (hentry hlog)
      exact ⟨_, _, _, hframes, rfl⟩
  | start hframes =>
      obtain ⟨rfl, rfl⟩ := Prod.mk.inj (hentry hlog)
      exact ⟨_, _, _, hframes⟩
  | stop hframes =>
      obtain ⟨rfl, rfl⟩ := Prod.mk.inj (hentry hlog)
      exact ⟨_, _, _, hframes⟩
  | leave hframes =>
      obtain ⟨rfl, rfl⟩ := Prod.mk.inj (hentry hlog)
      exact ⟨_, hframes⟩
  | create => exact absurd (List.self_eq_append_right.mp hlog) (List.cons_ne_nil _ _)

theorem Act.store_eq_perform {w w' : World} (h : Act w w') {caller : Nat} {a : Access}
    {reply : a.Reply} (hlog : w'.log = w.log ++ [(caller, .accessed a reply)]) :
    w'.store = (w.store.perform a).2 := by
  cases h with
  | create => exact absurd (List.self_eq_append_right.mp hlog) (List.cons_ne_nil _ _)
  | access hframes =>
      have hentry := List.singleton_inj.mp (List.append_cancel_left hlog)
      simp only [Prod.mk.injEq, Mark.accessed.injEq] at hentry
      rw [← hentry.2.1]
      rfl
  | _ => cases List.singleton_inj.mp (List.append_cancel_left hlog)

theorem Act.exists_frame {w w' : World} (h : Act w w') {caller : Nat} {frame : Frame}
    (hmem : frame ∈ w'.frames caller) :
    (∃ old ∈ w.frames caller, old.call = frame.call) ∨ frame.call.Known w.store := by
  have hput {actor : Nat} {opened : List Frame}
      (hmem : frame ∈ Function.update w.frames actor opened caller)
      (hopened : frame ∈ opened →
        (∃ old ∈ w.frames actor, old.call = frame.call) ∨ frame.call.Known w.store) :
      (∃ old ∈ w.frames caller, old.call = frame.call) ∨ frame.call.Known w.store := by
    by_cases hactor : caller = actor
    · subst hactor
      rw [Function.update_self] at hmem
      exact hopened hmem
    · rw [Function.update_of_ne hactor] at hmem
      exact .inl ⟨frame, hmem, rfl⟩
  have hgoOn {actor : Nat} {call : Call} {stage stage' : Stage} {rest : List Frame}
      (hframes : w.frames actor = ⟨call, stage⟩ :: rest)
      (hmem : frame ∈ (⟨call, stage'⟩ : Frame) :: rest) :
      (∃ old ∈ w.frames actor, old.call = frame.call) ∨ frame.call.Known w.store := by
    rw [hframes]
    rcases List.mem_cons.mp hmem with rfl | hrest
    · exact .inl ⟨_, List.mem_cons_self, rfl⟩
    · exact .inl ⟨frame, List.mem_cons_of_mem _ hrest, rfl⟩
  cases h with
  | enter hmay hknown =>
      apply hput hmem
      intro hopened
      rcases List.mem_cons.mp hopened with rfl | hold
      · exact .inr hknown
      · exact .inl ⟨frame, hold, rfl⟩
  | access hframes => exact hput hmem (hgoOn hframes)
  | start hframes => exact hput hmem (hgoOn hframes)
  | stop hframes => exact hput hmem (hgoOn hframes)
  | leave hframes =>
      apply hput hmem
      intro hrest
      exact .inl ⟨frame, hframes ▸ List.mem_cons_of_mem _ hrest, rfl⟩
  | create => exact .inl ⟨frame, hmem, rfl⟩

/-- Every mark was made in a world whose log came before it. -/
theorem World.Reachable.exists_makes {w : World} (h : w.Reachable) {past : Log} {caller : Nat}
    {mark : Mark} (hentry : (past, caller, mark) ∈ dated w.log) :
    ∃ v : World, v.Reachable ∧ v.log = past ∧ dated past ⊆ dated w.log ∧ v.Makes caller mark := by
  induction h with
  | empty => exact absurd hentry List.not_mem_nil
  | @act w w' hw hact ih =>
      rcases hact.log_eq with hsame | ⟨last, hlog⟩
      · rw [hsame] at hentry ⊢
        exact ih hentry
      · have hgrown : dated w.log ⊆ dated w'.log := by
          rw [hlog, dated_concat]
          exact List.subset_append_left _ _
        rw [hlog, dated_concat] at hentry
        rcases List.mem_append.mp hentry with hpast | hlast
        · obtain ⟨v, hv, hbefore, hsub, hmakes⟩ := ih hpast
          exact ⟨v, hv, hbefore, List.Subset.trans hsub hgrown, hmakes⟩
        · obtain ⟨rfl, rfl⟩ := Prod.mk.inj (List.mem_singleton.mp hlast)
          exact ⟨w, hw, rfl, hgrown, hact.makes hlog⟩

/-- A call in progress, with the marks of its course so far, each with the log before it. -/
structure Passage where
  call : Call
  marks : List (Log × Mark)

def Passage.put (p : Passage) (past : Log) (mark : Mark) : Passage :=
  ⟨p.call, p.marks ++ [(past, mark)]⟩

/-- A mark that is neither an entering nor a leaving belongs to the innermost call. -/
def track (past : Log) : Mark → List Passage → List Passage
  | .entered call, passages => ⟨call, []⟩ :: passages
  | .left _ _, passages => passages.tail
  | mark, passages => passages.modifyHead (·.put past mark)

/-- The passages of the calls that a caller has in progress, the innermost first. -/
def passages (caller : Nat) (log : Log) : List Passage :=
  (dated log).foldl (fun passages entry =>
    if entry.2.1 = caller then track entry.1 entry.2.2 passages else passages) []

@[simp] theorem passages_concat_self (caller : Nat) (log : Log) (mark : Mark) :
    passages caller (log ++ [(caller, mark)]) = track log mark (passages caller log) := by
  simp [passages]

theorem passages_concat_of_ne {caller other : Nat} (h : other ≠ caller) (log : Log) (mark : Mark) :
    passages caller (log ++ [(other, mark)]) = passages caller log := by
  simp [passages, h]

/-! ## Along the course -/

inductive Course.Leads : Course Response → List Mark → Stage → Prop
  | start (course) : Leads course [] (.working course)
  | access {a next reply marks stage} (h : Leads (next reply) marks stage) :
      Leads (.access a next) (.accessed a reply :: marks) stage
  | waiting (u next) : Leads (.upcall u next) [.started u] (.waiting u next)
  | upcall {u next outcome marks stage} (h : Leads (next outcome) marks stage) :
      Leads (.upcall u next) (.started u :: .ended u outcome :: marks) stage

namespace Course.Leads

variable {course : Course Response} {marks : List Mark}

theorem concat_accessed {a : Access} {next : a.Reply → Course Response}
    (h : course.Leads marks (.working (.access a next))) (reply : a.Reply) :
    course.Leads (marks ++ [.accessed a reply]) (.working (next reply)) := by
  generalize hstage : Stage.working (.access a next) = stage at h
  induction h with
  | start course =>
      obtain rfl := Stage.working.inj hstage
      exact .access (.start _)
  | access _ ih => exact .access (ih hstage)
  | waiting u next => nomatch hstage
  | upcall _ ih => exact .upcall (ih hstage)

theorem concat_started {u : Upcall} {next : Outcome Unit → Course Response}
    (h : course.Leads marks (.working (.upcall u next))) :
    course.Leads (marks ++ [.started u]) (.waiting u next) := by
  generalize hstage : Stage.working (.upcall u next) = stage at h
  induction h with
  | start course =>
      obtain rfl := Stage.working.inj hstage
      exact .waiting u next
  | access _ ih => exact .access (ih hstage)
  | waiting u next => nomatch hstage
  | upcall _ ih => exact .upcall (ih hstage)

theorem concat_ended {u : Upcall} {next : Outcome Unit → Course Response}
    (h : course.Leads marks (.waiting u next)) (outcome : Outcome Unit) :
    course.Leads (marks ++ [.ended u outcome]) (.working (next outcome)) := by
  generalize hstage : Stage.waiting u next = stage at h
  induction h with
  | start course => nomatch hstage
  | access _ ih => exact .access (ih hstage)
  | waiting u next =>
      obtain ⟨rfl, rfl⟩ := Stage.waiting.inj hstage
      exact .upcall (.start _)
  | upcall _ ih => exact .upcall (ih hstage)

/-- A course of one access makes no other. -/
theorem eq_of_touch {a a' : Access} {f : a.Reply → Response} {next : a'.Reply → Course Response}
    (h : (do return f (← touch a) : Course Response).Leads marks (.working (.access a' next))) :
    a' = a := by
  generalize hstage : Stage.working (.access a' next) = stage at h
  cases h with
  | start => exact (Course.access.inj (Stage.working.inj hstage)).1
  | access hrest =>
      cases hrest
      cases hstage

end Course.Leads

structure Frame.Follows (caller : Nat) (log : Log) (frame : Frame) (p : Passage) : Prop where
  call_eq : p.call = frame.call
  leads : frame.call.course.Leads (p.marks.map Prod.snd) frame.stage
  dated : ∀ m ∈ p.marks, (m.1, caller, m.2) ∈ dated log

/-- The frames of every caller stand where the passages of the log have led. -/
def Followed (frames : Nat → List Frame) (log : Log) : Prop :=
  ∀ caller, List.Forall₂ (Frame.Follows caller log) (frames caller) (passages caller log)

theorem Frame.Follows.concat {caller : Nat} {log : Log} {frame : Frame} {p : Passage}
    (h : frame.Follows caller log p) (entry : Nat × Mark) :
    frame.Follows caller (log ++ [entry]) p := by
  refine ⟨h.call_eq, h.leads, ?_⟩
  intro m hm
  rw [dated_concat]
  exact List.mem_append_left _ (h.dated m hm)

namespace Followed

variable {frames : Nat → List Frame} {log : Log} {caller : Nat} {mark : Mark}

theorem put (h : Followed frames log) {opened : List Frame}
    (hopened : List.Forall₂ (Frame.Follows caller (log ++ [(caller, mark)])) opened
      (track log mark (passages caller log))) :
    Followed (Function.update frames caller opened) (log ++ [(caller, mark)]) := by
  intro other
  by_cases hother : other = caller
  · subst hother
    rw [Function.update_self, passages_concat_self]
    exact hopened
  · rw [Function.update_of_ne hother, passages_concat_of_ne (Ne.symm hother)]
    exact (h other).imp fun _ _ hfollows => hfollows.concat _

theorem exists_of_cons (h : Followed frames log) {call : Call} {stage : Stage} {rest : List Frame}
    (hframes : frames caller = ⟨call, stage⟩ :: rest) :
    ∃ marks others, passages caller log = ⟨call, marks⟩ :: others ∧
      Frame.Follows caller log ⟨call, stage⟩ ⟨call, marks⟩ ∧
        List.Forall₂ (Frame.Follows caller log) rest others := by
  have hcaller := h caller
  rw [hframes] at hcaller
  obtain ⟨⟨called, marks⟩, others, hfirst, hothers, hpassages⟩ :=
    List.forall₂_cons_left_iff.mp hcaller
  obtain rfl : called = call := hfirst.call_eq
  exact ⟨marks, others, hpassages, hfirst, hothers⟩

theorem exists_passage (h : Followed frames log) {frame : Frame} (hmem : frame ∈ frames caller) :
    ∃ p, frame.Follows caller log p := by
  have hcaller := h caller
  generalize frames caller = opened at hcaller hmem
  generalize passages caller log = ps at hcaller
  induction hcaller with
  | nil => nomatch hmem
  | cons hfirst _ ih =>
      rcases List.mem_cons.mp hmem with rfl | hrest
      · exact ⟨_, hfirst⟩
      · exact ih hrest

theorem goOn (h : Followed frames log) {call : Call} {stage stage' : Stage} {rest : List Frame}
    (hframes : frames caller = ⟨call, stage⟩ :: rest)
    (htrack : ∀ p ps, track log mark (p :: ps) = p.put log mark :: ps)
    (hleads : ∀ {marks}, call.course.Leads marks stage →
      call.course.Leads (marks ++ [mark]) stage') :
    Followed (Function.update frames caller (⟨call, stage'⟩ :: rest)) (log ++ [(caller, mark)]) := by
  obtain ⟨marks, others, hpassages, hfirst, hothers⟩ := h.exists_of_cons hframes
  apply h.put
  rw [hpassages, htrack]
  refine .cons ⟨rfl, ?_, ?_⟩ (hothers.imp fun _ _ hfollows => hfollows.concat _)
  · simpa only [Passage.put, List.map_append, List.map_cons, List.map_nil] using
      hleads hfirst.leads
  · intro m hm
    rw [dated_concat]
    rcases List.mem_append.mp hm with hpast | hlast
    · exact List.mem_append_left _ (hfirst.dated m hpast)
    · rw [List.mem_singleton.mp hlast]
      exact List.mem_append_right _ (List.mem_singleton_self _)

theorem act {w w' : World} (h : Followed w.frames w.log) (hact : Act w w') :
    Followed w'.frames w'.log := by
  cases hact with
  | enter hmay hknown =>
      apply h.put
      exact .cons ⟨rfl, .start _, nofun⟩ ((h _).imp fun _ _ hfollows => hfollows.concat _)
  | access hframes =>
      exact h.goOn hframes (fun _ _ => rfl) fun hleads => hleads.concat_accessed _
  | start hframes => exact h.goOn hframes (fun _ _ => rfl) fun hleads => hleads.concat_started
  | stop hframes => exact h.goOn hframes (fun _ _ => rfl) fun hleads => hleads.concat_ended _
  | leave hframes =>
      obtain ⟨marks, others, hpassages, -, hothers⟩ := h.exists_of_cons hframes
      apply h.put
      rw [hpassages]
      exact hothers.imp fun _ _ hfollows => hfollows.concat _
  | create => exact h

end Followed

namespace World

theorem Reachable.followed {w : World} (h : w.Reachable) : Followed w.frames w.log := by
  induction h with
  | empty => exact fun _ => .nil
  | act _ hact ih => exact ih.act hact

/-- Every call but the innermost is behind an upcall. -/
theorem Reachable.waiting_of_mem_tail {w : World} (h : w.Reachable) {caller : Nat} {frame : Frame}
    (hmem : frame ∈ (w.frames caller).tail) : ∃ u next, frame.stage = .waiting u next := by
  induction h with
  | empty => nomatch hmem
  | @act w w' hw hact ih =>
      have hput {actor : Nat} {opened : List Frame}
          (hmem : frame ∈ (Function.update w.frames actor opened caller).tail)
          (hopened : caller = actor → frame ∈ opened.tail →
            ∃ u next, frame.stage = .waiting u next) :
          ∃ u next, frame.stage = .waiting u next := by
        by_cases hactor : caller = actor
        · subst hactor
          rw [Function.update_self] at hmem
          exact hopened rfl hmem
        · rw [Function.update_of_ne hactor] at hmem
          exact ih hmem
      have hbehind {actor : Nat} {first : Frame} {rest : List Frame}
          (hframes : w.frames actor = first :: rest) (hactor : caller = actor)
          (hrest : frame ∈ rest) : ∃ u next, frame.stage = .waiting u next := by
        apply ih
        rw [hactor, hframes]
        exact hrest
      cases hact with
      | enter hmay hknown =>
          -- The frame that was innermost is waiting, or the call could not have been made.
          apply hput hmem
          intro hactor hold
          subst hactor
          generalize hframes : w.frames caller = frames at hmay hold
          match frames, hmay with
          | ⟨_, .waiting u next⟩ :: rest, _ =>
              rcases List.mem_cons.mp hold with rfl | hrest
              · exact ⟨u, next, rfl⟩
              · exact hbehind hframes rfl hrest
      | access hframes => exact hput hmem (hbehind hframes)
      | start hframes => exact hput hmem (hbehind hframes)
      | stop hframes => exact hput hmem (hbehind hframes)
      | leave hframes =>
          apply hput hmem
          intro hactor hrest
          exact hbehind hframes hactor (List.mem_of_mem_tail hrest)
      | create => exact ih hmem

/-- The passage of a call that is left has led to the end of its course. -/
theorem Reachable.exists_passage_of_left {w : World} (h : w.Reachable) {past : Log} {caller : Nat}
    {call : Call} {outcome : Outcome Response}
    (hleft : (past, caller, Mark.left call outcome) ∈ dated w.log) :
    ∃ marks others, passages caller past = ⟨call, marks⟩ :: others ∧
      call.course.Leads (marks.map Prod.snd) (.working (.done outcome)) ∧
        (∀ m ∈ marks, (m.1, caller, m.2) ∈ dated past) ∧ dated past ⊆ dated w.log := by
  obtain ⟨v, hv, rfl, hsub, rest, hframes⟩ := h.exists_makes hleft
  obtain ⟨marks, others, hpassages, hfollows, -⟩ := hv.followed.exists_of_cons hframes
  exact ⟨marks, others, hpassages, hfollows.leads, hfollows.dated, hsub⟩

end World

end OneShot
