import OneShot.Proofs.Calls.Object
import OneShot.Proofs.Calls.Passage
import Mathlib.Data.List.Infix
import Mathlib.Data.List.Induction
import Mathlib.Data.List.Nodup
import Mathlib.Data.List.Perm.Subperm

/-!
# The conduct of a call

What a protocol says of the course of a call holds of all that is seen of
the call in a run, whatever happens in between. And all that is seen belongs
to one call: no two calls of a caller have a mark of the log in common, be
they in progress or left.
-/

namespace OneShot

/-! ## Moments of a log -/

theorem mem_dated_iff {log past : Log} {entry : Nat × Mark} :
    (past, entry) ∈ dated log ↔ past ++ [entry] <+: log := by
  induction log using List.reverseRecOn with
  | nil => simp [dated, datedFrom]
  | append_singleton log last ih =>
      rw [dated_concat, List.mem_append, ih, List.mem_singleton, List.prefix_concat_iff, or_comm]
      apply or_congr_left
      constructor
      · intro hlast
        obtain ⟨rfl, rfl⟩ := Prod.mk.inj hlast
        rfl
      · intro hlast
        obtain ⟨rfl, hentry⟩ := List.append_inj' hlast rfl
        rw [List.head_eq_of_cons_eq hentry]

/-- Of two moments of a log one is the earlier, unless they are one. -/
theorem eq_or_prefix_of_mem_dated {log past past' : Log} {entry entry' : Nat × Mark}
    (h : (past, entry) ∈ dated log) (h' : (past', entry') ∈ dated log) :
    (past, entry) = (past', entry') ∨ past ++ [entry] <+: past' ∨ past' ++ [entry'] <+: past := by
  have hprefix := mem_dated_iff.mp h
  have hprefix' := mem_dated_iff.mp h'
  rcases List.prefix_or_prefix_of_prefix hprefix hprefix' with hle | hle
  · rcases List.prefix_concat_iff.mp hle with hsame | hearlier
    · obtain ⟨rfl, hentry⟩ := List.append_inj' hsame rfl
      rw [List.head_eq_of_cons_eq hentry]
      exact .inl rfl
    · exact .inr (.inl hearlier)
  · rcases List.prefix_concat_iff.mp hle with hsame | hearlier
    · obtain ⟨rfl, hentry⟩ := List.append_inj' hsame rfl
      rw [List.head_eq_of_cons_eq hentry]
      exact .inl rfl
    · exact .inr (.inr hearlier)

/-- What rules out for ever that it happens again happens at one moment only. -/
theorem eq_of_mem_dated {P : Log × Nat × Mark → Prop}
    (hlast : ∀ moment moment', P moment → P moment' → ¬ moment.1 ++ [moment.2] <+: moment'.1)
    {log : Log} {moment moment' : Log × Nat × Mark} (hmem : moment ∈ dated log)
    (hmem' : moment' ∈ dated log) (h : P moment) (h' : P moment') : moment = moment' := by
  rcases eq_or_prefix_of_mem_dated hmem hmem' with hsame | hbefore | hafter
  · exact hsame
  · exact absurd hbefore (hlast _ _ h h')
  · exact absurd hafter (hlast _ _ h' h)

/-! ## Along the course -/

namespace Course.Leads

variable {δ : Type} {p : Protocol δ} {call : Call} {course : Course Response} {marks : List Mark}
  {stage : Stage}

theorem exists_keeps (h : course.Leads marks stage) {d : δ}
    (hkeeps : course.Keeps p call p.Settles d) : ∃ d', stage.Keeps p call d' := by
  induction h generalizing d with
  | start course => exact ⟨d, hkeeps⟩
  | @access a next reply marks stage _ ih =>
      obtain ⟨d', -, hnext⟩ := hkeeps reply
      exact ih hnext
  | waiting u next =>
      obtain ⟨d', -, hback⟩ := hkeeps
      exact ⟨d', hback⟩
  | @upcall u next outcome marks stage _ ih =>
      obtain ⟨d', -, hback⟩ := hkeeps
      obtain ⟨d'', -, hnext⟩ := hback outcome
      exact ih hnext

theorem forall_of_only {P : Mark → Prop} {Q : Outcome Response → Unit → Prop}
    (h : course.Leads marks stage) (hkeeps : course.Keeps (.only P) call Q ()) :
    ∀ mark ∈ marks, P mark := by
  induction h with
  | start course => nofun
  | @access a next reply marks stage _ ih =>
      obtain ⟨_, hmark, hnext⟩ := hkeeps reply
      rw [List.forall_mem_cons]
      exact ⟨hmark, ih hnext⟩
  | waiting u next =>
      obtain ⟨_, hmark, -⟩ := hkeeps
      rw [List.forall_mem_singleton]
      exact hmark
  | @upcall u next outcome marks stage _ ih =>
      obtain ⟨_, hstart, hback⟩ := hkeeps
      obtain ⟨_, hstop, hnext⟩ := hback outcome
      rw [List.forall_mem_cons, List.forall_mem_cons]
      exact ⟨hstart, hstop, ih hnext⟩

/-- Where a course is done, its outcome is one that it can have. -/
theorem outcome_of_keeps {Q : Outcome Response → Unit → Prop} {P : Mark → Prop}
    {outcome : Outcome Response} (h : course.Leads marks (.working (.done outcome)))
    (hkeeps : course.Keeps (.only P) call Q ()) : Q outcome () := by
  generalize hstage : Stage.working (.done outcome) = stage at h
  induction h with
  | start course =>
      obtain rfl := Stage.working.inj hstage
      exact hkeeps
  | @access a next reply marks stage _ ih =>
      obtain ⟨_, -, hnext⟩ := hkeeps reply
      exact ih hnext hstage
  | waiting u next => nomatch hstage
  | @upcall u next outcome marks stage _ ih =>
      obtain ⟨_, -, hback⟩ := hkeeps
      obtain ⟨_, -, hnext⟩ := hback outcome
      exact ih hnext hstage

end Course.Leads

theorem Course.Within.of_leads {o : Option Object} {course : Course Response}
    (hwithin : course.Within o) {marks : List Mark} {stage : Stage}
    (h : course.Leads marks stage) : ∀ mark ∈ marks, mark.Within o :=
  h.forall_of_only (hwithin (.next 0))

namespace World

variable {w : World} {caller : Nat} {call : Call} {rest : List Frame} {o : Object}

theorem Reachable.exists_keeps {δ : Type} {p : Protocol δ} (hp : p.Kept) (h : w.Reachable)
    {stage : Stage} (hframes : w.frames caller = ⟨call, stage⟩ :: rest) :
    ∃ d, stage.Keeps p call d := by
  obtain ⟨marks, -, -, hfollows, -⟩ := h.followed.exists_of_cons hframes
  exact hfollows.leads.exists_keeps (hp call)

theorem Reachable.object?_of_access (h : w.Reachable) {a : Access}
    {next : a.Reply → Course Response}
    (hframes : w.frames caller = ⟨call, .working (.access a next)⟩ :: rest)
    (ha : a.object? = some o) : call.object? = some o := by
  obtain ⟨marks, -, -, hfollows, -⟩ := h.followed.exists_of_cons hframes
  have hleads := hfollows.leads.concat_accessed (w.store.perform a).1
  rcases call.within_course.of_leads hleads _ (List.mem_append_right _ List.mem_cons_self) with
    hnone | hsame
  · exact nomatch ha.symm.trans hnone
  · exact hsame.symm.trans ha

theorem Reachable.object?_of_upcall (h : w.Reachable) {u : Upcall}
    {next : Outcome Unit → Course Response}
    (hframes : w.frames caller = ⟨call, .working (.upcall u next)⟩ :: rest)
    (hu : u.object? = some o) : call.object? = some o := by
  obtain ⟨marks, -, -, hfollows, -⟩ := h.followed.exists_of_cons hframes
  have hleads := hfollows.leads.concat_started
  rcases call.within_course.of_leads hleads _ (List.mem_append_right _ List.mem_cons_self) with
    hnone | hsame
  · exact nomatch hu.symm.trans hnone
  · exact hsame.symm.trans hu

end World

/-! ## To each mark its call -/

/-- All that is seen of the calls that a caller has in progress. -/
def opened (caller : Nat) (log : Log) : List (Log × Mark) :=
  (passages caller log).flatMap Passage.marks

variable {caller : Nat} {log : Log}

theorem subperm_track (past : Log) (mark : Mark) (ps : List Passage) :
    ((track past mark ps).flatMap Passage.marks).Subperm
      (ps.flatMap Passage.marks ++ [(past, mark)]) := by
  have hput : ((ps.modifyHead (·.put past mark)).flatMap Passage.marks).Subperm
      (ps.flatMap Passage.marks ++ [(past, mark)]) := by
    cases ps with
    | nil => exact List.nil_subperm
    | cons p ps =>
        rw [List.modifyHead_cons, List.flatMap_cons, List.flatMap_cons, Passage.put,
          List.append_assoc, List.append_assoc]
        exact (List.perm_append_comm.append_left p.marks).subperm
  cases mark with
  | entered call => exact (List.sublist_append_left _ _).subperm
  | left call outcome =>
      apply List.Sublist.subperm
      refine .trans ?_ (List.sublist_append_left _ _)
      cases ps with
      | nil => exact .refl _
      | cons p ps => exact List.sublist_append_right _ _
  | accessed a reply => exact hput
  | started u => exact hput
  | ended u outcome => exact hput

/-- What is seen of the calls in progress is so much of the log. -/
theorem opened_subperm (caller : Nat) (log : Log) :
    (opened caller log).Subperm ((dated log).map fun moment => (moment.1, moment.2.2)) := by
  induction log using List.reverseRecOn with
  | nil => exact List.nil_subperm
  | append_singleton log entry ih =>
      obtain ⟨actor, mark⟩ := entry
      rw [dated_concat, List.map_append]
      by_cases hactor : actor = caller
      · subst hactor
        rw [opened, passages_concat_self]
        exact (subperm_track log mark _).trans ((List.subperm_append_right _).mpr ih)
      · rw [opened, passages_concat_of_ne hactor]
        exact ih.trans (List.sublist_append_left _ _).subperm

theorem prefix_of_mem_opened {m : Log × Mark} (h : m ∈ opened caller log) :
    ∃ entry, m.1 ++ [entry] <+: log := by
  obtain ⟨moment, hmoment, rfl⟩ := List.mem_map.mp ((opened_subperm caller log).subset h)
  exact ⟨moment.2, mem_dated_iff.mp hmoment⟩

theorem nodup_moments (log : Log) : ((dated log).map Prod.fst).Nodup := by
  induction log using List.reverseRecOn with
  | nil => exact List.nodup_nil
  | append_singleton log entry ih =>
      rw [dated_concat, List.map_append]
      refine ih.append (List.nodup_singleton _) (List.disjoint_singleton.mpr ?_)
      intro hmem
      obtain ⟨moment, hmoment, hsame⟩ := List.mem_map.mp hmem
      have hle := (mem_dated_iff.mp hmoment).length_le
      rw [hsame, List.length_append] at hle
      exact Nat.not_succ_le_self _ hle

theorem nodup_opened (caller : Nat) (log : Log) : (opened caller log).Nodup := by
  obtain ⟨part, hperm, hsub⟩ := opened_subperm caller log
  have hmoments : ((dated log).map fun moment => (moment.1, moment.2.2)).Nodup := by
    apply List.Nodup.of_map Prod.fst
    rw [List.map_map]
    exact nodup_moments log
  exact hperm.nodup_iff.mp (hmoments.sublist hsub)

theorem mem_opened_concat {entry : Nat × Mark} {m : Log × Mark}
    (h : m ∈ opened caller (log ++ [entry])) : m ∈ opened caller log ∨ m.1 = log := by
  obtain ⟨actor, mark⟩ := entry
  by_cases hactor : actor = caller
  · subst hactor
    rw [opened, passages_concat_self] at h
    rcases List.mem_append.mp ((subperm_track log mark _).subset h) with hold | hnew
    · exact .inl hold
    · exact .inr (congrArg Prod.fst (List.mem_singleton.mp hnew))
  · rw [opened, passages_concat_of_ne hactor] at h
    exact .inl h

/-- What is open of the marks of an earlier log was open then. -/
theorem mem_opened_of_append {more : Log} {m : Log × Mark}
    (h : m ∈ opened caller (log ++ more)) {entry : Nat × Mark} (hm : m.1 ++ [entry] <+: log) :
    m ∈ opened caller log := by
  induction more using List.reverseRecOn with
  | nil => rwa [List.append_nil] at h
  | append_singleton more last ih =>
      rw [← List.append_assoc] at h
      rcases mem_opened_concat h with hold | hnew
      · exact ih hold
      · have hle := hm.length_le
        rw [hnew, List.length_append, List.length_append, List.length_singleton] at hle
        omega

/-- Two calls of which the same mark has been seen are left at the same moment. -/
theorem left_once {past past' : Log} {call call' : Call} {outcome outcome' : Outcome Response}
    (h : (past, caller, Mark.left call outcome) ∈ dated log)
    (h' : (past', caller, Mark.left call' outcome') ∈ dated log)
    {p p' : Passage} {others others' : List Passage}
    (hpassages : passages caller past = p :: others)
    (hpassages' : passages caller past' = p' :: others') {m : Log × Mark} (hm : m ∈ p.marks)
    (hm' : m ∈ p'.marks) :
    (past, Mark.left call outcome) = (past', Mark.left call' outcome') := by
  -- A mark of a call that has been left is not open any more, nor will it be.
  have hapart {past past' : Log} {call : Call} {outcome : Outcome Response} {p p' : Passage}
      {others others' : List Passage} (hpassages : passages caller past = p :: others)
      (hpassages' : passages caller past' = p' :: others') (hm : m ∈ p.marks) (hm' : m ∈ p'.marks)
      (hlater : past ++ [(caller, Mark.left call outcome)] <+: past') : False := by
    obtain ⟨more, rfl⟩ := hlater
    have hopen : m ∈ opened caller past := by
      rw [opened, hpassages]
      exact List.mem_append_left _ hm
    have hlate : m ∈ opened caller (past ++ [(caller, .left call outcome)] ++ more) := by
      rw [opened, hpassages']
      exact List.mem_append_left _ hm'
    obtain ⟨entry, hentry⟩ := prefix_of_mem_opened hopen
    have hrest := mem_opened_of_append hlate (hentry.trans (List.prefix_append _ _))
    rw [opened, passages_concat_self, hpassages] at hrest
    have hnodup := nodup_opened caller past
    rw [opened, hpassages, List.flatMap_cons] at hnodup
    exact List.disjoint_of_nodup_append hnodup hm hrest
  rcases eq_or_prefix_of_mem_dated h h' with hsame | hbefore | hafter
  · obtain ⟨rfl, hentry⟩ := Prod.mk.inj hsame
    rw [(Prod.mk.inj hentry).2]
  · exact (hapart hpassages hpassages' hm hm' hbefore).elim
  · exact (hapart hpassages' hpassages hm' hm hafter).elim

end OneShot
