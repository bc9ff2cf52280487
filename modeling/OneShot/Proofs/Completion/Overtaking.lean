import OneShot.Proofs.Completion.Precedence
import OneShot.Proofs.Failure.Holder
import Mathlib.Data.Set.Finite.Basic

/-!
# What completes before the closure

A sink with a closure before it has its leaves complete behind the closure,
unless an abort is taken for a failure on the way to a leaf. That leaf then
completes at once. To see that it does, one looks at a run in which nobody
else does anything, from a store in which the leaf has yet to complete.
-/

namespace OneShot

open Course

/-! ## Runs in which nobody else does anything -/

namespace Course

variable {α β : Type}

/-- The run in which all upcalls do is come back. -/
def look : Course α → Store → List Sight × Outcome α × Store
  | done outcome, s => ([], outcome, s)
  | access a next, s =>
      let (seen, ending) := (next (s.perform a).1).look (s.perform a).2
      (.accessed a s :: seen, ending)
  | upcall u next, s =>
      let (seen, ending) := (next (.returned ())).look s
      (.called u :: seen, ending)

theorem look_bind (course : Course α) (f : α → Course β) (s : Store) :
    (course >>= f).look s =
      match course.look s with
      | (seen, .returned value, s) => (seen ++ ((f value).look s).1, ((f value).look s).2)
      | (seen, .panicked text, s) => (seen, .panicked text, s) := by
  induction course generalizing s with
  | done outcome => cases outcome <;> rfl
  | access a next ih =>
      rw [access_bind, look, look, ih]
      obtain ⟨seen, outcome, s'⟩ := (next (s.perform a).1).look (s.perform a).2
      cases outcome <;> rfl
  | upcall u next ih =>
      rw [upcall_bind, look, look, ih]
      obtain ⟨seen, outcome, s'⟩ := (next (.returned ())).look s
      cases outcome <;> rfl

/-- The course panics only with an upcall. -/
def Unfailing : Course α → Prop
  | done outcome => ∃ value, outcome = .returned value
  | access _ next => ∀ reply, (next reply).Unfailing
  | upcall _ next => (next (.returned ())).Unfailing

theorem unfailing_pure (value : α) : (pure value : Course α).Unfailing := ⟨value, rfl⟩

theorem unfailing_touch (a : Access) : (touch a).Unfailing := fun reply => ⟨reply, rfl⟩

theorem unfailing_call (u : Upcall) : (call u).Unfailing := ⟨(), rfl⟩

theorem Unfailing.bind {course : Course α} {f : α → Course β} (h : course.Unfailing)
    (hf : ∀ value, (f value).Unfailing) : (course >>= f).Unfailing := by
  induction course with
  | done outcome =>
      obtain ⟨value, rfl⟩ := h
      exact hf value
  | access a next ih => exact fun reply => ih reply (h reply)
  | upcall u next ih => exact ih _ h

theorem Unfailing.exists_look {course : Course α} (h : course.Unfailing) (s : Store) :
    ∃ seen value s', course.look s = (seen, .returned value, s') := by
  induction course generalizing s with
  | done outcome =>
      obtain ⟨value, rfl⟩ := h
      exact ⟨[], value, s, rfl⟩
  | access a next ih =>
      obtain ⟨seen, value, s', hlook⟩ := ih _ (h _) (s.perform a).2
      exact ⟨.accessed a s :: seen, value, s', by rw [look, hlook]⟩
  | upcall u next ih =>
      obtain ⟨seen, value, s', hlook⟩ := ih _ h s
      exact ⟨.called u :: seen, value, s', by rw [look, hlook]⟩

end Course

def Sink.lookAll (w : Sink) : List Signal → Store → List (Signal × List Sight)
  | [], _ => []
  | signal :: signals, s =>
      let (seen, _, s) := (w.deliver signal).look s
      (signal, seen) :: w.lookAll signals s

section Looking

variable {w : Sink} {aside : Store → Store → Prop}

theorem proceeds_look {α : Type} (course : Course α) (s : Store) :
    Proceeds w aside course s (course.look s).1 (course.look s).2.1 (course.look s).2.2 := by
  induction course generalizing s with
  | done outcome => exact .done outcome s
  | access a next ih => exact .access (ih _ _)
  | upcall u next ih =>
      have hinside : Proceeds w aside (w.behaviour.deliverAll []) s [] (.returned []) s :=
        .done _ s
      exact .upcall _ hinside (ih _ _)

theorem hears_lookAll (signals : List Signal) (s : Store) :
    Hears w aside (w.lookAll signals s) s := by
  induction signals generalizing s with
  | nil => exact .nil s
  | cons signal signals ih => exact .cons (proceeds_look _ s) (ih _)

end Looking

/-! ## Nothing panics by itself -/

namespace Latch

theorem unfailing_callAll (id : Nat) (hooks : List Hook) : (callAll id hooks).Unfailing := by
  induction hooks with
  | nil => exact unfailing_pure ()
  | cons hook hooks ih => exact (unfailing_call _).bind fun _ => ih

theorem unfailing_suppressing (keeper : Cause) (late : Option Cause) :
    (suppressing keeper late).Unfailing := by
  cases late with
  | none => exact unfailing_pure ()
  | some late => exact unfailing_touch _

theorem unfailing_aborting (id : Nat) (cause : Cause) : (aborting id cause).Unfailing := by
  intro completing
  cases completing with
  | true => exact ⟨true, rfl⟩
  | false => exact ⟨true, rfl⟩

theorem unfailing_deliver (id : Nat) (signal : Signal) : (deliver id signal).Unfailing := by
  intro duty
  cases duty with
  | call hooks => exact (unfailing_callAll id hooks).bind fun _ => unfailing_pure false
  | suppress keeper late hooks =>
      exact (unfailing_suppressing keeper late).bind fun _ =>
        (unfailing_callAll id hooks).bind fun _ => unfailing_pure false
  | abort cause => exact unfailing_aborting id cause

end Latch

namespace Body

theorem unfailing_notify (id : Nat) (listener : Option Closure) :
    (notify id listener).Unfailing := by
  cases listener with
  | none => exact unfailing_pure ()
  | some listener => exact unfailing_call _

theorem unfailing_failAll (id : Nat) (cause : Cause) (sinks : List Sink) :
    (failAll id cause sinks).Unfailing := by
  induction sinks with
  | nil => exact unfailing_pure ()
  | cons sink sinks ih => exact (unfailing_call _).bind fun _ => ih

theorem unfailing_failing (id : Nat) (cause : Cause) : (failing id cause).Unfailing := by
  intro fallout
  cases fallout with
  | none => exact unfailing_pure false
  | some fallout =>
      exact (unfailing_failAll id cause fallout.sinks).bind fun _ =>
        (unfailing_notify id fallout.listener).bind fun _ => unfailing_pure true

theorem unfailing_acknowledging (id : Nat) : (acknowledging id).Unfailing := by
  intro sink
  cases sink with
  | none => exact unfailing_pure ()
  | some sink => exact unfailing_call _

end Body

namespace Sink

theorem unfailing_finish (t : Sink) (ending : Ending) : (t.finish ending).Unfailing := by
  induction t with
  | ignore => exact unfailing_pure ()
  | latch id => exact (Latch.unfailing_deliver id _).bind fun _ => unfailing_pure ()
  | gate id => exact unfailing_touch _
  | cursor body =>
      cases ending with
      | success => exact Body.unfailing_acknowledging body
      | failure cause => exact (Body.unfailing_failing body cause).bind fun _ => unfailing_pure ()
  | pair success failure =>
      cases ending with
      | success => exact unfailing_call _
      | failure cause => exact unfailing_call _
  | plain inner ih => exact ih
  | wrapped inner ih => exact ih
  | both first second ihfirst ihsecond => exact ihfirst.bind fun _ => ihsecond
  | before closure inner ih => exact (unfailing_call _).bind fun _ => ih
  | after inner closure ih => exact ih.bind fun _ => unfailing_call _

theorem unfailing_failInstead (t : Sink) (cause : Cause) : (t.failInstead cause).Unfailing :=
  (t.unfailing_finish _).bind fun _ => unfailing_pure true

theorem unfailing_abort (t : Sink) (cause : Cause) : (t.abort cause).Unfailing := by
  induction t with
  | ignore => exact unfailing_pure false
  | latch id => exact Latch.unfailing_deliver id _
  | gate id => exact unfailing_failInstead _ cause
  | cursor body => exact unfailing_failInstead _ cause
  | pair success failure => exact unfailing_failInstead _ cause
  | plain inner => exact unfailing_failInstead _ cause
  | wrapped inner ih => exact ih
  | both first second ihfirst ihsecond =>
      exact ihfirst.bind fun _ => ihsecond.bind fun _ => unfailing_pure _
  | before closure inner ih => exact ih
  | after inner closure ih => exact ih

/-! ## What completes a leaf -/

/-- The leaf has yet to complete. An aborted latch waits for an ending only; cursors and pairs can
be told of any number of them. -/
def Lacks : Sink → Store → Prop
  | latch id, s => ∃ c, s.stateOf id = .aborted c
  | gate id, s => id < s.gates.length ∧ s.gates[id]?.any Gate.isDone = false
  | _, _ => True

theorem exists_lacks (leaf : Sink) : ∃ s, leaf.Lacks s := by
  cases leaf with
  | latch id =>
      refine ⟨{ latches := List.replicate (id + 1) { state := .aborted default } }, default, ?_⟩
      simp [Store.stateOf]
  | gate id =>
      refine ⟨{ gates := List.replicate (id + 1) {} }, ?_⟩
      simp [Lacks, Gate.isDone]
  | _ => exact ⟨{}, trivial⟩

variable {leaf : Sink} {s : Store}

theorem Lacks.perform (h : leaf.Lacks s) (a : Access) :
    leaf.completes (.accessed a s) = true ∨ leaf.Lacks (s.perform a).2 := by
  cases leaf with
  | latch id =>
      obtain ⟨c, hstate⟩ := h
      by_cases hobject : a.object? = some (.latch id)
      · cases a with
        | receive other signal =>
            cases hobject
            have hlt : id < s.latches.length := Store.lt_of_ne_idle (by simp [hstate])
            have hnext := (Store.perform_receive hlt signal).2
            rw [hstate] at hnext
            cases signal with
            | finish ending =>
                left
                rw [completes, hnext, hstate]
                rfl
            | abort late => exact .inr ⟨c, hnext⟩
        | publish other =>
            cases hobject
            have hnext := (s.perform_publish id).2
            rw [hstate] at hnext
            exact .inr ⟨c, hnext⟩
        | _ => cases hobject
      · exact .inr ⟨c, (s.stateOf_perform_of_ne hobject).trans hstate⟩
  | gate id =>
      obtain ⟨hlt, hshut⟩ := h
      cases hdone : (s.perform a).2.gates[id]?.any Gate.isDone with
      | true =>
          left
          rw [completes, hshut, hdone]
          rfl
      | false => exact .inr ⟨Nat.lt_of_lt_of_le hlt (s.grown_perform a).gates, hdone⟩
  | _ => exact .inr trivial

theorem lacks_look {α : Type} (course : Course α) (h : leaf.Lacks s) :
    (∃ sight ∈ (course.look s).1, leaf.completes sight = true) ∨
      leaf.Lacks (course.look s).2.2 := by
  induction course generalizing s with
  | done outcome => exact .inr h
  | access a next ih =>
      obtain hcompletes | hlacks := h.perform a
      · exact .inl ⟨_, List.mem_cons_self, hcompletes⟩
      · obtain ⟨sight, hsight, hcompletes⟩ | hlacks := ih (s.perform a).1 hlacks
        · exact .inl ⟨sight, List.mem_cons_of_mem _ hsight, hcompletes⟩
        · exact .inr hlacks
  | upcall u next ih =>
      obtain ⟨sight, hsight, hcompletes⟩ | hlacks := ih (.returned ()) h
      · exact .inl ⟨sight, List.mem_cons_of_mem _ hsight, hcompletes⟩
      · exact .inr hlacks

end Sink

theorem Gate.isDone_settle (g : Gate) (ending : Ending) : (g.settle ending).isDone = true := by
  rw [settle]
  split
  · rfl
  · rename_i hfirst
    rw [isDone, hfirst]
    rfl

namespace Course

variable {α β : Type} {leaf : Sink}

/-- The leaf completes in the run in which nobody else does anything. -/
def Completes (leaf : Sink) (course : Course α) : Prop :=
  ∀ s, leaf.Lacks s → ∃ sight ∈ (course.look s).1, leaf.completes sight = true

theorem completes_touch {a : Access}
    (h : ∀ s, leaf.Lacks s → leaf.completes (.accessed a s) = true) : (touch a).Completes leaf :=
  fun s hs => ⟨_, List.mem_cons_self, h s hs⟩

theorem completes_call {u : Upcall} (h : leaf.completes (.called u) = true) :
    (call u).Completes leaf :=
  fun _ _ => ⟨_, List.mem_cons_self, h⟩

theorem Completes.bind {course : Course α} (h : course.Completes leaf) (f : α → Course β) :
    (course >>= f).Completes leaf := by
  intro s hs
  obtain ⟨sight, hsight, hcompletes⟩ := h s hs
  refine ⟨sight, ?_, hcompletes⟩
  rw [look_bind]
  split
  · rename_i hlook
    rw [hlook] at hsight
    exact List.mem_append_left _ hsight
  · rename_i hlook
    rw [hlook] at hsight
    exact hsight

theorem Unfailing.completes_bind {course : Course α} {f : α → Course β} (h : course.Unfailing)
    (hf : ∀ value, (f value).Completes leaf) : (course >>= f).Completes leaf := by
  intro s hs
  obtain ⟨seen, value, s', hlook⟩ := h.exists_look s
  have hleft := Sink.lacks_look course hs
  rw [hlook] at hleft
  rw [look_bind, hlook]
  -- If the leaf has not completed yet, the second course finds it waiting still.
  obtain ⟨sight, hsight, hcompletes⟩ | hlacks := hleft
  · exact ⟨sight, List.mem_append_left _ hsight, hcompletes⟩
  · obtain ⟨sight, hsight, hcompletes⟩ := hf value s' hlacks
    exact ⟨sight, List.mem_append_right _ hsight, hcompletes⟩

end Course

namespace Sink

variable {leaf t : Sink}

theorem completes_finish (h : leaf ∈ t.leaves) (ending : Ending) :
    (t.finish ending).Completes leaf := by
  induction t with
  | ignore => nomatch h
  | latch id =>
      obtain rfl := List.mem_singleton.mp h
      have hreceive : (touch (.receive id (.finish ending))).Completes (latch id) := by
        apply completes_touch
        rintro s ⟨c, hstate⟩
        have hlt : id < s.latches.length := Store.lt_of_ne_idle (by simp [hstate])
        rw [completes, (Store.perform_receive hlt _).2, hstate]
        rfl
      exact (hreceive.bind _).bind _
  | gate id =>
      obtain rfl := List.mem_singleton.mp h
      apply completes_touch
      rintro s ⟨hlt, hshut⟩
      have hgates := Store.gates_settle (List.getElem?_eq_getElem hlt) ending
      rw [completes, hshut, Store.perform, hgates, List.getElem?_set_self hlt]
      exact Gate.isDone_settle _ ending
  | cursor body =>
      obtain rfl := List.mem_singleton.mp h
      cases ending with
      | success =>
          have htold : (touch (.acknowledge body)).Completes (cursor body) :=
            completes_touch fun _ _ => decide_eq_true rfl
          exact htold.bind _
      | failure cause =>
          have htold : (touch (.fail body cause)).Completes (cursor body) :=
            completes_touch fun _ _ => decide_eq_true rfl
          exact (htold.bind _).bind _
  | pair success failure =>
      obtain rfl := List.mem_singleton.mp h
      cases ending with
      | success => exact completes_call (decide_eq_true rfl)
      | failure cause => exact completes_call (decide_eq_true rfl)
  | plain inner ih => exact ih h
  | wrapped inner ih => exact ih h
  | both first second ihfirst ihsecond =>
      obtain hfirst | hsecond := List.mem_append.mp h
      · exact (ihfirst hfirst).bind _
      · exact (first.unfailing_finish ending).completes_bind fun _ => ihsecond hsecond
  | before closure inner ih => exact (unfailing_call _).completes_bind fun _ => ih h
  | after inner closure ih => exact (ih h).bind _

theorem completes_failInstead (h : leaf ∈ t.leaves) (cause : Cause) :
    (t.failInstead cause).Completes leaf :=
  (completes_finish h _).bind _

/-- An abort that is taken for a failure on its way to the leaf completes it. -/
theorem completes_abort (h : ¬ t.Exposes leaf) (cause : Cause) :
    (t.abort cause).Completes leaf := by
  induction t with
  | ignore => exact absurd trivial h
  | latch id => exact absurd trivial h
  | gate id =>
      obtain rfl := not_ne_iff.mp h
      exact completes_failInstead List.mem_cons_self cause
  | cursor body =>
      obtain rfl := not_ne_iff.mp h
      exact completes_failInstead List.mem_cons_self cause
  | pair success failure =>
      obtain rfl := not_ne_iff.mp h
      exact completes_failInstead List.mem_cons_self cause
  | plain inner => exact completes_failInstead (t := plain inner) (not_not.mp h) cause
  | wrapped inner ih => exact ih h
  | both first second ihfirst ihsecond =>
      obtain hfirst | hsecond := not_and_or.mp h
      · exact (ihfirst hfirst).bind _
      · exact (first.unfailing_abort cause).completes_bind fun _ => (ihsecond hsecond).bind _
  | before closure inner ih => exact ih h
  | after inner closure ih => exact ih h

/-- Nothing but a latch is told of an abort as such. -/
theorem Exposes.exists_latch (h : t.Exposes leaf) (hmem : leaf ∈ t.leaves) :
    ∃ id, leaf = latch id := by
  induction t with
  | ignore => nomatch hmem
  | latch id => exact ⟨id, List.mem_singleton.mp hmem⟩
  | gate id => exact absurd (List.mem_singleton.mp hmem) h
  | cursor body => exact absurd (List.mem_singleton.mp hmem) h
  | pair success failure => exact absurd (List.mem_singleton.mp hmem) h
  | plain inner => exact absurd hmem h
  | wrapped inner ih => exact ih h hmem
  | both first second ihfirst ihsecond =>
      obtain hfirst | hsecond := List.mem_append.mp hmem
      · exact ihfirst h.1 hfirst
      · exact ihsecond h.2 hsecond
  | before closure inner ih => exact ih h hmem
  | after inner closure ih => exact ih h hmem

/-! ## Waiting for the closure -/

theorem exists_not_called (seen : List Sight) :
    ∃ closure : Closure, .called (.closure ⟨closure, .nothing⟩) ∉ seen := by
  have hinjective : Function.Injective fun closure : Closure =>
      Sight.called (.closure ⟨closure, .nothing⟩) := by
    rintro closure other h
    cases h
    rfl
  obtain ⟨_, ⟨closure, rfl⟩, hclosure⟩ :=
    (Set.infinite_range_of_injective hinjective).exists_notMem_finite seen.finite_toSet
  exact ⟨closure, hclosure⟩

/-- Whatever signals are sent to the sink with a closure before it, and to nothing else, the leaf
completes during none of them before the closure has been called. -/
def Awaits (t : Sink) (aside : Store → Store → Prop) (leaf : Sink) : Prop :=
  ∀ closure heard s, Hears (before closure t) aside heard s →
    ∀ entry ∈ heard, Precedes closure leaf entry.2

variable {aside : Store → Store → Prop}

theorem awaits_latch {id : Nat} (h : t.Exposes (latch id))
    (hspares : ∀ s s', aside s s' → s'.stateOf id = s.stateOf id) :
    t.Awaits aside (latch id) := by
  intro closure heard s hheard entry hentry
  obtain ⟨found, answer, s', hrun⟩ := hheard.exists_proceeds entry hentry
  have hguarded : ((before closure t).deliver entry.1).Guarded closure id :=
    guarded_deliver h entry.1
  exact (hrun.precedes (d := .clear) hspares (guarded_deliverAll h) nofun
    (hguarded (.next 0) .clear nofun) fun _ => rfl).1

theorem not_awaits (h : ¬ t.Exposes leaf) : ¬ t.Awaits aside leaf := by
  intro hawaits
  obtain ⟨s, hs⟩ := leaf.exists_lacks
  obtain ⟨sight, hsight, hcompletes⟩ := completes_abort h default s hs
  -- The run does not depend on the closure, so one can be chosen that it does not call.
  generalize hseen : ((t.abort default).look s).1 = seen at hsight
  obtain ⟨closure, hclosure⟩ := exists_not_called seen
  have hheard : Hears (before closure t) aside [(.abort default, seen)] s := by
    rw [← hseen]
    exact hears_lookAll [.abort default] s
  have hprecedes := hawaits closure _ s hheard _ List.mem_cons_self
  obtain ⟨earlier, later, hsplit⟩ := List.append_of_mem hsight
  apply hclosure
  rw [hsplit]
  exact List.mem_append_left _ (hprecedes earlier sight later hsplit hcompletes)

end Sink

/-- Whatever signals are sent to a sink with a closure before it, and to nothing else: an ending
calls the closure first of all. The leaves that complete only behind the closure are the latches
that aborts reach as such, and no others. -/
theorem runs_before (t : Sink) {aside : Store → Store → Prop}
    (hspares : ∀ id, .latch id ∈ t.leaves → ∀ s s', aside s s' → s'.stateOf id = s.stateOf id) :
    (∀ closure heard s, Hears (.before closure t) aside heard s →
      ∀ ending seen, (.finish ending, seen) ∈ heard →
        ∃ behind, seen = .called (.closure ⟨closure, .nothing⟩) :: behind) ∧
    ∀ leaf ∈ t.leaves, t.Awaits aside leaf ↔ ∃ id, leaf = .latch id ∧ t.Exposes (.latch id) := by
  constructor
  · intro closure heard s hheard ending seen hentry
    obtain ⟨found, answer, s', hrun⟩ := hheard.exists_proceeds _ hentry
    exact hrun.exists_called
  · intro leaf hmem
    constructor
    · intro hawaits
      have hexposes : t.Exposes leaf := by
        by_contra h
        exact Sink.not_awaits h hawaits
      obtain ⟨id, rfl⟩ := hexposes.exists_latch hmem
      exact ⟨id, rfl, hexposes⟩
    · rintro ⟨id, rfl, hexposes⟩
      exact Sink.awaits_latch hexposes (hspares id hmem)

def lateCause : Cause := ⟨0, .message "late"⟩

/-- A latch that aborts reach, and closures that take an abort for a failure. -/
def latchAndPair : Sink := .both (.latch 0) (.pair 1 2)

/-- The latch is aborted and completes when the work ends, behind the closure; the pair does not
wait for it. -/
theorem runs_before_latchAndPair :
    (∀ id, .latch id ∈ latchAndPair.leaves →
        ∀ s s' : Store, s = s' → s'.stateOf id = s.stateOf id) ∧
      latchAndPair.Awaits (· = ·) (.latch 0) ∧ ¬ latchAndPair.Awaits (· = ·) (.pair 1 2) ∧
      ∃ entry ∈ (Sink.before 0 latchAndPair).lookAll [.abort lateCause, .finish .success]
        { latches := [{}] }, ∃ sight ∈ entry.2, (Sink.latch 0).completes sight = true := by
  have hspares : ∀ id, .latch id ∈ latchAndPair.leaves →
      ∀ s s' : Store, s = s' → s'.stateOf id = s.stateOf id := by
    rintro id - s _ rfl
    rfl
  obtain ⟨-, hleaves⟩ := runs_before latchAndPair hspares
  refine ⟨hspares, ?_, ?_, by decide⟩
  · exact (hleaves (.latch 0) (by decide)).mpr ⟨0, rfl, trivial, nofun⟩
  · intro hawaits
    obtain ⟨id, hid, -⟩ := (hleaves (.pair 1 2) (by decide)).mp hawaits
    nomatch hid

/-- An abort fails a pair of closures, and nothing is called before. -/
theorem not_runs_before_every_completion :
    ¬ ∀ (closure : Closure) (t : Sink) (signal : Signal) (seen : List Sight)
        (answer : Outcome Bool) (s s' : Store),
      Proceeds (.before closure t) (· = ·) ((Sink.before closure t).deliver signal)
        s seen answer s' →
      ∀ leaf ∈ t.leaves, Precedes closure leaf seen := by
  intro h
  have hrun : Proceeds (.before 0 (.pair 1 2)) (· = ·)
      ((Sink.before 0 (.pair 1 2)).deliver (.abort lateCause)) {}
      [.called (.closure ⟨2, .cause lateCause⟩)] (.returned true) {} :=
    proceeds_look _ _
  have hprecedes := h _ _ _ _ _ _ _ hrun (.pair 1 2) List.mem_cons_self
  have hcalled := hprecedes [] _ [] rfl (by decide)
  nomatch hcalled

end OneShot
