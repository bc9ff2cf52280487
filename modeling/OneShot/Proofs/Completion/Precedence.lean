import OneShot.Proofs.Calls.Effect
import OneShot.Proofs.Completion.Compound

/-!
# What runs before a completion

A sink that runs a closure before each ending it passes on hands aborts on as
they are. A latch inside it, if aborts reach it as such, completes only after
the closure has been called, whatever is sent to the whole from inside its
hooks.
-/

namespace OneShot

open Course

/-- What is seen of a run: an access, with the store that it finds, or a call out. -/
inductive Sight
  | accessed (a : Access) (found : Store)
  | called (u : Upcall)

/-- A run of the course, and what is seen of it. Upcalls may send signals to the sink `w`, and to
no other sink; besides the store may change at any time, as `aside` says. -/
inductive Proceeds (w : Sink) (aside : Store → Store → Prop) :
    {α : Type} → Course α → Store → List Sight → Outcome α → Store → Prop
  | done {α : Type} (outcome : Outcome α) (s : Store) :
      Proceeds w aside (.done outcome) s [] outcome s
  | access {α : Type} {a : Access} {next : a.Reply → Course α} {s s' : Store} {seen : List Sight}
      {outcome : Outcome α}
      (h : Proceeds w aside (next (s.perform a).1) (s.perform a).2 seen outcome s') :
      Proceeds w aside (.access a next) s (.accessed a s :: seen) outcome s'
  | upcall {α : Type} {u : Upcall} {next : Outcome Unit → Course α} {signals : List Signal}
      {s s' s'' : Store} {inside seen : List Sight} {answers : Outcome (List (Outcome Bool))}
      {outcome : Outcome α} (back : Outcome Unit)
      (hinside : Proceeds w aside (w.behaviour.deliverAll signals) s inside answers s')
      (h : Proceeds w aside (next back) s' seen outcome s'') :
      Proceeds w aside (.upcall u next) s (.called u :: (inside ++ seen)) outcome s''
  | aside {α : Type} {course : Course α} {s s' s'' : Store} {seen : List Sight}
      {outcome : Outcome α} (hchange : aside s s')
      (h : Proceeds w aside course s' seen outcome s'') :
      Proceeds w aside course s seen outcome s''

/-- Signals sent to the sink one after the other, each with what is seen of it. -/
inductive Hears (w : Sink) (aside : Store → Store → Prop) :
    List (Signal × List Sight) → Store → Prop
  | nil (s : Store) : Hears w aside [] s
  | cons {signal : Signal} {seen : List Sight} {answer : Outcome Bool} {s s' : Store}
      {heard : List (Signal × List Sight)}
      (h : Proceeds w aside (w.deliver signal) s seen answer s') (hrest : Hears w aside heard s') :
      Hears w aside ((signal, seen) :: heard) s

theorem Hears.exists_proceeds {w : Sink} {aside : Store → Store → Prop}
    {heard : List (Signal × List Sight)} {s : Store} (h : Hears w aside heard s) :
    ∀ entry ∈ heard, ∃ found answer left,
      Proceeds w aside (w.deliver entry.1) found entry.2 answer left := by
  induction h with
  | nil s => exact fun _ => nofun
  | cons hrun hrest ih => exact List.forall_mem_cons.mpr ⟨⟨_, _, _, hrun⟩, ih⟩

namespace Sink

/-- The leaves of a sink, however deep and behind whatever they stand. -/
def leaves : Sink → List Sink
  | ignore => []
  | latch id => [latch id]
  | gate id => [gate id]
  | cursor body => [cursor body]
  | pair success failure => [pair success failure]
  | plain inner | wrapped inner | before _ inner | after inner _ => inner.leaves
  | both first second => first.leaves ++ second.leaves

/-- Nothing in the sink takes an abort of the leaf for a failure. -/
def Exposes : Sink → Sink → Prop
  | ignore, _ | latch _, _ => True
  | gate id, leaf => leaf ≠ gate id
  | cursor body, leaf => leaf ≠ cursor body
  | pair success failure, leaf => leaf ≠ pair success failure
  | plain inner, leaf => leaf ∉ inner.leaves
  | wrapped inner, leaf | before _ inner, leaf | after inner _, leaf => inner.Exposes leaf
  | both first second, leaf => first.Exposes leaf ∧ second.Exposes leaf

/-- A leaf completes: a latch or a gate gets the outcome that it has lacked, a cursor or a pair of
closures is told of an ending. -/
def completes : Sink → Sight → Bool
  | latch id, .accessed a found =>
      !(found.stateOf id).isCompleted && ((found.perform a).2.stateOf id).isCompleted
  | gate id, .accessed a found =>
      !(found.gates[id]?.any Gate.isDone) && (found.perform a).2.gates[id]?.any Gate.isDone
  | cursor body, .accessed (.acknowledge other) _ => other = body
  | cursor body, .accessed (.fail other _) _ => other = body
  | pair success _, .called (.closure ⟨closure, .nothing⟩) => closure = success
  | pair _ failure, .called (.closure ⟨closure, .cause _⟩) => closure = failure
  | _, _ => false

end Sink

/-- Whenever the leaf completes, the closure has been called before. -/
def Precedes (closure : Closure) (leaf : Sink) (seen : List Sight) : Prop :=
  ∀ earlier sight later, seen = earlier ++ sight :: later → leaf.completes sight = true →
    .called (.closure ⟨closure, .nothing⟩) ∈ earlier

namespace Precedes

variable {closure : Closure} {leaf : Sink} {sight : Sight} {xs ys : List Sight}

theorem nil (closure : Closure) (leaf : Sink) : Precedes closure leaf [] := by
  intro earlier sight later h
  exact absurd h (by simp)

theorem append (hxs : Precedes closure leaf xs)
    (hys : .called (.closure ⟨closure, .nothing⟩) ∈ xs ∨ Precedes closure leaf ys) :
    Precedes closure leaf (xs ++ ys) := by
  intro earlier sight later h hcompletes
  rcases List.append_eq_append_iff.mp h with ⟨between, hearlier, hlater⟩ | ⟨between, hxs', hlater⟩
  · subst hearlier
    obtain hcalled | hys := hys
    · exact List.mem_append_left _ hcalled
    · exact List.mem_append_right _ (hys between sight later hlater hcompletes)
  · cases between with
    | nil =>
        rw [List.append_nil] at hxs'
        subst hxs'
        obtain hcalled | hys := hys
        · exact hcalled
        · have hnil := hys [] sight later hlater.symm hcompletes
          nomatch hnil
    | cons first between =>
        obtain ⟨rfl, -⟩ := List.cons.inj hlater
        exact hxs earlier sight between hxs' hcompletes

theorem singleton (h : leaf.completes sight = false) : Precedes closure leaf [sight] := by
  intro earlier other later heq hcompletes
  cases earlier with
  | nil =>
      obtain ⟨rfl, -⟩ := List.cons.inj heq
      rw [h] at hcompletes
      nomatch hcompletes
  | cons first earlier =>
      obtain ⟨-, hnil⟩ := List.cons.inj heq
      exact absurd hnil (by simp)

end Precedes

/-! ## What a course may do -/

/-- Where a signal stands with a latch: it has nothing under way, it runs the latch's abort hooks,
or the closure has been called. -/
inductive Standing
  | clear
  | aborting
  | begun

/-- Before the closure is called, only aborts are received by the latch, and only the abort that the
latch has stored is published. -/
inductive Standing.Step (closure : Closure) (id : Nat) : Standing → Mark → Standing → Prop
  | begin (d : Standing) : Step closure id d (.started (.closure ⟨closure, .nothing⟩)) .begun
  | begun (mark : Mark) : Step closure id .begun mark .begun
  | elsewhere (d : Standing) {mark : Mark}
      (h : ∀ a reply, mark = .accessed a reply → a.object? ≠ some (.latch id)) :
      Step closure id d mark d
  | late (c : Cause) {duty : Latch.Duty} (h : ∀ c', duty ≠ .abort c') :
      Step closure id .clear (.accessed (.receive id (.abort c)) duty) .clear
  | stored (c c' : Cause) :
      Step closure id .clear (.accessed (.receive id (.abort c)) (.abort c')) .aborting
  | published (completing : Bool) :
      Step closure id .aborting (.accessed (.publish id) completing) .clear

def guarding (closure : Closure) (id : Nat) : Protocol Standing where
  opens _ := .clear
  allows _ := Standing.Step closure id
  closes d := d ≠ .aborting

section Guarding

variable {α β : Type} {closure : Closure} {id : Nat}

namespace Course

/-- The course does nothing to the latch. -/
def Spares (closure : Closure) (id : Nat) (course : Course α) : Prop :=
  ∀ call d, course.Keeps (guarding closure id) call (fun _ d' => d' = d) d

/-- The course is through with the abort that it has the latch store, unless the closure is called
first. -/
def Guarded (closure : Closure) (id : Nat) (course : Course α) : Prop :=
  ∀ call d, d ≠ .aborting →
    course.Keeps (guarding closure id) call (fun _ d' => d' ≠ .aborting) d

theorem keeps_of_begun (call : Call) (course : Course α) :
    course.Keeps (guarding closure id) call (fun _ d' => d' ≠ .aborting) .begun := by
  induction course with
  | done outcome => nofun
  | access a next ih =>
      intro reply
      exact ⟨.begun, .begun _, ih reply⟩
  | upcall u next ih =>
      refine ⟨.begun, .begun _, ?_⟩
      intro outcome
      exact ⟨.begun, .begun _, ih outcome⟩

theorem spares_done (outcome : Outcome α) : (done outcome).Spares closure id := fun _ _ => rfl

theorem spares_call (u : Upcall) : (call u).Spares closure id :=
  fun _ d => ⟨d, .elsewhere d nofun, fun _ => ⟨d, .elsewhere d nofun, rfl⟩⟩

theorem Spares.bind {course : Course α} {f : α → Course β} (hcourse : course.Spares closure id)
    (hf : ∀ value, (f value).Spares closure id) : (course >>= f).Spares closure id := by
  intro call d
  apply (hcourse call d).bind
  · rintro value _ rfl
    exact hf value call _
  · rintro text _ rfl
    rfl

theorem Within.spares {o : Option Object} {course : Course α} (h : course.Within o)
    (hne : o ≠ some (.latch id)) : course.Spares closure id := by
  intro call d
  apply keeps_of_only (h call)
  · intro mark hmark
    apply Standing.Step.elsewhere
    rintro a reply rfl
    obtain hnone | hsame := hmark
    · rw [Mark.object?] at hnone
      rw [hnone]
      nofun
    · rw [Mark.object?] at hsame
      rw [hsame]
      exact hne
  · intro outcome
    rfl

theorem Guarded.bind {course : Course α} {f : α → Course β} (hcourse : course.Guarded closure id)
    (hf : ∀ value, (f value).Guarded closure id) : (course >>= f).Guarded closure id := by
  intro call d hd
  apply (hcourse call d hd).bind
  · intro value d' hd'
    exact hf value call d' hd'
  · intro text d' hd'
    exact hd'

theorem guarded_pure (value : α) : (pure value : Course α).Guarded closure id := fun _ _ hd => hd

theorem Spares.guarded {course : Course α} (h : course.Spares closure id) :
    course.Guarded closure id := by
  intro call d hd
  rw [← bind_pure course]
  apply (h call d).bind
  · rintro value _ rfl
    exact hd
  · rintro text _ rfl
    exact hd

theorem Guarded.attempt {course : Course α} (h : course.Guarded closure id) :
    course.attempt.Guarded closure id :=
  fun call d hd => (h call d hd).attempt

end Course

namespace Latch

theorem spares_callAll (other : Nat) (hooks : List Hook) :
    (callAll other hooks).Spares closure id := by
  induction hooks with
  | nil => exact spares_done _
  | cons hook hooks ih => exact (spares_call _).bind fun _ => ih

theorem keeps_guarding_aborting (call : Call) (cause : Cause) :
    (aborting id cause).Keeps (guarding closure id) call (fun _ d => d ≠ .aborting)
      .aborting := by
  have hstart (u : Upcall) : Standing.Step closure id .aborting (.started u) .aborting :=
    .elsewhere _ nofun
  have hend (u : Upcall) (outcome : Outcome Unit) :
      Standing.Step closure id .aborting (.ended u outcome) .aborting :=
    .elsewhere _ nofun
  refine ⟨_, hstart _, fun first => ⟨_, hend _ _, ?_⟩⟩
  refine ⟨_, hstart _, fun second => ⟨_, hend _ _, ?_⟩⟩
  intro completing
  refine ⟨.clear, .published completing, ?_⟩
  have hlast : (do done (first.and second); pure true : Course Bool).Guarded closure id :=
    (spares_done _).guarded.bind fun _ => guarded_pure true
  cases completing with
  | true => exact ((spares_call _).guarded.bind fun _ => hlast) call .clear nofun
  | false => exact hlast call .clear nofun

theorem guarded_abort (other : Nat) (cause : Cause) :
    (deliver other (.abort cause)).Guarded closure id := by
  by_cases hother : other = id
  · subst hother
    intro call d hd
    cases d with
    | aborting => exact absurd rfl hd
    | begun => exact keeps_of_begun call _
    | clear =>
        intro duty
        cases duty with
        | call hooks =>
            refine ⟨.clear, .late cause nofun, ?_⟩
            exact ((spares_callAll other hooks).guarded.bind fun _ => guarded_pure false)
              call .clear nofun
        | suppress keeper late hooks =>
            refine ⟨.clear, .late cause nofun, ?_⟩
            have hsuppress : (suppressing keeper late).Spares closure other :=
              (within_suppressing none keeper late).spares nofun
            exact (hsuppress.guarded.bind fun _ =>
              (spares_callAll other hooks).guarded.bind fun _ => guarded_pure false)
                call .clear nofun
        | abort stored =>
            exact ⟨.aborting, .stored cause stored, keeps_guarding_aborting call stored⟩
  · apply Spares.guarded
    apply (within_deliver other (.abort cause)).spares
    intro h
    exact hother (Object.latch.inj (Option.some.inj h))

end Latch

namespace Sink

theorem spares_finish {t : Sink} (h : latch id ∉ t.leaves) (ending : Ending) :
    (t.finish ending).Spares closure id := by
  induction t with
  | ignore => exact spares_done _
  | latch other =>
      have hne : other ≠ id := by
        rintro rfl
        exact h List.mem_cons_self
      apply Spares.bind
      · apply (Latch.within_deliver other (.finish ending)).spares
        intro heq
        exact hne (Object.latch.inj (Option.some.inj heq))
      · intro answer
        exact spares_done _
  | gate other => exact (within_touch (.inr rfl)).spares nofun
  | cursor body =>
      cases ending with
      | success => exact (Body.within_acknowledging body).spares nofun
      | failure cause =>
          exact ((Body.within_failing body cause).spares nofun).bind fun _ => spares_done _
  | pair success failure =>
      cases ending with
      | success => exact spares_call _
      | failure cause => exact spares_call _
  | plain inner ih => exact ih h
  | wrapped inner ih => exact ih h
  | both first second ihfirst ihsecond =>
      rw [leaves, List.mem_append, not_or] at h
      exact (ihfirst h.1).bind fun _ => ihsecond h.2
  | before _ inner ih => exact (spares_call _).bind fun _ => ih h
  | after inner _ ih => exact (ih h).bind fun _ => spares_call _

theorem guarded_failInstead {t : Sink} (h : latch id ∉ t.leaves) (cause : Cause) :
    (t.failInstead cause).Guarded closure id :=
  (spares_finish h _).guarded.bind fun _ => guarded_pure true

/-- An abort does nothing to a latch that it reaches but abort it. -/
theorem guarded_abort {t : Sink} (h : t.Exposes (latch id)) (cause : Cause) :
    (t.abort cause).Guarded closure id := by
  induction t with
  | ignore => exact guarded_pure false
  | latch other => exact Latch.guarded_abort other cause
  | gate other => exact guarded_failInstead (by simp [leaves]) cause
  | cursor body => exact guarded_failInstead (by simp [leaves]) cause
  | pair success failure => exact guarded_failInstead (by simp [leaves]) cause
  | plain inner => exact guarded_failInstead h cause
  | wrapped inner ih => exact ih h
  | both first second ihfirst ihsecond =>
      exact (ihfirst h.1).bind fun _ => (ihsecond h.2).bind fun _ => guarded_pure _
  | before _ inner ih => exact ih h
  | after inner _ ih => exact ih h

/-- Behind the closure everything is allowed, and nothing else precedes it. -/
theorem guarded_deliver {t : Sink} (h : t.Exposes (latch id)) (signal : Signal) :
    ((before closure t).deliver signal).Guarded closure id := by
  cases signal with
  | abort cause => exact guarded_abort h cause
  | finish ending =>
      intro call d _
      refine ⟨.begun, .begin d, ?_⟩
      intro outcome
      exact ⟨.begun, .begun _, keeps_of_begun call _⟩

theorem guarded_deliverAll {t : Sink} (h : t.Exposes (latch id)) (signals : List Signal) :
    ((before closure t).behaviour.deliverAll signals).Guarded closure id := by
  induction signals with
  | nil => exact guarded_pure []
  | cons signal signals ih =>
      rw [Behaviour.deliverAll, List.mapM_cons, deliver_behaviour]
      exact (guarded_deliver h signal).attempt.bind fun _ => ih.bind fun _ => guarded_pure _

end Sink

/-! ## Runs -/

/-- What a latch has come to since a signal found it `before`. While its abort hooks run it is as
the abort left it; with nothing under way it is as before, unless it was idle. -/
def Standing.Fits (before now : Latch.State) : Standing → Prop
  | clear => before ≠ .idle → now = before
  | aborting => before = .idle ∧ ∃ c, now = .aborting c false
  | begun => True

/-- What is sent from inside an upcall leaves a latch alone that is not idle. -/
theorem Standing.Fits.inside {d : Standing} {before now now' : Latch.State}
    (h : d.Fits before now) (hkept : now ≠ .idle → now' = now) : d.Fits before now' := by
  cases d with
  | clear =>
      intro hbefore
      have hnow := h hbefore
      exact (hkept (hnow ▸ hbefore)).trans hnow
  | aborting =>
      obtain ⟨hidle, c, rfl⟩ := h
      exact ⟨hidle, c, hkept nofun⟩
  | begun => trivial

theorem Standing.Step.eq {d d' : Standing} {mark : Mark} (h : Step closure id d mark d')
    (hbegun : d ≠ .begun) (hcall : mark ≠ .started (.closure ⟨closure, .nothing⟩))
    (haccess : ∀ a reply, mark ≠ .accessed a reply) : d' = d := by
  cases h with
  | begin => exact absurd rfl hcall
  | begun => exact absurd rfl hbegun
  | elsewhere => rfl
  | late => exact absurd rfl (haccess _ _)
  | stored => exact absurd rfl (haccess _ _)
  | published => exact absurd rfl (haccess _ _)

theorem Store.perform_abort (s : Store) (id : Nat) (c : Cause) :
    (s.stateOf id = .idle ∧ (s.perform (.receive id (.abort c))).1 = .abort c ∧
      (s.perform (.receive id (.abort c))).2.stateOf id = .aborting c false) ∨
    ((∀ c', (s.perform (.receive id (.abort c))).1 ≠ .abort c') ∧
      (s.perform (.receive id (.abort c))).2.stateOf id = s.stateOf id) := by
  by_cases hlt : id < s.latches.length
  · obtain ⟨hduty, hstate⟩ := perform_receive hlt (.abort c)
    rw [hduty, hstate]
    cases s.stateOf id with
    | idle => exact .inl ⟨rfl, rfl, rfl⟩
    | aborting c' completing => exact .inr ⟨by simp [Latch.State.receive], rfl⟩
    | aborted c' => exact .inr ⟨by simp [Latch.State.receive], rfl⟩
    | succeeded => exact .inr ⟨by simp [Latch.State.receive], rfl⟩
    | failed c' => exact .inr ⟨by simp [Latch.State.receive], rfl⟩
  · right
    have hnone : s.latches[id]? = none := List.getElem?_eq_none (Nat.le_of_not_lt hlt)
    simp [perform, receive, hnone]

theorem Sink.completes_of_stateOf_eq {a : Access} {s : Store}
    (h : (s.perform a).2.stateOf id = s.stateOf id) :
    (latch id).completes (.accessed a s) = false := by
  rw [completes, h, Bool.not_and_self]

theorem Sink.completes_of_isCompleted {a : Access} {s : Store}
    (h : ((s.perform a).2.stateOf id).isCompleted = false) :
    (latch id).completes (.accessed a s) = false := by
  rw [completes, h, Bool.and_false]

/-- An access that is allowed before the closure is called completes nothing. -/
theorem Standing.Step.fits {d d' : Standing} {a : Access} {s : Store} {before : Latch.State}
    (h : Step closure id d (.accessed a (s.perform a).1) d') (hbegun : d ≠ .begun)
    (hfits : d.Fits before (s.stateOf id)) :
    (Sink.latch id).completes (.accessed a s) = false ∧ d' ≠ .begun ∧
      d'.Fits before ((s.perform a).2.stateOf id) := by
  generalize hreply : (s.perform a).1 = reply at h
  cases h with
  | begun => exact absurd rfl hbegun
  | elsewhere _ h =>
      have hsame := s.stateOf_perform_of_ne (h a reply rfl)
      exact ⟨Sink.completes_of_stateOf_eq hsame, hbegun, hsame ▸ hfits⟩
  | late c hlate =>
      obtain ⟨-, hduty, -⟩ | ⟨-, hsame⟩ := s.perform_abort id c
      · exact absurd (hreply.symm.trans hduty) (hlate c)
      · exact ⟨Sink.completes_of_stateOf_eq hsame, nofun, hsame ▸ hfits⟩
  | stored c c' =>
      obtain ⟨hidle, -, hstored⟩ | ⟨hlate, -⟩ := s.perform_abort id c
      · refine ⟨Sink.completes_of_isCompleted (by rw [hstored]; rfl), nofun, ?_, c, hstored⟩
        by_contra hbefore
        exact hbefore ((hfits hbefore).symm.trans hidle)
      · exact absurd hreply (hlate c')
  | published completing =>
      obtain ⟨hidle, c, hnow⟩ := hfits
      have hstate := (s.perform_publish id).2
      rw [hnow] at hstate
      refine ⟨Sink.completes_of_isCompleted (by rw [hstate]; rfl), nofun, ?_⟩
      intro hbefore
      exact absurd hidle hbefore

variable {w : Sink} {aside : Store → Store → Prop}

/-- Whatever else the run does, a latch that nothing aside touches completes in it only after the
closure has been called; until then it is as the standing says. -/
theorem Proceeds.precedes {course : Course α} {s s' : Store} {seen : List Sight}
    {outcome : Outcome α} (h : Proceeds w aside course s seen outcome s')
    (hspares : ∀ s s', aside s s' → s'.stateOf id = s.stateOf id)
    (hinside : ∀ signals, (w.behaviour.deliverAll signals).Guarded closure id) {call : Call}
    {d : Standing} {before : Latch.State} (hbegun : d ≠ .begun)
    (hkeeps : course.Keeps (guarding closure id) call (fun _ d' => d' ≠ .aborting) d)
    (hfits : d.Fits before (s.stateOf id)) :
    Precedes closure (.latch id) seen ∧
      (.called (.closure ⟨closure, .nothing⟩) ∈ seen ∨
        (before ≠ .idle → s'.stateOf id = before)) := by
  induction h generalizing d before with
  | done outcome s =>
      refine ⟨.nil _ _, .inr ?_⟩
      cases d with
      | clear => exact hfits
      | aborting => exact absurd rfl hkeeps
      | begun => exact absurd rfl hbegun
  | access h ih =>
      obtain ⟨d', hstep, hnext⟩ := hkeeps _
      obtain ⟨hcompletes, hbegun', hfits'⟩ := hstep.fits hbegun hfits
      obtain ⟨hprecedes, hafter⟩ := ih hbegun' hnext hfits'
      exact ⟨(Precedes.singleton hcompletes).append (.inr hprecedes),
        hafter.imp_left (List.mem_cons_of_mem _)⟩
  | upcall back hrun h ihrun ih =>
      rename_i u next signals s s₁ s₂ inside seen answers outcome
      have hcall : Precedes closure (.latch id) [.called u] := .singleton rfl
      by_cases hu : u = .closure ⟨closure, .nothing⟩
      · subst hu
        exact ⟨hcall.append (.inl List.mem_cons_self), .inl List.mem_cons_self⟩
      · obtain ⟨d', hstart, hback⟩ := hkeeps
        obtain ⟨d'', hend, hnext⟩ := hback back
        obtain rfl := hstart.eq hbegun (fun h => hu (Mark.started.inj h)) nofun
        obtain rfl := hend.eq hbegun nofun nofun
        -- What is sent from inside begins anew, with nothing under way.
        obtain ⟨hprecedes, hafter⟩ :=
          ihrun (d := .clear) nofun (hinside signals call .clear nofun) fun _ => rfl
        obtain hcalled | hkept := hafter
        · exact ⟨hcall.append (.inr (hprecedes.append (.inl hcalled))),
            .inl (List.mem_cons_of_mem _ (List.mem_append_left _ hcalled))⟩
        · obtain ⟨hlater, hafter⟩ := ih hbegun hnext (hfits.inside hkept)
          exact ⟨hcall.append (.inr (hprecedes.append (.inr hlater))),
            hafter.imp_left fun h => List.mem_cons_of_mem _ (List.mem_append_right _ h)⟩
  | aside hchange h ih =>
      apply ih hbegun hkeeps
      rw [hspares _ _ hchange]
      exact hfits

theorem Proceeds.exists_called {u : Upcall} {next : Outcome Unit → Course α} {s s' : Store}
    {seen : List Sight} {outcome : Outcome α}
    (h : Proceeds w aside (.upcall u next) s seen outcome s') :
    ∃ behind, seen = .called u :: behind := by
  generalize hcourse : Course.upcall u next = course at h
  induction h with
  | done => nomatch hcourse
  | access => nomatch hcourse
  | upcall =>
      cases hcourse
      exact ⟨_, rfl⟩
  | aside _ _ ih => exact ih hcourse

end Guarding

end OneShot
