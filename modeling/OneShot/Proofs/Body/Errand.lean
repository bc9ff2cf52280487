import OneShot.Proofs.Calls.Object
import OneShot.Proofs.Calls.Passage
import OneShot.Proofs.Completion.Progress

/-!
# Errands

Every call about a body is an errand: one access, then the upcalls that the
reply makes due, one after the other, and in the end the response. The first
upcall that panics ends the errand, and those behind it are never made.
-/

namespace OneShot

namespace Body

def listening (id : Nat) (listener : Option Closure) : List Upcall :=
  listener.toList.map (.listener id)

end Body

/-- The upcalls that a reply makes due. -/
def Access.upcalls : (a : Access) → a.Reply → List Upcall
  | .offer id _, .accepted listener => Body.listening id listener
  | .offer id chunk, .rejected cause => [.chunk id chunk.sink (.failure cause)]
  | .acknowledge id, sink => sink.toList.map (.chunk id · .success)
  | .close id, listener => Body.listening id listener
  | .fail _ _, none => []
  | .fail id cause, some fallout =>
      fallout.sinks.map (.chunk id · (.failure cause)) ++ Body.listening id fallout.listener
  | _, _ => []

theorem Body.object?_of_mem_listening {id : Nat} {listener : Option Closure} {u : Upcall}
    (h : u ∈ listening id listener) : u.object? = some (.body id) := by
  obtain ⟨closure, -, rfl⟩ := List.mem_map.mp h
  rfl

theorem Access.object?_of_mem_upcalls {a : Access} {reply : a.Reply} {u : Upcall}
    (h : u ∈ a.upcalls reply) : u.object? = a.object? := by
  cases a with
  | offer id chunk =>
      cases reply with
      | accepted listener => exact Body.object?_of_mem_listening h
      | rejected cause =>
          rw [List.mem_singleton.mp h]
          rfl
  | acknowledge id =>
      obtain ⟨sink, -, rfl⟩ := List.mem_map.mp h
      rfl
  | close id => exact Body.object?_of_mem_listening h
  | fail id cause =>
      cases reply with
      | none => nomatch h
      | some fallout =>
          rcases List.mem_append.mp h with hchunk | hlistener
          · obtain ⟨sink, -, rfl⟩ := List.mem_map.mp hchunk
            rfl
          · exact Body.object?_of_mem_listening hlistener
  | _ => nomatch h

theorem Access.length_upcalls_le {a : Access} (h : ∀ id cause, a ≠ .fail id cause)
    (reply : a.Reply) : (a.upcalls reply).length ≤ 1 := by
  have hoption {α : Type} (value : Option α) (f : α → Upcall) :
      (value.toList.map f).length ≤ 1 := by
    rw [List.length_map]
    exact Option.length_toList_le
  cases a with
  | offer id chunk =>
      cases reply with
      | accepted listener => exact hoption listener _
      | rejected cause => exact Nat.le_refl 1
  | acknowledge id => exact hoption reply _
  | close id => exact hoption reply _
  | fail id cause => exact absurd rfl (h id cause)
  | _ => exact Nat.zero_le 1

/-- What the caller is answered once the upcalls have come back. -/
def Access.response : (a : Access) → a.Reply → Response
  | .offer _ _, .accepted _ => .truth true
  | .offer _ _, .rejected _ => .truth false
  | .next _, answer => .octets answer
  | .fail _ _, fallout => .truth fallout.isSome
  | _, _ => .nothing

/-- The one access of a call about a body. -/
def Call.access? : Call → Option Access
  | .offer id chunk => some (.offer id chunk)
  | .next id => some (.next id)
  | .acknowledge id => some (.acknowledge id)
  | .close id => some (.close id)
  | .fail id cause => some (.fail id cause)
  | .listen id listener => some (.listen id listener)
  | .signal _ _ | .settle _ _ | .suppress _ _ => none

theorem Call.exists_access {call : Call} {id : Nat} (h : call.object? = some (.body id)) :
    ∃ a, call.access? = some a := by
  cases call with
  | signal _ _ => nomatch h
  | settle _ _ => nomatch h
  | suppress _ _ => nomatch h
  | _ => exact ⟨_, rfl⟩

theorem Call.object?_of_access? {call : Call} {a : Access} (h : call.access? = some a) :
    a.object? = call.object? := by
  cases call <;> cases h <;> rfl

namespace Course

/-- Upcalls made one after the other, until one panics. -/
def tellAll : List Upcall → Course Unit
  | [] => pure ()
  | u :: us => do
      call u
      tellAll us

theorem tellAll_append (us vs : List Upcall) :
    tellAll (us ++ vs) = (tellAll us >>= fun _ => tellAll vs) := by
  induction us with
  | nil => rfl
  | cons u us ih =>
      simp only [List.cons_append, tellAll, ih, Course.bind_assoc]

theorem notify_eq_tellAll (id : Nat) (listener : Option Closure) :
    Body.notify id listener = tellAll (Body.listening id listener) := by
  cases listener with
  | none => rfl
  | some listener => exact (Course.bind_pure (call (.listener id listener))).symm

theorem failAll_eq_tellAll (id : Nat) (cause : Cause) (sinks : List Sink) :
    Body.failAll id cause sinks = tellAll (sinks.map (.chunk id · (.failure cause))) := by
  induction sinks with
  | nil => rfl
  | cons sink sinks ih => rw [Body.failAll, ih, List.map_cons, tellAll]

def finish (us : List Upcall) (response : Response) : Course Response := do
  tellAll us
  pure response

end Course

open Course

def Access.errand (a : Access) : Course Response :=
  .access a fun reply => finish (a.upcalls reply) (a.response reply)

theorem Body.acknowledging_eq (id : Nat) :
    Body.acknowledging id =
      .access (.acknowledge id) fun sink => tellAll ((Access.acknowledge id).upcalls sink) := by
  rw [acknowledging, touch, access_bind]
  apply congrArg (Course.access (.acknowledge id))
  funext sink
  cases sink with
  | none => rfl
  | some sink => exact (Course.bind_pure _).symm

theorem Body.failing_eq (id : Nat) (cause : Cause) :
    Body.failing id cause =
      .access (.fail id cause) fun fallout =>
        tellAll ((Access.fail id cause).upcalls fallout) >>= fun _ => pure fallout.isSome := by
  rw [failing, touch, access_bind]
  apply congrArg (Course.access (.fail id cause))
  funext fallout
  cases fallout with
  | none => rfl
  | some fallout =>
      simp [Access.upcalls, notify_eq_tellAll, failAll_eq_tellAll, tellAll_append]

theorem touch_bind_eq {a : Access} {f g : a.Reply → Course Response}
    (h : ∀ reply, f reply = g reply) : (touch a >>= f) = .access a g := by
  rw [touch, access_bind]
  apply congrArg (Course.access a)
  funext reply
  rw [Course.pure_bind, h reply]

theorem Call.course_eq {call : Call} {a : Access} (h : call.access? = some a) :
    call.course = a.errand := by
  cases call with
  | offer id chunk =>
      cases h
      rw [course, Body.offering, Course.bind_assoc]
      apply touch_bind_eq
      intro admission
      cases admission with
      | accepted listener => simp [finish, Access.upcalls, Access.response, notify_eq_tellAll]
      | rejected cause => simp [finish, Access.upcalls, Access.response, tellAll]
  | next id =>
      cases h
      exact touch_bind_eq fun _ => rfl
  | acknowledge id =>
      cases h
      rw [course, Body.acknowledging_eq]
      rfl
  | close id =>
      cases h
      rw [course, Body.closing, Course.bind_assoc]
      apply touch_bind_eq
      intro listener
      simp [finish, Access.upcalls, Access.response, notify_eq_tellAll]
  | fail id cause =>
      cases h
      rw [course, Body.failing_eq, access_bind]
      simp only [Course.bind_assoc, Course.pure_bind]
      rfl
  | listen id listener =>
      cases h
      exact touch_bind_eq fun _ => rfl
  | _ => nomatch h

/-! ## The cursor -/

theorem Course.discard_eq {α : Type} (course : Course α) :
    discard course = course >>= fun _ => pure () := rfl

/-- The call that whoever signals the cursor of a body makes. -/
def Signal.atCursor (id : Nat) : Signal → Call
  | finish .success => .acknowledge id
  | finish (.failure cause) | abort cause => .fail id cause

/-- The cursor is not told how the call was answered: an abort it answers yes, whether or not it
was the first failure. -/
theorem Sink.deliver_cursor (id : Nat) (signal : Signal) :
    (Sink.cursor id).deliver signal =
      (signal.atCursor id).course >>= fun _ => pure (!signal.isEnding) := by
  have hfail (cause : Cause) (answer : Bool) :
      (do discard (Body.failing id cause); pure answer) =
        (Call.fail id cause).course >>= fun _ => pure answer := by
    simp only [Call.course, discard_eq, Course.bind_assoc, Course.pure_bind]
  rcases signal with (_ | cause) | cause
  · simp only [deliver, finish, Signal.atCursor, Signal.isEnding, Call.course, Course.bind_assoc,
      Course.pure_bind, Bool.not_true]
  · exact hfail cause false
  · exact hfail cause true

/-! ## Errands under way -/

/-- The upcalls still to be made before the next access, as long as none of them panics. -/
def Course.due : Course Response → List Upcall
  | .upcall u next => u :: (next (.returned ())).due
  | _ => []

def Stage.due : Stage → List Upcall
  | .working course => course.due
  | .waiting _ next => (next (.returned ())).due

/-- What is seen of upcalls made one after the other until they are through. -/
inductive Told : List Upcall → List Mark → Outcome Unit → Prop
  | nil : Told [] [] (.returned ())
  | returned (u) {us marks outcome} (h : Told us marks outcome) :
      Told (u :: us) (.started u :: .ended u (.returned ()) :: marks) outcome
  | panicked (u us text) : Told (u :: us) [.started u, .ended u (.panicked text)] (.panicked text)

def Outcome.answering (response : Response) : Outcome Unit → Outcome Response
  | returned _ => returned response
  | panicked text => panicked text

section Leads

variable {us : List Upcall} {response : Response} {marks : List Mark} {stage : Stage}

theorem Course.finish_cons (u : Upcall) (us : List Upcall) (response : Response) :
    finish (u :: us) response =
      .upcall u fun outcome => done outcome >>= fun _ => finish us response := by
  rw [finish, tellAll, Course.bind_assoc]
  rfl

theorem told_of_leads {outcome : Outcome Response}
    (h : (finish us response).Leads marks (.working (.done outcome))) :
    ∃ told, Told us marks told ∧ outcome = told.answering response := by
  induction us generalizing marks with
  | nil =>
      cases h
      exact ⟨_, .nil, rfl⟩
  | cons u us ih =>
      rw [finish_cons] at h
      cases h with
      | upcall h =>
          rename_i back marks
          cases back with
          | returned value =>
              obtain ⟨told, htold, houtcome⟩ := ih h
              exact ⟨told, .returned u htold, houtcome⟩
          | panicked text =>
              cases h
              exact ⟨_, .panicked u us text, rfl⟩

@[simp] theorem Course.due_finish (us : List Upcall) (response : Response) :
    (finish us response).due = us := by
  induction us with
  | nil => rfl
  | cons u us ih =>
      rw [finish_cons]
      exact congrArg (u :: ·) ih

theorem exists_append_of_leads_waiting {u : Upcall} {next : Outcome Unit → Course Response}
    (h : (finish us response).Leads marks (.waiting u next)) :
    ∃ made, us = made ++ u :: (Stage.waiting u next).due := by
  induction us generalizing marks with
  | nil => cases h
  | cons first us ih =>
      rw [finish_cons] at h
      cases h with
      | waiting => exact ⟨[], congrArg (u :: ·) (due_finish us response).symm⟩
      | upcall h =>
          rename_i back marks
          cases back with
          | returned value =>
              obtain ⟨made, hmade⟩ := ih h
              exact ⟨first :: made, congrArg (first :: ·) hmade⟩
          | panicked text => cases h

theorem not_leads_access {a : Access} {next : a.Reply → Course Response} :
    ¬ (finish us response).Leads marks (.working (.access a next)) := by
  intro h
  induction us generalizing marks with
  | nil => cases h
  | cons first us ih =>
      rw [finish_cons] at h
      cases h with
      | upcall h =>
          rename_i back marks
          cases back with
          | returned value => exact ih h
          | panicked text => cases h

/-- A call about a body is before its access, or behind it on the way through the upcalls. -/
theorem Call.leads_errand {call : Call} {id : Nat} (hobject : call.object? = some (.body id))
    {marks : List (Log × Mark)} (h : call.course.Leads (marks.map Prod.snd) stage) :
    ∃ a, call.access? = some a ∧
      ((marks = [] ∧ stage = .working a.errand) ∨
        ∃ before reply told, marks = (before, .accessed a reply) :: told ∧
          (finish (a.upcalls reply) (a.response reply)).Leads (told.map Prod.snd) stage) := by
  obtain ⟨a, haccess⟩ := exists_access hobject
  refine ⟨a, haccess, ?_⟩
  rw [course_eq haccess] at h
  generalize hseen : marks.map Prod.snd = seen at h
  cases h with
  | start => exact .inl ⟨List.map_eq_nil_iff.mp hseen, rfl⟩
  | @access a next reply behind stage h =>
      obtain ⟨⟨before, first⟩, told, rfl, rfl, rfl⟩ := List.map_eq_cons_iff.mp hseen
      exact .inr ⟨before, reply, told, rfl, h⟩

end Leads

end OneShot
