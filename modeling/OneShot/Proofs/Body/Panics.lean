import OneShot.Proofs.Body.Agreement

/-!
# Panics of listeners and chunk callbacks

An operation on a body changes the body first and calls out afterwards. So what
becomes of the body does not hang on the upcalls, panic or not, as long as none
of them comes back to the body. Two runs of the same operations that differ in
their surroundings are compared, operation by operation.
-/

namespace OneShot

open Course

namespace Store

theorem getElem?_bodies_putBody (s : Store) (id : Nat) (b : Body) :
    (s.putBody id b).bodies[id]? = s.bodies[id]?.map fun _ => b :=
  List.getElem?_set_self'

/-- An access to a body looks at nothing else when it changes the body, nor when it settles the
response. The reply may differ: a closed body rejects a chunk with a cause that is new. -/
theorem perform_of_same_body {s s' : Store} {a : Access} {id : Nat}
    (h : s.bodies[id]? = s'.bodies[id]?) (ha : a.object? = some (.body id)) :
    (s.perform a).2.bodies[id]? = (s'.perform a).2.bodies[id]? ∧
      a.response (s.perform a).1 = a.response (s'.perform a).1 := by
  have hput (b : Body) : (s.putBody id b).bodies[id]? = (s'.putBody id b).bodies[id]? := by
    rw [getElem?_bodies_putBody, getElem?_bodies_putBody, h]
  cases a with
  | offer other chunk =>
      cases ha
      simp only [perform, offer, ← h]
      split
      · exact ⟨h, rfl⟩
      · split
        · exact ⟨hput _, rfl⟩
        · split <;> exact ⟨h, rfl⟩
  | next other =>
      cases ha
      simp only [perform, next, ← h]
      split
      · exact ⟨h, rfl⟩
      · exact ⟨hput _, rfl⟩
  | acknowledge other =>
      cases ha
      simp only [perform, acknowledge, ← h]
      split
      · exact ⟨h, rfl⟩
      · exact ⟨hput _, rfl⟩
  | close other =>
      cases ha
      simp only [perform, close, ← h]
      split
      · exact ⟨h, rfl⟩
      · split
        · exact ⟨h, rfl⟩
        · exact ⟨hput _, rfl⟩
  | fail other cause =>
      cases ha
      simp only [perform, fail, ← h]
      split
      · exact ⟨h, rfl⟩
      · split
        · exact ⟨h, rfl⟩
        · exact ⟨hput _, rfl⟩
  | listen other listener =>
      cases ha
      refine ⟨?_, rfl⟩
      simp only [perform, listen, ← h]
      split
      · exact h
      · exact hput _
  | _ => cases ha

end Store

namespace Body

/-- What is done with a body by its producer and through its cursor. -/
inductive Operation
  | offer (chunk : Chunk)
  | close
  | fail (cause : Cause)
  | listen (listener : Closure)
  | next
  /-- Acknowledges the oldest chunk in flight, or fails the body. -/
  | signal (signal : Signal)
  deriving DecidableEq

namespace Operation

def course (id : Nat) : Operation → Course Response
  | offer chunk => (Call.offer id chunk).course
  | close => (Call.close id).course
  | fail cause => (Call.fail id cause).course
  | listen listener => (Call.listen id listener).course
  | next => (Call.next id).course
  | signal s => return .truth (← (Sink.cursor id).deliver s)

def access (id : Nat) : Operation → Access
  | offer chunk => .offer id chunk
  | close => .close id
  | fail cause => .fail id cause
  | listen listener => .listen id listener
  | next => .next id
  | signal (.finish .success) => .acknowledge id
  | signal (.finish (.failure cause)) | signal (.abort cause) => .fail id cause

/-- The cursor answers an abort with true, whether or not it was the first failure. -/
def conclude : Operation → Response → Response
  | signal (.finish _), _ => .truth false
  | signal (.abort _), _ => .truth true
  | _, response => response

theorem object?_access (operation : Operation) (id : Nat) :
    (operation.access id).object? = some (.body id) := by
  cases operation with
  | signal s =>
      cases s with
      | finish ending => cases ending <;> rfl
      | abort cause => rfl
  | _ => rfl

theorem course_eq (operation : Operation) (id : Nat) :
    operation.course id =
      .access (operation.access id) fun reply =>
        finish ((operation.access id).upcalls reply)
          (operation.conclude ((operation.access id).response reply)) := by
  cases operation with
  | offer chunk => exact @Call.course_eq (.offer id chunk) _ rfl
  | close => exact @Call.course_eq (.close id) _ rfl
  | fail cause => exact @Call.course_eq (.fail id cause) _ rfl
  | listen listener => exact @Call.course_eq (.listen id listener) _ rfl
  | next => exact @Call.course_eq (.next id) _ rfl
  | signal s =>
      have haccess : (s.atCursor id).access? = some ((signal s).access id) := by
        rcases s with (_ | cause) | cause <;> rfl
      have hconclude (response : Response) :
          (signal s).conclude response = .truth (!s.isEnding) := by
        cases s <;> rfl
      simp only [course, Sink.deliver_cursor, Call.course_eq haccess, Access.errand, access_bind,
        finish, Course.bind_assoc, Course.pure_bind, hconclude]

end Operation

end Body

/-! ## Any surroundings -/

section Surroundings

variable {μ : Type} {answer : Surroundings μ} {id : Nat}

/-- Whatever the listener and the chunk callbacks of a body do, panic or not, the body is as
before when they come back. -/
def Course.Surroundings.Aloof (answer : Surroundings μ) (id : Nat) : Prop :=
  ∀ u memory (s : Store), u.object? = some (.body id) →
    (answer u memory s).2.2.bodies[id]? = s.bodies[id]?

theorem Course.run_finish (h : answer.Aloof id) {us : List Upcall}
    (hus : ∀ u ∈ us, u.object? = some (.body id)) (response : Response) (memory : μ) (s : Store) :
    ((finish us response).run answer memory s).2.2.bodies[id]? = s.bodies[id]? ∧
      ∀ value, ((finish us response).run answer memory s).1 = .returned value →
        value = response := by
  induction us generalizing memory s with
  | nil => exact ⟨rfl, fun value hvalue => (Outcome.returned.inj hvalue).symm⟩
  | cons u us ih =>
      obtain ⟨hu, hus⟩ := List.forall_mem_cons.mp hus
      have hbody := h u memory s hu
      rw [finish_cons, run]
      generalize answer u memory s = back at hbody ⊢
      obtain ⟨outcome, memory', s'⟩ := back
      cases outcome with
      | returned value =>
          obtain ⟨hrest, hvalue⟩ := ih hus memory' s'
          exact ⟨hrest.trans hbody, hvalue⟩
      | panicked text =>
          refine ⟨hbody, ?_⟩
          intro value hvalue
          cases hvalue

namespace Body

/-- The body is left as the access leaves it, and nothing is returned but what the access says. -/
theorem Operation.run_course (h : answer.Aloof id) (operation : Operation) (memory : μ)
    (s : Store) :
    ((operation.course id).run answer memory s).2.2.bodies[id]? =
        (s.perform (operation.access id)).2.bodies[id]? ∧
      ∀ value, ((operation.course id).run answer memory s).1 = .returned value →
        value = operation.conclude
          ((operation.access id).response (s.perform (operation.access id)).1) := by
  rw [course_eq]
  apply run_finish h
  intro u hu
  exact (Access.object?_of_mem_upcalls hu).trans (operation.object?_access id)

/-- What is seen of an operation: how it ended, and the body it left. -/
structure Sight where
  operation : Operation
  outcome : Outcome Response
  body : Option Body

/-- What is seen of operations made one after the other. Whoever makes them catches the panics. -/
def sights (answer : Surroundings μ) (id : Nat) : List Operation → μ → Store → List Sight
  | [], _, _ => []
  | operation :: operations, memory, s =>
      let (outcome, memory, s) := (operation.course id).run answer memory s
      ⟨operation, outcome, s.bodies[id]?⟩ :: sights answer id operations memory s

/-- The same operation in two runs. -/
structure Sight.Matches (one other : Sight) : Prop where
  operation_eq : one.operation = other.operation
  body_eq : one.body = other.body
  hasMore_eq : one.body.map hasMore = other.body.map hasMore
  flush_eq : one.body.map flush? = other.body.map flush?
  /-- Nothing is called out from within a `next`, so it cannot panic. -/
  next_eq : one.operation = .next →
    ∃ answer, one.outcome = .returned (.octets answer) ∧ other.outcome = .returned (.octets answer)
  response_eq : ∀ value value', one.outcome = .returned value → other.outcome = .returned value' →
    value = value'

theorem run_next (answer : Surroundings μ) (id : Nat) (memory : μ) (s : Store) :
    (Operation.next.course id).run answer memory s =
      (.returned (.octets (s.next id).1), memory, (s.next id).2) := rfl

variable {μ' : Type} {answer' : Surroundings μ'}

theorem Operation.matches_run (h : answer.Aloof id) (h' : answer'.Aloof id)
    (operation : Operation) (memory : μ) (memory' : μ') {s s' : Store}
    (hbody : s.bodies[id]? = s'.bodies[id]?) :
    let one := (operation.course id).run answer memory s
    let other := (operation.course id).run answer' memory' s'
    Sight.Matches ⟨operation, one.1, one.2.2.bodies[id]?⟩
      ⟨operation, other.1, other.2.2.bodies[id]?⟩ := by
  obtain ⟨hleft, hresponse⟩ :=
    Store.perform_of_same_body hbody (operation.object?_access id)
  obtain ⟨hone, hreturned⟩ := operation.run_course h memory s
  obtain ⟨hother, hreturned'⟩ := operation.run_course h' memory' s'
  have hsame := hone.trans (hleft.trans hother.symm)
  refine ⟨rfl, hsame, congrArg _ hsame, congrArg _ hsame, ?_, ?_⟩
  · rintro rfl
    have hnext : (s.next id).1 = (s'.next id).1 := Response.octets.inj hresponse
    refine ⟨(s.next id).1, rfl, ?_⟩
    rw [run_next, hnext]
  · intro value value' hvalue hvalue'
    rw [hreturned value hvalue, hreturned' value' hvalue', hresponse]

/-- Whichever of the upcalls panic, every operation leaves the same body, and what is looked up
in it or returned is the same. -/
theorem undisturbed_by_panics (h : answer.Aloof id) (h' : answer'.Aloof id)
    (operations : List Operation) (memory : μ) (memory' : μ') {s s' : Store}
    (hbody : s.bodies[id]? = s'.bodies[id]?) :
    List.Forall₂ Sight.Matches (sights answer id operations memory s)
      (sights answer' id operations memory' s') := by
  induction operations generalizing memory memory' s s' with
  | nil => exact .nil
  | cons operation operations ih =>
      have hmatches := operation.matches_run h h' memory memory' hbody
      exact .cons hmatches (ih _ _ hmatches.body_eq)

end Body

end Surroundings

namespace Body

/-! ## All upcalls panic, or none -/

def calm : Surroundings Unit := fun _ _ s => (.returned (), (), s)

def panicking : Surroundings Unit := fun _ _ s => (.panicked "out of order", (), s)

/-- Neither the first offer, which finds no listener, nor a `next` calls out. -/
def exchange : List Operation :=
  [.offer ⟨[1], .ignore⟩, .listen 5, .offer ⟨[2], .ignore⟩, .next, .signal (.finish .success),
    .close, .signal (.abort ⟨0, .message "connection lost"⟩), .offer ⟨[3], .ignore⟩, .next]

def withBody : Store := { bodies := [{}] }

theorem undisturbed_exchange :
    calm.Aloof 0 ∧ panicking.Aloof 0 ∧
      ((sights panicking 0 exchange () withBody).map fun sight =>
          sight.outcome matches .panicked _) =
        [false, false, true, false, true, true, true, true, false] ∧
      List.Forall₂ Sight.Matches (sights calm 0 exchange () withBody)
        (sights panicking 0 exchange () withBody) := by
  have hcalm : calm.Aloof 0 := fun _ _ _ _ => rfl
  have hpanicking : panicking.Aloof 0 := fun _ _ _ _ => rfl
  exact ⟨hcalm, hpanicking, rfl, undisturbed_by_panics hcalm hpanicking exchange () () rfl⟩

end Body

end OneShot
