import OneShot.Proofs.Body.Errand

/-!
# The ledger of a body

A ledger lists all that a body has ever accepted and says how far it has been
yielded and how far acknowledged, whether it was closed and how it failed. It
tells what an access brings, and the queues and the count of the body always
agree with it.
-/

namespace OneShot

structure Ledger where
  accepted : List Chunk := []
  yielded : Nat := 0
  acknowledged : Nat := 0
  closed : Bool := false
  failure : Option Cause := none
  listener : Option Closure := none

namespace Ledger

def isOpen (l : Ledger) : Bool := !l.closed && l.failure.isNone

theorem failure_of_isOpen {l : Ledger} (h : l.isOpen = true) : l.failure = none := by
  simp only [isOpen, Bool.and_eq_true, Option.isNone_iff_eq_none] at h
  exact h.2

def next (l : Ledger) : Except Refusal (Option (List UInt8)) :=
  match l.failure, l.accepted[l.yielded]? with
  | some cause, _ => .error (.failed cause)
  | none, some chunk => .ok (some chunk.octets)
  | none, none => if l.closed then .error .exhausted else .ok none

def hasMore (l : Ledger) : Bool :=
  l.failure.isNone && (!l.closed || decide (l.yielded < l.accepted.length))

/-- The chunks not yet acknowledged; a failure gives them all up. -/
def pending (l : Ledger) : List Chunk :=
  if l.failure = none then l.accepted.drop l.acknowledged else []

/-- The chunks that are done with, in the order they were offered, and how each of them ended. -/
def settled (l : Ledger) : List (Chunk × Ending) :=
  (l.accepted.take l.acknowledged).map (·, .success) ++
    match l.failure with
    | none => []
    | some cause => (l.accepted.drop l.acknowledged).map (·, .failure cause)

theorem settled_append_pending (l : Ledger) :
    l.settled.map Prod.fst ++ l.pending = l.accepted := by
  have hfst (chunks : List Chunk) (ending : Ending) :
      (chunks.map (·, ending)).map Prod.fst = chunks := by
    rw [List.map_map]
    exact List.map_id chunks
  rw [settled, pending]
  cases l.failure with
  | none => simp [hfst]
  | some cause => simp [hfst]

def after (l : Ledger) : Access → Ledger
  | .offer _ chunk => if l.isOpen then { l with accepted := l.accepted ++ [chunk] } else l
  | .next _ =>
      if l.failure = none ∧ l.yielded < l.accepted.length then
        { l with yielded := l.yielded + 1 }
      else l
  | .acknowledge _ =>
      if l.failure = none ∧ l.acknowledged < l.yielded then
        { l with acknowledged := l.acknowledged + 1 }
      else l
  | .close _ => { l with closed := true }
  | .fail _ cause => if l.failure = none then { l with failure := some cause } else l
  | .listen _ listener => { l with listener := some listener }
  | _ => l

theorem failure_after {l : Ledger} (h : l.failure ≠ none) (a : Access) :
    (l.after a).failure = l.failure := by
  cases a with
  | fail id cause => rw [after, if_neg h]
  | offer id chunk | next id | acknowledge id =>
      simp only [after]
      split <;> rfl
  | _ => rfl

theorem after_acknowledge_of_none {l : Ledger}
    (h : l.failure ≠ none ∨ l.yielded ≤ l.acknowledged) (id : Nat) :
    l.after (.acknowledge id) = l := by
  apply if_neg
  rintro ⟨hfailure, hlt⟩
  exact absurd hlt (Nat.not_lt_of_le (h.resolve_left (not_not_intro hfailure)))

/-- The upcalls and the response that an access brings when it finds the ledger so. -/
inductive Serves (l : Ledger) : Access → List Upcall → Response → Prop
  | accepted {id chunk} (hopen : l.isOpen = true) :
      Serves l (.offer id chunk) (Body.listening id l.listener) (.truth true)
  | rejected {id chunk cause} (hopen : l.isOpen = false)
      (hcause : ∀ c, l.failure = some c → cause = c) :
      Serves l (.offer id chunk) [.chunk id chunk.sink (.failure cause)] (.truth false)
  | next {id} : Serves l (.next id) [] (.octets l.next)
  | acknowledged {id chunk} (hfailure : l.failure = none) (hlt : l.acknowledged < l.yielded)
      (hchunk : l.accepted[l.acknowledged]? = some chunk) :
      Serves l (.acknowledge id) [.chunk id chunk.sink .success] .nothing
  | ignored {id} (h : l.failure ≠ none ∨ l.yielded ≤ l.acknowledged) :
      Serves l (.acknowledge id) [] .nothing
  | closed {id} (hopen : l.isOpen = true) :
      Serves l (.close id) (Body.listening id l.listener) .nothing
  | closedBefore {id} (hopen : l.isOpen = false) : Serves l (.close id) [] .nothing
  | failed {id cause} (hfailure : l.failure = none) :
      Serves l (.fail id cause)
        (l.pending.map (fun chunk => .chunk id chunk.sink (.failure cause)) ++
          Body.listening id l.listener)
        (.truth true)
  | failedBefore {id cause} (hfailure : l.failure ≠ none) :
      Serves l (.fail id cause) [] (.truth false)
  | listened {id listener} : Serves l (.listen id listener) [] .nothing

structure Agrees (l : Ledger) (b : Body) : Prop where
  inFlight_eq : l.failure = none → b.inFlight = (l.accepted.take l.yielded).drop l.acknowledged
  queued_eq : l.failure = none → b.queued = l.accepted.drop l.yielded
  emptied : l.failure ≠ none → b.inFlight = [] ∧ b.queued = []
  outstanding_eq : b.outstanding = b.queued.length + b.inFlight.length
  closed_eq : b.closed = (l.closed || l.failure.isSome)
  failure_eq : b.failure = l.failure
  listener_eq : b.listener = l.listener
  acknowledged_le : l.acknowledged ≤ l.yielded
  yielded_le : l.yielded ≤ l.accepted.length

namespace Agrees

variable {l : Ledger} {b : Body} {id : Nat}

theorem empty : ({} : Ledger).Agrees {} := by
  constructor <;> simp

theorem accepts_eq (h : l.Agrees b) : b.accepts = l.isOpen := by
  rw [Body.accepts, isOpen, h.closed_eq, h.failure_eq]
  cases l.closed <;> cases l.failure <;> rfl

theorem pending_eq (h : l.Agrees b) : b.pending = l.pending := by
  by_cases hfailure : l.failure = none
  · rw [Body.pending, h.inFlight_eq hfailure, h.queued_eq hfailure, pending, if_pos hfailure]
    have hle : l.acknowledged ≤ (l.accepted.take l.yielded).length := by
      rw [List.length_take, Nat.min_eq_left h.yielded_le]
      exact h.acknowledged_le
    rw [← List.drop_append_of_le_length hle, List.take_append_drop]
  · obtain ⟨hflight, hqueued⟩ := h.emptied hfailure
    rw [Body.pending, hflight, hqueued, pending, if_neg hfailure, List.append_nil]

theorem hasMore_eq (h : l.Agrees b) : b.hasMore = l.hasMore := by
  rw [Body.hasMore, hasMore, h.closed_eq]
  cases hfailure : l.failure with
  | none =>
      have hqueued : b.queued.isEmpty = !decide (l.yielded < l.accepted.length) := by
        rw [h.queued_eq hfailure, Bool.eq_iff_iff]
        simp
      rw [hqueued]
      cases l.closed <;> simp
  | some cause =>
      obtain ⟨-, hqueued⟩ := h.emptied (by rw [hfailure]; nofun)
      simp [hqueued]

theorem outstanding_eq_zero_iff (h : l.Agrees b) : b.outstanding = 0 ↔ l.pending = [] := by
  rw [h.outstanding_eq, ← h.pending_eq, Body.pending, List.append_eq_nil_iff]
  simp only [Nat.add_eq_zero_iff, List.length_eq_zero_iff, and_comm]

theorem offer (h : l.Agrees b) (hopen : l.isOpen = true) (chunk : Chunk) :
    (l.after (.offer id chunk)).Agrees (b.offer chunk) := by
  have hfailure := failure_of_isOpen hopen
  have hle : l.yielded ≤ (l.accepted ++ [chunk]).length := by
    rw [List.length_append]
    exact Nat.le_add_right_of_le h.yielded_le
  simp only [after, if_pos hopen]
  exact {
    inFlight_eq := fun _ => by
      rw [List.take_append_of_le_length h.yielded_le]
      exact h.inFlight_eq hfailure
    queued_eq := fun _ => by
      rw [List.drop_append_of_le_length h.yielded_le, ← h.queued_eq hfailure]
      rfl
    emptied := fun hne => absurd hfailure hne
    outstanding_eq := by
      simp only [Body.offer, h.outstanding_eq, List.length_append, List.length_singleton]
      omega
    closed_eq := h.closed_eq
    failure_eq := h.failure_eq
    listener_eq := h.listener_eq
    acknowledged_le := h.acknowledged_le
    yielded_le := hle }

theorem next (h : l.Agrees b) (id : Nat) :
    b.next.1 = l.next ∧ (l.after (.next id)).Agrees b.next.2 := by
  cases hfailure : l.failure with
  | some cause =>
      have hbody : b.next = (.error (.failed cause), b) := by
        simp only [Body.next, h.failure_eq, hfailure]
      have hkept : l.after (.next id) = l := by simp [after, hfailure]
      rw [hbody, hkept, Ledger.next, hfailure]
      exact ⟨rfl, h⟩
  | none =>
      have hqueued := h.queued_eq hfailure
      by_cases hlt : l.yielded < l.accepted.length
      · have hchunk := List.getElem?_eq_getElem hlt
        rw [List.drop_eq_getElem_cons hlt] at hqueued
        have hbody : b.next = (.ok (some l.accepted[l.yielded].octets),
            { b with
              queued := l.accepted.drop (l.yielded + 1)
              inFlight := b.inFlight ++ [l.accepted[l.yielded]] }) := by
          simp only [Body.next, h.failure_eq, hfailure, hqueued]
        have hflight : b.inFlight ++ [l.accepted[l.yielded]] =
            (l.accepted.take (l.yielded + 1)).drop l.acknowledged := by
          have hle : l.acknowledged ≤ (l.accepted.take l.yielded).length := by
            rw [List.length_take, Nat.min_eq_left h.yielded_le]
            exact h.acknowledged_le
          rw [h.inFlight_eq hfailure, List.take_add_one, hchunk, Option.toList_some,
            List.drop_append_of_le_length hle]
        have hafter : l.after (.next id) = { l with yielded := l.yielded + 1 } :=
          if_pos ⟨hfailure, hlt⟩
        have hanswer : l.next = .ok (some l.accepted[l.yielded].octets) := by
          rw [Ledger.next, hfailure, hchunk]
        rw [hbody, hafter, hanswer]
        refine ⟨rfl, ?_⟩
        exact {
          inFlight_eq := fun _ => hflight
          queued_eq := fun _ => rfl
          emptied := fun hne => absurd hfailure hne
          outstanding_eq := by
            have hcount := h.outstanding_eq
            rw [hqueued, List.length_cons] at hcount
            simp only [List.length_append, List.length_singleton]
            omega
          closed_eq := h.closed_eq
          failure_eq := h.failure_eq
          listener_eq := h.listener_eq
          acknowledged_le := Nat.le_succ_of_le h.acknowledged_le
          yielded_le := hlt }
      · have hle := Nat.le_of_not_lt hlt
        rw [List.drop_eq_nil_of_le hle] at hqueued
        have hclosed : b.closed = l.closed := by rw [h.closed_eq, hfailure]; simp
        have hbody : b.next = (if l.closed then .error .exhausted else .ok none, b) := by
          simp only [Body.next, h.failure_eq, hfailure, hqueued, hclosed]
        have hkept : l.after (.next id) = l := by simp [after, hlt]
        rw [hbody, hkept, Ledger.next, hfailure, List.getElem?_eq_none hle]
        exact ⟨rfl, h⟩

theorem acknowledge (h : l.Agrees b) (hfailure : l.failure = none)
    (hlt : l.acknowledged < l.yielded) (id : Nat) :
    ∃ chunk, l.accepted[l.acknowledged]? = some chunk ∧ b.acknowledge.1 = some chunk.sink ∧
      (l.after (.acknowledge id)).Agrees b.acknowledge.2 := by
  have hlt' := Nat.lt_of_lt_of_le hlt h.yielded_le
  have hflight : b.inFlight = l.accepted[l.acknowledged] ::
      (l.accepted.take l.yielded).drop (l.acknowledged + 1) := by
    have htake : l.acknowledged < (l.accepted.take l.yielded).length := by
      rw [List.length_take, Nat.min_eq_left h.yielded_le]
      exact hlt
    rw [h.inFlight_eq hfailure, List.drop_eq_getElem_cons htake, List.getElem_take]
  refine ⟨l.accepted[l.acknowledged], List.getElem?_eq_getElem hlt', ?_, ?_⟩
  · simp only [Body.acknowledge, hflight]
  · have hafter : l.after (.acknowledge id) = { l with acknowledged := l.acknowledged + 1 } :=
      if_pos ⟨hfailure, hlt⟩
    simp only [hafter, Body.acknowledge, hflight]
    exact {
      inFlight_eq := fun _ => rfl
      queued_eq := h.queued_eq
      emptied := fun hne => absurd hfailure hne
      outstanding_eq := by
        have hcount := h.outstanding_eq
        rw [hflight, List.length_cons] at hcount
        simp only
        omega
      closed_eq := h.closed_eq
      failure_eq := h.failure_eq
      listener_eq := h.listener_eq
      acknowledged_le := hlt
      yielded_le := h.yielded_le }

theorem acknowledge_of_none (h : l.Agrees b)
    (hnone : l.failure ≠ none ∨ l.yielded ≤ l.acknowledged) (id : Nat) :
    b.acknowledge = (none, b) ∧ l.after (.acknowledge id) = l := by
  have hflight : b.inFlight = [] := by
    by_cases hfailure : l.failure = none
    · have hle := hnone.resolve_left (not_not_intro hfailure)
      rw [h.inFlight_eq hfailure]
      apply List.drop_eq_nil_of_le
      rw [List.length_take]
      exact Nat.le_trans (Nat.min_le_left _ _) hle
    · exact (h.emptied hfailure).1
  refine ⟨?_, after_acknowledge_of_none hnone id⟩
  simp only [Body.acknowledge, hflight]

theorem close (h : l.Agrees b) : (l.after (.close id)).Agrees b.close := by
  refine { h with closed_eq := ?_ }
  simp only [Body.close, after, Bool.true_or]

theorem close_of_not_isOpen (h : l.Agrees b) (hopen : l.isOpen = false) :
    (l.after (.close id)).Agrees b := by
  refine { h with closed_eq := ?_ }
  rw [h.closed_eq]
  cases hclosed : l.closed <;> cases hfailure : l.failure <;>
    simp_all [isOpen, after]

theorem fail (h : l.Agrees b) (hfailure : l.failure = none) (cause : Cause) :
    (l.after (.fail id cause)).Agrees (b.fail cause) := by
  simp only [after, if_pos hfailure]
  exact {
    inFlight_eq := fun hnone => nomatch hnone
    queued_eq := fun hnone => nomatch hnone
    emptied := fun _ => ⟨rfl, rfl⟩
    outstanding_eq := rfl
    closed_eq := (Bool.or_true _).symm
    failure_eq := rfl
    listener_eq := h.listener_eq
    acknowledged_le := h.acknowledged_le
    yielded_le := h.yielded_le }

theorem listen (h : l.Agrees b) (listener : Closure) :
    (l.after (.listen id listener)).Agrees (b.listen listener) :=
  { h with listener_eq := rfl }

end Agrees

end Ledger

end OneShot
