import OneShot.Proofs.Calls.Growth
import OneShot.Proofs.Failure.Holder

/-!
# Exhausted bodies

Whether a body has more to yield and what it answers to a `next` go together,
for a failure closes the body and empties its queue. And a body that has no more
never has any again: once it is closed nothing is offered to it, and what has
been yielded does not come back.
-/

namespace OneShot

/-- Why a body that has no more to yield refuses to yield. -/
def Refusal.ofFailure : Option Cause → Refusal
  | none => .exhausted
  | some cause => .failed cause

/-! ## What the ledger foretells -/

/-- The cause with which a mark shows the body being failed. -/
def Mark.failing? (id : Nat) : Mark → Option Cause
  | .accessed a _ => if a.object? = some (.body id) then a.brought? else none
  | _ => none

/-- The cause of the first access that failed the body. -/
def firstFailure (id : Nat) (log : Log) : Option Cause :=
  log.findSome? fun entry => entry.2.failing? id

namespace Ledger

variable {l : Ledger} {id : Nat}

theorem hasMore_eq_false_iff : l.hasMore = false ↔
    l.failure ≠ none ∨ l.closed = true ∧ l.accepted.length ≤ l.yielded := by
  cases hfailure : l.failure with
  | none => simp [hasMore, hfailure]
  | some cause => simp [hasMore, hfailure]

theorem next_of_hasMore (h : l.hasMore = true) :
    l.next = .ok (l.accepted[l.yielded]?.map Chunk.octets) := by
  have hmore : ¬ (l.failure ≠ none ∨ l.closed = true ∧ l.accepted.length ≤ l.yielded) := by
    rw [← hasMore_eq_false_iff, h]
    nofun
  rw [not_or, not_not, not_and, Nat.not_le] at hmore
  obtain ⟨hfailure, hopen⟩ := hmore
  rw [next, hfailure]
  cases hchunk : l.accepted[l.yielded]? with
  | some chunk => rfl
  | none =>
      have hle := List.getElem?_eq_none_iff.mp hchunk
      exact if_neg fun hclosed => absurd (hopen hclosed) (Nat.not_lt_of_le hle)

theorem next_of_not_hasMore (h : l.hasMore = false) :
    l.next = .error (.ofFailure l.failure) := by
  rw [next]
  rcases hasMore_eq_false_iff.mp h with hfailed | ⟨hclosed, hle⟩
  · obtain ⟨cause, hcause⟩ := Option.ne_none_iff_exists'.mp hfailed
    rw [hcause]
    rfl
  · rw [List.getElem?_eq_none hle, hclosed]
    cases l.failure <;> rfl

/-- Nothing that is done with a body gives it more to yield once it has no more. -/
theorem hasMore_after (h : l.hasMore = false) (a : Access) : (l.after a).hasMore = false := by
  rcases hasMore_eq_false_iff.mp h with hfailed | ⟨hclosed, hle⟩
  · rw [hasMore_eq_false_iff, failure_after hfailed]
    exact .inl hfailed
  · cases a with
    | offer id chunk =>
        have hopen : l.isOpen = false := by simp [isOpen, hclosed]
        rw [after, hopen]
        exact h
    | next id =>
        have hnone : ¬ (l.failure = none ∧ l.yielded < l.accepted.length) :=
          fun hmore => absurd hmore.2 (Nat.not_lt_of_le hle)
        rw [after, if_neg hnone]
        exact h
    | acknowledge id =>
        simp only [after]
        split <;> exact h
    | close id => exact hasMore_eq_false_iff.mpr (.inr ⟨rfl, hle⟩)
    | fail id cause =>
        simp only [after]
        split
        · exact hasMore_eq_false_iff.mpr (.inl (Option.some_ne_none cause))
        · exact h
    | _ => exact h

theorem hasMore_mark (h : l.hasMore = false) (m : Mark) : (l.mark id m).hasMore = false := by
  cases m with
  | accessed a reply =>
      simp only [mark]
      split
      · exact hasMore_after h a
      · exact h
  | _ => exact h

theorem hasMore_ofLog {past log : Log} (h : (ofLog id past).hasMore = false) (hlog : past <+: log) :
    (ofLog id log).hasMore = false := by
  obtain ⟨more, rfl⟩ := hlog
  rw [ofLog, List.foldl_append]
  exact List.foldlRecOn (motive := fun l : Ledger => l.hasMore = false) more _ h
    fun _ hl entry _ => hasMore_mark hl entry.2

theorem failure_after_eq {a : Access} (ha : a.object? = some (.body id)) :
    (l.after a).failure = l.failure.or a.brought? := by
  cases a with
  | fail other cause => cases hfailure : l.failure <;> simp [after, Access.brought?, hfailure]
  | offer other chunk | next other | acknowledge other =>
      simp only [after, Access.brought?, Option.or_none]
      split <;> rfl
  | close other | listen other listener => exact Option.or_none.symm
  | _ => cases ha

theorem failure_mark_eq (l : Ledger) (id : Nat) (m : Mark) :
    (l.mark id m).failure = l.failure.or (m.failing? id) := by
  cases m with
  | accessed a reply =>
      by_cases ha : a.object? = some (.body id)
      · simp only [mark, Mark.failing?, if_pos ha]
        exact failure_after_eq ha
      · simp only [mark, Mark.failing?, if_neg ha, Option.or_none]
  | _ => exact Option.or_none.symm

theorem failure_ofLog_eq (id : Nat) (log : Log) :
    (ofLog id log).failure = firstFailure id log := by
  induction log using List.reverseRecOn with
  | nil => rfl
  | append_singleton log entry ih =>
      rw [ofLog_concat, failure_mark_eq, ih, firstFailure, firstFailure, List.findSome?_append]
      cases h : entry.2.failing? id <;> simp [h]

end Ledger

/-! ## What the body answers -/

theorem Body.next_of_not_yielded {b : Body} (h : ∀ octets, b.next.1 ≠ .ok (some octets)) :
    b.next.2 = b := by
  unfold next at h ⊢
  split at h
  · rfl
  · exact absurd rfl (h _)
  · rfl

namespace Store

variable {s : Store} {id : Nat} {b : Body}

theorem next_eq (hb : s.bodies[id]? = some b) :
    s.next id = (b.next.1, s.putBody id b.next.2) := by
  simp only [next, hb]

theorem putBody_self (hb : s.bodies[id]? = some b) : s.putBody id b = s := by
  obtain ⟨hlt, rfl⟩ := List.getElem?_eq_some_iff.mp hb
  rw [putBody, List.set_getElem_self]

/-- Only a chunk that is yielded leaves a trace. -/
theorem next_of_not_yielded (hb : s.bodies[id]? = some b)
    (h : ∀ octets, (s.next id).1 ≠ .ok (some octets)) : (s.next id).2 = s := by
  rw [next_eq hb] at h ⊢
  rw [Body.next_of_not_yielded h, putBody_self hb]

/-- Whether the body has more, and what a `next` in the same store answers. -/
structure Foretells (s : Store) (id : Nat) (b : Body) : Prop where
  /-- A body that has more yields a chunk, or nothing as yet. -/
  more : b.hasMore = true ↔ ∃ octets?, (s.next id).1 = .ok octets?
  noMore : b.hasMore = false ↔ ∃ refusal, (s.next id).1 = .error refusal
  /-- Where no chunk is yielded, nothing changes. -/
  unchanged : (∀ octets, (s.next id).1 ≠ .ok (some octets)) → (s.next id).2 = s

theorem foretells_of_agrees (hb : s.bodies[id]? = some b) {l : Ledger} (h : l.Agrees b) :
    s.Foretells id b := by
  have hanswer : (s.next id).1 = l.next := by
    rw [next_eq hb]
    exact (h.next id).1
  have hmore := h.hasMore_eq
  cases hledger : l.hasMore with
  | true =>
      rw [hledger] at hmore
      rw [Ledger.next_of_hasMore hledger] at hanswer
      refine ⟨?_, ?_, next_of_not_yielded hb⟩
      · simp [hmore, hanswer]
      · simp [hmore, hanswer]
  | false =>
      rw [hledger] at hmore
      rw [Ledger.next_of_not_hasMore hledger] at hanswer
      refine ⟨?_, ?_, next_of_not_yielded hb⟩
      · simp [hmore, hanswer]
      · simp [hmore, hanswer]

end Store

namespace World

/-- The body has no more to yield, and says so to every `next`, with the failure if there is one. -/
structure Exhausted (w : World) (id : Nat) : Prop where
  body : ∃ b, w.store.bodies[id]? = some b ∧ b.hasMore = false ∧ b.failure = firstFailure id w.log
  next : w.store.next id = (.error (.ofFailure (firstFailure id w.log)), w.store)

theorem Reachable.exhausted {w : World} (h : w.Reachable) {id : Nat} {b : Body}
    (hb : w.store.bodies[id]? = some b) (hmore : (Ledger.ofLog id w.log).hasMore = false) :
    w.Exhausted id := by
  have hagrees := (h.kept id).agrees b hb
  have hanswer : (w.store.next id).1 = .error (.ofFailure (firstFailure id w.log)) := by
    rw [Store.next_eq hb, ← Ledger.failure_ofLog_eq, ← Ledger.next_of_not_hasMore hmore]
    exact (hagrees.next id).1
  refine ⟨⟨b, hb, hagrees.hasMore_eq.trans hmore, ?_⟩, ?_⟩
  · rw [hagrees.failure_eq, Ledger.failure_ofLog_eq]
  · refine Prod.ext hanswer (Store.next_of_not_yielded hb ?_)
    rw [hanswer]
    exact nofun

end World

namespace Body

open World

/-- At every moment of a run a body has more if and only if a `next` would not be refused, and only
a `next` that yields a chunk changes anything. Once it has no more, it has none ever after. Then
every `next` is refused, for being over or, as soon as a failure is stored, with the first one. -/
theorem exhausted_for_good (moves : List Move) {id : Nat} {b : Body}
    (hb : (after moves).store.bodies[id]? = some b) :
    (after moves).store.Foretells id b ∧
      (b.hasMore = false → ∀ more, (after (moves ++ more)).Exhausted id) := by
  have hagrees := ((reachable_after moves).kept id).agrees b hb
  refine ⟨Store.foretells_of_agrees hb hagrees, ?_⟩
  intro hmore more
  have hlater : (Ledger.ofLog id (after (moves ++ more)).log).hasMore = false :=
    Ledger.hasMore_ofLog (hagrees.hasMore_eq.symm.trans hmore) (log_prefix_after moves more)
  have hlt := (List.getElem?_eq_some_iff.mp hb).1
  have hlt' := Nat.lt_of_lt_of_le hlt (grown_after moves more).bodies
  exact (reachable_after (moves ++ more)).exhausted (List.getElem?_eq_getElem hlt') hlater

def hungUp : Cause := ⟨0, .message "hung up"⟩

/-- One chunk is offered and yielded, and the body is closed. -/
def drained : List Move :=
  [.create .body, .create (.cause hungUp.wrapped), .enter 0 (.offer 0 ⟨[1], .ignore⟩), .advance 0,
    .advance 0, .enter 0 (.next 0), .advance 0, .advance 0, .enter 0 (.close 0), .advance 0,
    .advance 0]

/-- The body fails while that chunk is still in flight. -/
def failedThen : List Move := [.enter 0 (.fail 0 hungUp), .advance 0]

theorem bodies_drained : (after drained).store.bodies[0]? =
    some { inFlight := [⟨[1], .ignore⟩], outstanding := 1, closed := true } := by
  decide

theorem exhausted_drained :
    ∃ b, (after drained).store.bodies[0]? = some b ∧ b.hasMore = false ∧
      (after drained).store.Foretells 0 b ∧
        ((after drained).store.next 0).1 = .error .exhausted ∧
          (after (drained ++ failedThen)).Exhausted 0 ∧
            firstFailure 0 (after (drained ++ failedThen)).log = some hungUp := by
  obtain ⟨hforetells, hlater⟩ := exhausted_for_good drained bodies_drained
  exact ⟨_, bodies_drained, rfl, hforetells, rfl, hlater rfl failedThen, rfl⟩

end Body

end OneShot
