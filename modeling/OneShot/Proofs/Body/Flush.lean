import OneShot.Proofs.Body.Agreement
import OneShot.Proofs.Calls.Growth

/-!
# Flushing a body

A flush waits until no chunk is outstanding, whenever that is. So it waits for
the chunks offered before it, but it waits for those offered since as well.
-/

namespace OneShot

namespace Ledger

theorem accepted_prefix_mark (l : Ledger) (id : Nat) (m : Mark) :
    l.accepted <+: (l.mark id m).accepted := by
  cases m with
  | accessed a reply =>
      simp only [mark]
      split
      · cases a with
        | offer other chunk =>
            simp only [after]
            split
            · exact List.prefix_append _ _
            · exact List.prefix_rfl
        | next other | acknowledge other | fail other cause =>
            simp only [after]
            split <;> exact List.prefix_rfl
        | _ => exact List.prefix_rfl
      · exact List.prefix_rfl
  | _ => exact List.prefix_rfl

/-- What has been accepted stays at the head of all that is accepted later. -/
theorem accepted_prefix_ofLog (id : Nat) {past log : Log} (h : past <+: log) :
    (ofLog id past).accepted <+: (ofLog id log).accepted := by
  obtain ⟨more, rfl⟩ := h
  rw [ofLog, ofLog, List.foldl_append]
  exact List.foldlRecOn (motive := fun l : Ledger => (ofLog id past).accepted <+: l.accepted) more _
    List.prefix_rfl fun l h entry _ => h.trans (l.accepted_prefix_mark id entry.2)

theorem Agrees.flush?_eq_ok_iff {l : Ledger} {b : Body} (h : l.Agrees b)
    (hfailure : b.failure = none) :
    b.flush? = some (.ok ()) ↔ l.accepted.length ≤ l.acknowledged := by
  have hpending : l.pending = l.accepted.drop l.acknowledged :=
    if_pos (h.failure_eq.symm.trans hfailure)
  rw [← List.drop_eq_nil_iff, ← hpending, ← h.outstanding_eq_zero_iff, Body.flush?, hfailure]
  simp only
  split
  · rename_i hzero
    exact iff_of_true rfl hzero
  · rename_i hcount
    exact iff_of_false nofun hcount

/-- How it stands with a flush: the first ledger is that of the call, the second and the body are
those of now. -/
structure Awaits (called now : Ledger) (b : Body) : Prop where
  accepted : called.accepted <+: now.accepted
  /-- The flush comes back if all that was ever accepted is acknowledged, and only then. -/
  back_iff : b.flush? = some (.ok ()) ↔ now.accepted.length ≤ now.acknowledged
  not_before : b.flush? = some (.ok ()) → called.accepted.length ≤ now.acknowledged
  /-- Once all is acknowledged that was accepted before the call, it is chunks offered since that
  the flush waits for. -/
  offered_since : called.accepted.length ≤ now.acknowledged →
    b.pending <:+ now.accepted.drop called.accepted.length

theorem Agrees.awaits {called now : Ledger} {b : Body} (h : now.Agrees b)
    (hfailure : b.failure = none) (haccepted : called.accepted <+: now.accepted) :
    called.Awaits now b := by
  have hback := h.flush?_eq_ok_iff hfailure
  refine ⟨haccepted, hback, fun hok => haccepted.length_le.trans (hback.mp hok), fun hdone => ?_⟩
  rw [h.pending_eq, pending, if_pos (h.failure_eq.symm.trans hfailure),
    ← Nat.sub_add_cancel hdone, Nat.add_comm, ← List.drop_drop]
  exact List.drop_suffix _ _

end Ledger

namespace Body

/-- A flush is called after some moves, and the body has not failed when some more have been made:
the flush waits for the chunks accepted before the call, and for those accepted since. -/
theorem flush_waits_for_all (moves more : List Move) (id : Nat) {b : Body}
    (hb : (World.after (moves ++ more)).store.bodies[id]? = some b) (hfailure : b.failure = none) :
    (Ledger.ofLog id (World.after moves).log).Awaits
      (Ledger.ofLog id (World.after (moves ++ more)).log) b := by
  have hagrees := ((World.reachable_after (moves ++ more)).kept id).agrees b hb
  have haccepted := Ledger.accepted_prefix_ofLog id (World.log_prefix_after moves more)
  exact hagrees.awaits hfailure haccepted

/-! ## An offer during a flush -/

/-- A chunk is offered and yielded. -/
def beforeFlush : List Move :=
  [.create .body, .enter 0 (.offer 0 ⟨[1], .ignore⟩), .advance 0, .advance 0,
    .enter 0 (.next 0), .advance 0, .advance 0]

/-- Another chunk is offered; then the first is acknowledged. -/
def duringFlush : List Move :=
  [.enter 1 (.offer 0 ⟨[2], .ignore⟩), .advance 1, .advance 1, .enter 1 (.acknowledge 0),
    .advance 1]

def offeredSince : Body := { queued := [⟨[2], .ignore⟩], outstanding := 1 }

theorem bodies_duringFlush :
    (World.after (beforeFlush ++ duringFlush)).store.bodies[0]? = some offeredSince := by
  decide

theorem flush_waits_for_offeredSince :
    (World.after (beforeFlush ++ duringFlush)).store.bodies[0]? = some offeredSince ∧
      offeredSince.failure = none ∧
        (Ledger.ofLog 0 (World.after beforeFlush).log).Awaits
          (Ledger.ofLog 0 (World.after (beforeFlush ++ duringFlush)).log) offeredSince :=
  ⟨bodies_duringFlush, rfl, flush_waits_for_all beforeFlush duringFlush 0 bodies_duringFlush rfl⟩

/-- It is not so that a flush comes back as soon as all that was accepted before it is
acknowledged. -/
theorem kept_by_later_offer :
    ¬ ∀ (moves more : List Move) (id : Nat) (b b' : Body),
      (World.after moves).store.bodies[id]? = some b → b.failure = none →
        (World.after (moves ++ more)).store.bodies[id]? = some b' → b'.failure = none →
          ((Ledger.ofLog id (World.after moves).log).accepted.length ≤
              (Ledger.ofLog id (World.after (moves ++ more)).log).acknowledged ↔
            b'.flush? = some (.ok ())) := by
  intro hall
  have hbody : (World.after beforeFlush).store.bodies[0]? =
      some { inFlight := [⟨[1], .ignore⟩], outstanding := 1 } := by decide
  have hdone : (Ledger.ofLog 0 (World.after beforeFlush).log).accepted.length ≤
      (Ledger.ofLog 0 (World.after (beforeFlush ++ duringFlush)).log).acknowledged := by decide
  have hback := (hall _ _ _ _ _ hbody rfl bodies_duringFlush rfl).mp hdone
  nomatch hback

end Body

end OneShot
