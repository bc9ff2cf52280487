import OneShot.Proofs.Body.Agreement

/-!
# Failing a body

The first failure of a body is told to the callbacks of the chunks pending,
in the order of the offers, and then to the listener. A callback that panics
cuts this short, and the chunks behind it have left the body by then.
-/

namespace OneShot

/-- The upcalls that the first failure is to make. -/
def Ledger.uponFailure (l : Ledger) (id : Nat) (cause : Cause) : List Upcall :=
  l.pending.map (fun chunk => .chunk id chunk.sink (.failure cause)) ++
    Body.listening id l.listener

def returns (us : List Upcall) : List Mark :=
  us.flatMap fun u => [.started u, .ended u (.returned ())]

theorem Told.returned_or_panicked {us : List Upcall} {marks : List Mark} {outcome : Outcome Unit}
    (h : Told us marks outcome) :
    (outcome = .returned () ∧ marks = returns us) ∨
      ∃ made u rest text, us = made ++ u :: rest ∧ outcome = .panicked text ∧
        marks = returns made ++ [.started u, .ended u (.panicked text)] := by
  induction h with
  | nil => exact .inl ⟨rfl, rfl⟩
  | returned first h ih =>
      rcases ih with ⟨rfl, rfl⟩ | ⟨made, u, rest, text, rfl, rfl, rfl⟩
      · exact .inl ⟨rfl, rfl⟩
      · exact .inr ⟨first :: made, u, rest, text, rfl, rfl, rfl⟩
  | panicked u us text => exact .inr ⟨[], u, us, text, rfl, rfl, rfl⟩

/-- What is seen of a call that fails a body. -/
inductive Passage.Fails (id : Nat) (cause : Cause) : Passage → Outcome Response → Prop
  | again {before reply} (hfailure : (Ledger.ofLog id before).failure ≠ none) :
      Fails id cause ⟨.fail id cause, [(before, .accessed (.fail id cause) reply)]⟩
        (.returned (.truth false))
  | through {before reply marks} (hfailure : (Ledger.ofLog id before).failure = none)
      (hmarks : marks.map Prod.snd = returns ((Ledger.ofLog id before).uponFailure id cause)) :
      Fails id cause ⟨.fail id cause, (before, .accessed (.fail id cause) reply) :: marks⟩
        (.returned (.truth true))
  | cutShort {before reply marks made u rest text}
      (hfailure : (Ledger.ofLog id before).failure = none)
      (hupcalls : (Ledger.ofLog id before).uponFailure id cause = made ++ u :: rest)
      (hmarks : marks.map Prod.snd = returns made ++ [.started u, .ended u (.panicked text)]) :
      Fails id cause ⟨.fail id cause, (before, .accessed (.fail id cause) reply) :: marks⟩
        (.panicked text)

theorem Passage.Served.fails {id : Nat} {cause : Cause} {p : Passage} {outcome : Outcome Response}
    (h : p.Served id outcome) (hcall : p.call = .fail id cause) : p.Fails id cause outcome := by
  cases h with
  | @intro call a reply before us response told ended haccess hserves htold =>
      obtain rfl : call = .fail id cause := hcall
      cases haccess
      cases hserves with
      | failed hfailure =>
          rcases htold.returned_or_panicked with
            ⟨rfl, hmarks⟩ | ⟨made, u, rest, text, hupcalls, rfl, hmarks⟩
          · exact .through hfailure hmarks
          · exact .cutShort hfailure hupcalls hmarks
      | failedBefore hfailure =>
          generalize hmarks : told.map Prod.snd = marks at htold
          cases htold
          obtain rfl := List.map_eq_nil_iff.mp hmarks
          exact .again hfailure

theorem Passage.Fails.exists_access {id : Nat} {cause : Cause} {p : Passage}
    {outcome : Outcome Response} (h : p.Fails id cause outcome) :
    ∃ before reply, (before, Mark.accessed (.fail id cause) reply) ∈ p.marks := by
  cases h <;> exact ⟨_, _, List.mem_cons_self⟩

namespace Body

/-- A call that fails a body for the first time goes through the callbacks of the chunks pending
and the listener up to the first that panics; a call that fails it again makes no upcall. Either
way nothing is pending after it. -/
theorem failing_until_panic (moves : List Move) (id : Nat) :
    ∀ past caller cause outcome,
      (past, caller, .left (.fail id cause) outcome) ∈ dated (World.after moves).log →
        (∃ p others, passages caller past = p :: others ∧ p.Fails id cause outcome) ∧
          (Ledger.ofLog id past).pending = [] := by
  intro past caller cause outcome hleft
  have hreachable := World.reachable_after moves
  obtain ⟨p, others, hpassages, hcall, hserved⟩ := hreachable.exists_served hleft rfl
  have hfails := hserved.fails hcall
  refine ⟨⟨p, others, hpassages, hfails⟩, ?_⟩
  obtain ⟨marks, _, hsame, -, hdated, -⟩ := hreachable.exists_passage_of_left hleft
  obtain ⟨rfl, -⟩ := List.cons.inj (hpassages.symm.trans hsame)
  obtain ⟨before, reply, haccess⟩ := hfails.exists_access
  exact if_neg (Ledger.failure_of_fail_mem (hdated _ haccess))

end Body

/-! ## A panic on the way -/

def Mark.started? : Mark → Option Upcall
  | .started u => some u
  | _ => none

namespace Body

def lostConnection : Cause := ⟨0, .message "connection lost"⟩

/-- A body with a listener fails while two chunks are pending; the callback of the first panics. -/
def panicInsideFailing : List Move :=
  [.create (.cause lostConnection.wrapped), .create .body,
    .enter 0 (.listen 0 9), .advance 0, .advance 0,
    .enter 0 (.offer 0 ⟨[1], .pair 0 1⟩), .advance 0, .advance 0, .comeBack 0 (.returned ()),
    .advance 0,
    .enter 0 (.offer 0 ⟨[2], .pair 2 3⟩), .advance 0, .advance 0, .comeBack 0 (.returned ()),
    .advance 0,
    .enter 0 (.fail 0 lostConnection), .advance 0, .advance 0, .comeBack 0 (.panicked "sink")]

theorem log_panicInsideFailing :
    (World.after (panicInsideFailing ++ [.advance 0])).log =
      (World.after panicInsideFailing).log ++
        [(0, .left (.fail 0 lostConnection) (.panicked "sink"))] := rfl

theorem mem_dated_panicInsideFailing :
    ((World.after panicInsideFailing).log, 0,
      Mark.left (.fail 0 lostConnection) (.panicked "sink")) ∈
        dated (World.after (panicInsideFailing ++ [.advance 0])).log := by
  rw [log_panicInsideFailing, dated_concat]
  exact List.mem_append_right _ List.mem_cons_self

theorem failing_panicInsideFailing :
    ((World.after panicInsideFailing).log, 0,
      Mark.left (.fail 0 lostConnection) (.panicked "sink")) ∈
        dated (World.after (panicInsideFailing ++ [.advance 0])).log ∧
      (∃ p others, passages 0 (World.after panicInsideFailing).log = p :: others ∧
        p.Fails 0 lostConnection (.panicked "sink")) ∧
          (Ledger.ofLog 0 (World.after panicInsideFailing).log).pending = [] :=
  ⟨mem_dated_panicInsideFailing,
    failing_until_panic _ 0 _ _ _ _ mem_dated_panicInsideFailing⟩

theorem passages_panicInsideFailing :
    (passages 0 (World.after panicInsideFailing).log).map (fun p =>
      (p.marks.filterMap (·.2.started?),
        p.marks.head?.map fun m =>
          ((Ledger.ofLog 0 m.1).failure, (Ledger.ofLog 0 m.1).uponFailure 0 lostConnection))) =
      [([.chunk 0 (.pair 0 1) (.failure lostConnection)],
        some (none, [.chunk 0 (.pair 0 1) (.failure lostConnection),
          .chunk 0 (.pair 2 3) (.failure lostConnection), .listener 0 9]))] := by
  decide

/-- It is not so that a failure is told to every chunk pending and to the listener, whichever
callbacks panic. -/
theorem skipped_behind_panic :
    ¬ ∀ (moves : List Move) (id : Nat) (past : Log) (caller : Nat) (cause : Cause)
        (outcome : Outcome Response),
      (past, caller, .left (.fail id cause) outcome) ∈ dated (World.after moves).log →
        ∃ before reply marks others,
          passages caller past =
            ⟨.fail id cause, (before, .accessed (.fail id cause) reply) :: marks⟩ :: others ∧
            ((Ledger.ofLog id before).failure = none →
              marks.filterMap (·.2.started?) = (Ledger.ofLog id before).uponFailure id cause) := by
  intro hall
  obtain ⟨before, reply, marks, others, hpassages, htold⟩ :=
    hall _ _ _ _ _ _ mem_dated_panicInsideFailing
  have hfacts := passages_panicInsideFailing
  rw [hpassages] at hfacts
  simp only [List.map_cons, List.cons.injEq, Prod.mk.injEq, List.head?_cons, Option.map_some,
    Option.some.injEq] at hfacts
  obtain ⟨⟨hstarted, hfailure, hupon⟩, -⟩ := hfacts
  have hmarks : marks.filterMap (·.2.started?) =
      [.chunk 0 (.pair 0 1) (.failure lostConnection)] := hstarted
  nomatch (hmarks.symm.trans (htold hfailure)).trans hupon

end Body

end OneShot
