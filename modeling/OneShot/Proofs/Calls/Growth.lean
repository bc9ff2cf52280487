import OneShot.Proofs.Calls.Passage
import OneShot.Proofs.Failure.Growth

/-!
# The growth of a store

Nothing that has been made is ever unmade: whatever is accessed or created,
the latches, gates and bodies stay and the register grows. So what a call was
about when it was entered is there as long as the call is in progress.
-/

namespace OneShot

open Relation

namespace Store

/-- Nothing that was in the first store is lost in the second. -/
structure Grown (s s' : Store) : Prop where
  register : s.register.Grown s'.register
  latches : s.latches.length ≤ s'.latches.length
  gates : s.gates.length ≤ s'.gates.length
  bodies : s.bodies.length ≤ s'.bodies.length

variable {s s' s'' : Store}

theorem Grown.refl (s : Store) : s.Grown s :=
  ⟨.refl _, Nat.le_refl _, Nat.le_refl _, Nat.le_refl _⟩

theorem Grown.trans (h : s.Grown s') (h' : s'.Grown s'') : s.Grown s'' :=
  ⟨h.register.trans h'.register, Nat.le_trans h.latches h'.latches,
    Nat.le_trans h.gates h'.gates, Nat.le_trans h.bodies h'.bodies⟩

theorem grown_suppress (s : Store) (keeper late : Cause) : s.Grown (s.suppress keeper late) :=
  { Grown.refl s with register := Register.grown_suppress s.register keeper late }

theorem grown_addCause (s : Store) (wrapped : Fault) : s.Grown (s.addCause wrapped).2 :=
  { Grown.refl s with register := Register.grown_create s.register wrapped }

theorem grown_putBody (s : Store) (id : Nat) (b : Body) : s.Grown (s.putBody id b) :=
  { Grown.refl s with bodies := Nat.le_of_eq List.length_set.symm }

theorem grown_receive (s : Store) (id : Nat) (signal : Signal) :
    s.Grown (s.receive id signal).2 := by
  rw [receive]
  split
  · exact .refl s
  · exact { Grown.refl s with latches := Nat.le_of_eq List.length_set.symm }

theorem grown_publish (s : Store) (id : Nat) : s.Grown (s.publish id).2 := by
  rw [publish]
  split
  · exact .refl s
  · exact { Grown.refl s with latches := Nat.le_of_eq List.length_set.symm }

theorem grown_settle (s : Store) (id : Nat) (ending : Ending) : s.Grown (s.settle id ending) := by
  rw [settle]
  split
  · exact .refl s
  · rename_i gate _
    have hset : s.Grown { s with gates := s.gates.set id (gate.settle ending) } :=
      { Grown.refl s with gates := Nat.le_of_eq List.length_set.symm }
    split
    · exact hset
    · exact hset.trans (grown_suppress _ _ _)

theorem grown_offer (s : Store) (id : Nat) (chunk : Chunk) : s.Grown (s.offer id chunk).2 := by
  rw [offer]
  split
  · exact .refl s
  · split
    · exact grown_putBody s id _
    · split
      · exact .refl s
      · exact grown_addCause s _

theorem grown_fail (s : Store) (id : Nat) (cause : Cause) : s.Grown (s.fail id cause).2 := by
  rw [fail]
  split
  · exact .refl s
  · split
    · exact grown_suppress s _ cause
    · exact grown_putBody s id _

theorem grown_perform (s : Store) (a : Access) : s.Grown (s.perform a).2 := by
  cases a with
  | receive id signal => exact grown_receive s id signal
  | publish id => exact grown_publish s id
  | suppress keeper late => exact grown_suppress s keeper late
  | settle id ending => exact grown_settle s id ending
  | offer id chunk => exact grown_offer s id chunk
  | fail id cause => exact grown_fail s id cause
  | next id | acknowledge id | listen id listener =>
      simp only [perform, next, acknowledge, listen]
      split
      · exact .refl s
      · exact grown_putBody s id _
  | close id =>
      simp only [perform, close]
      split
      · exact .refl s
      · split
        · exact .refl s
        · exact grown_putBody s id _

theorem grown_add (s : Store) (novelty : Novelty) : s.Grown (s.add novelty) := by
  cases novelty with
  | latch hooks => exact { Grown.refl s with latches := by simp [add, addLatch] }
  | gate => exact { Grown.refl s with gates := by simp [add, addGate] }
  | body => exact { Grown.refl s with bodies := by simp [add, addBody] }
  | cause wrapped =>
      simp only [add]
      split
      · exact grown_addCause s wrapped
      · exact .refl s

end Store

/-! ## Later stores -/

namespace Store

/-- One access or one creation leads from the first store to the second. -/
inductive Change (s : Store) : Store → Prop
  | access (a : Access) : Change s (s.perform a).2
  | create (novelty : Novelty) : Change s (s.add novelty)

/-- Accesses and creations lead from the first store to the second, whoever makes them. -/
def Precedes : Store → Store → Prop := ReflTransGen Change

theorem Precedes.refl (s : Store) : s.Precedes s := ReflTransGen.refl

theorem Precedes.trans {s s' s'' : Store} (h : s.Precedes s') (h' : s'.Precedes s'') :
    s.Precedes s'' := ReflTransGen.trans h h'

theorem precedes_perform (s : Store) (a : Access) : s.Precedes (s.perform a).2 :=
  .single (.access a)

/-- What no change undoes holds of every later store. -/
theorem Precedes.keeps {P : Store → Prop} (hkeeps : ∀ s s', Change s s' → P s → P s')
    {s s' : Store} (h : s.Precedes s') (hP : P s) : P s' := by
  induction h with
  | refl => exact hP
  | tail _ hchange ih => exact hkeeps _ _ hchange ih

theorem Change.grown {s s' : Store} (h : s.Change s') : s.Grown s' := by
  cases h with
  | access a => exact grown_perform s a
  | create novelty => exact grown_add s novelty

end Store

namespace Course

variable {α μ : Type} {answer : Surroundings μ}

/-- The surroundings use the store as every caller does. -/
def Surroundings.Proper (answer : Surroundings μ) : Prop :=
  ∀ u memory (s : Store), s.Precedes (answer u memory s).2.2

/-- So what runs in proper surroundings may itself be part of such. -/
theorem precedes_run (h : answer.Proper) (course : Course α) (memory : μ) (s : Store) :
    s.Precedes (course.run answer memory s).2.2 := by
  induction course generalizing memory s with
  | done outcome => exact .refl s
  | access a next ih => exact (s.precedes_perform a).trans (ih _ _ _)
  | upcall u next ih => exact (h u memory s).trans (ih _ _ _)

end Course

theorem Act.eq_or_change {w w' : World} (h : Act w w') :
    w'.store = w.store ∨ w.store.Change w'.store := by
  cases h with
  | access => exact .inr (.access _)
  | create => exact .inr (.create _)
  | _ => exact .inl rfl

theorem Act.grown {w w' : World} (h : Act w w') : w.store.Grown w'.store := by
  rcases h.eq_or_change with hsame | hchange
  · rw [hsame]
    exact .refl _
  · exact hchange.grown

theorem Call.Known.mono {call : Call} {s s' : Store} (h : call.Known s) (hgrown : s.Grown s') :
    call.Known s' := by
  refine ⟨?_, fun c hc => hgrown.register.causes.subset (h.2 c hc)⟩
  have hobject := h.1
  cases call with
  | signal id signal => exact Nat.lt_of_lt_of_le hobject hgrown.latches
  | settle id ending => exact Nat.lt_of_lt_of_le hobject hgrown.gates
  | suppress keeper late => trivial
  | _ => exact Nat.lt_of_lt_of_le hobject hgrown.bodies

namespace World

theorem after_append (moves more : List Move) :
    after (moves ++ more) = more.foldl step (after moves) := List.foldl_append

theorem after_concat (moves : List Move) (move : Move) :
    after (moves ++ [move]) = (after moves).step move := after_append moves [move]

theorem grown_step (w : World) (move : Move) : w.store.Grown (w.step move).store := by
  rcases w.step_eq_or_act move with hsame | hact
  · rw [hsame]
    exact .refl _
  · exact hact.grown

theorem grown_after (moves more : List Move) :
    (after moves).store.Grown (after (moves ++ more)).store := by
  rw [after_append]
  exact List.foldlRecOn (motive := fun w => (after moves).store.Grown w.store) more step (.refl _)
    fun w h move _ => h.trans (w.grown_step move)

theorem log_prefix_step (w : World) (move : Move) : w.log <+: (w.step move).log := by
  rcases w.step_eq_or_act move with hsame | hact
  · rw [hsame]
  · rcases hact.log_eq with hsame | ⟨entry, hlog⟩
    · rw [hsame]
    · rw [hlog]
      exact List.prefix_append _ _

theorem log_prefix_after (moves more : List Move) :
    (after moves).log <+: (after (moves ++ more)).log := by
  rw [after_append]
  exact List.foldlRecOn (motive := fun w => (after moves).log <+: w.log) more step List.prefix_rfl
    fun w h move _ => h.trans (w.log_prefix_step move)

/-- What a call in progress is about has been made. -/
theorem Reachable.known {w : World} (h : w.Reachable) {caller : Nat} {frame : Frame}
    (hmem : frame ∈ w.frames caller) : frame.call.Known w.store := by
  induction h generalizing frame with
  | empty => nomatch hmem
  | @act w w' hw hact ih =>
      rcases hact.exists_frame hmem with ⟨old, hold, hcall⟩ | hknown
      · exact hcall ▸ (ih hold).mono hact.grown
      · exact hknown.mono hact.grown

/-- What an act with a mark in the log has brought about, and no change undoes, is so since. -/
theorem Reachable.of_mem_log {w : World} (h : w.Reachable) {P : Store → Prop}
    (hkeeps : ∀ s s', Store.Change s s' → P s → P s') {entry : Nat × Mark} (hmem : entry ∈ w.log)
    (hmade : ∀ v v' : World, v.Reachable → Act v v' → v'.log = v.log ++ [entry] → P v'.store) :
    P w.store := by
  induction h with
  | empty => nomatch hmem
  | @act w w' hw hact ih =>
      have hpast (hold : entry ∈ w.log) : P w'.store := by
        rcases hact.eq_or_change with hsame | hchange
        · rw [hsame]
          exact ih hold
        · exact hkeeps _ _ hchange (ih hold)
      rcases hact.log_eq with hsame | ⟨last, hlog⟩
      · exact hpast (hsame ▸ hmem)
      · rw [hlog] at hmem
        rcases List.mem_append.mp hmem with hold | hnew
        · exact hpast hold
        · obtain rfl := List.mem_singleton.mp hnew
          exact hmade w w' hw hact hlog

end World

end OneShot
