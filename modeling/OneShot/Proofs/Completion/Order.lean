import OneShot.Proofs.Completion.Ledger

/-!
# The order of the hooks

Whatever calls are made, from wherever and however they interleave, and
whichever hooks panic, the hooks of a latch run one at a time, each once at
most, and in the order of one of three lives. When no call to the latch is
in progress its state tells which hooks have run and how.
-/

namespace OneShot.Latch

/-- The hooks that a latch may run, in order. A cause is one throughout. -/
inductive Life : List Hook → Prop
  | success : Life [.succeeded, .completed none]
  | failure (c : Cause) : Life [.failed c, .completed (some c)]
  | abort (c : Cause) : Life [.aborted c, .failed c, .completed (some c)]

theorem Progress.exists_life {state : State} {beats : List Beat} {ended : Bool}
    {tasks : List Task} (h : Progress state beats ended tasks) :
    ∃ hooks, Life hooks ∧ beats.map Beat.task <+: script hooks := by
  cases h with
  | idle => exact ⟨_, .success, List.nil_prefix⟩
  | aborting h =>
      rename_i c
      refine ⟨_, .abort c, ?_⟩
      have hprefix : beats.map Beat.task <+: script [.aborted c, .failed c] ++ [.publish c] :=
        ⟨tasks, h⟩
      obtain hall | hpart := List.prefix_concat_iff.mp hprefix
      · -- Nothing that is seen publishes.
        have hnone := any_isPublish_map_task beats
        rw [hall, List.any_append] at hnone
        nomatch hnone
      · exact hpart.trans ⟨script [.completed (some c)], rfl⟩
  | aborted h =>
      rename_i c
      rw [h]
      exact ⟨_, .abort c, script [.completed (some c)], rfl⟩
  | succeeded h => exact ⟨_, .success, h.isPrefix⟩
  | failed h => exact ⟨_, .failure _, h.isPrefix⟩
  | completed hpast h =>
      rename_i c past more
      obtain ⟨rest, hrest⟩ := h.isPrefix
      refine ⟨_, .abort c, rest, ?_⟩
      rw [List.map_append, List.append_assoc, hpast, hrest]
      rfl

/-- In every run, what is seen of the hooks of a latch goes along the script of one life. So no hook
starts twice, or before the hook before it has come back; and completion is told of no cause if
success was, and else of the cause that the hooks before it were told of. -/
theorem hooks_in_order (moves : List Move) (id : Nat) :
    ∃ hooks, Life hooks ∧
      (beats id (World.after moves).log).map Beat.task <+: script hooks := by
  obtain ⟨b, hbooked, hsound⟩ := exists_sound moves id
  obtain ⟨tasks, -, hprogress⟩ := hsound.progress
  rw [← hbooked.log_eq]
  exact hprogress.exists_life

/-! ## Latches at rest -/

/-- The hooks that have run, and how, when a latch is at rest in a state. -/
def State.AtRest : State → List Beat → Prop
  | idle, beats => beats = []
  | aborting _ _, _ => False
  | aborted c, beats => ∃ first second, beats = ran (.aborted c) first ++ ran (.failed c) second
  | succeeded, beats =>
      (∃ last, beats = ran .succeeded (.returned ()) ++ ran (.completed none) last) ∨
        ∃ text, beats = ran .succeeded (.panicked text)
  | failed c, beats =>
      (∃ last, beats = ran (.failed c) (.returned ()) ++ ran (.completed (some c)) last) ∨
        (∃ text, beats = ran (.failed c) (.panicked text)) ∨
          ∃ first second last, beats =
            ran (.aborted c) first ++ ran (.failed c) second ++ ran (.completed (some c)) last

theorem exists_ran {beats : List Beat} {hook : Hook} {tasks : List Task}
    (h : beats.map Beat.task = .start hook :: .stop hook :: tasks) :
    ∃ outcome more, beats = ran hook outcome ++ more ∧ more.map Beat.task = tasks := by
  match beats, h with
  | .start first :: .stop second outcome :: more, h =>
      simp only [List.map_cons, Beat.task, List.cons.injEq, Task.start.injEq,
        Task.stop.injEq] at h
      obtain ⟨rfl, rfl, hmore⟩ := h
      exact ⟨outcome, more, rfl, hmore⟩

theorem exists_ran_of_abort {beats : List Beat} {c : Cause}
    (h : beats.map Beat.task = script (abortHooks c)) :
    ∃ first second, beats = ran (.aborted c) first ++ ran (.failed c) second := by
  obtain ⟨first, more, rfl, hmore⟩ := exists_ran h
  obtain ⟨second, rest, rfl, hrest⟩ := exists_ran hmore
  obtain rfl := List.map_eq_nil_iff.mp hrest
  exact ⟨first, second, by rw [List.append_nil]⟩

theorem Delivered.exists_ran {hook : Hook} {beats : List Beat}
    (h : Delivered [hook] beats []) : ∃ last, beats = ran hook last := by
  obtain ⟨text, rfl⟩ | ⟨more, rfl, hmore⟩ := h.of_nil
  · exact ⟨_, rfl⟩
  · rw [hmore.eq_nil, List.append_nil]
    exact ⟨_, rfl⟩

theorem Delivered.exists_ran_of_pair {first last : Hook} {beats : List Beat}
    (h : Delivered [first, last] beats []) :
    (∃ outcome, beats = ran first (.returned ()) ++ ran last outcome) ∨
      ∃ text, beats = ran first (.panicked text) := by
  obtain ⟨text, rfl⟩ | ⟨more, rfl, hmore⟩ := h.of_nil
  · exact .inr ⟨text, rfl⟩
  · obtain ⟨outcome, rfl⟩ := hmore.exists_ran
    exact .inl ⟨outcome, rfl⟩

theorem Progress.atRest {state : State} {beats : List Beat} {ended : Bool}
    (h : Progress state beats ended []) : state.AtRest beats ∧ state.isCompleted = ended := by
  cases h with
  | idle => exact ⟨rfl, rfl⟩
  | aborting h =>
      have hnone := any_isPublish_map_task beats
      rw [List.append_nil] at h
      rw [h] at hnone
      nomatch hnone
  | aborted h => exact ⟨exists_ran_of_abort h, rfl⟩
  | succeeded h => exact ⟨h.exists_ran_of_pair, rfl⟩
  | failed h =>
      refine ⟨?_, rfl⟩
      obtain hboth | hpanicked := h.exists_ran_of_pair
      · exact .inl hboth
      · exact .inr (.inl hpanicked)
  | completed hpast h =>
      obtain ⟨first, second, rfl⟩ := exists_ran_of_abort hpast
      obtain ⟨last, rfl⟩ := h.exists_ran
      exact ⟨.inr (.inr ⟨first, second, last, rfl⟩), rfl⟩

end Latch

namespace World

/-- No call to the latch is in progress. -/
def Quiet (w : World) (id : Nat) : Prop :=
  ∀ caller, ∀ frame ∈ w.frames caller, frame.call.object? ≠ some (.latch id)

end World

namespace Latch

/-- Between calls the state of a latch and what has been seen of its hooks agree, and the latch is
complete if and only if it has received an ending. -/
theorem atRest_of_quiet (moves : List Move) {id : Nat} {latch : Latch}
    (hquiet : (World.after moves).Quiet id)
    (hlatch : (World.after moves).store.latches[id]? = some latch) :
    latch.state.AtRest (beats id (World.after moves).log) ∧
      latch.state.isCompleted = hasEnded id (World.after moves).log := by
  obtain ⟨b, hbooked, hsound⟩ := exists_sound moves id
  obtain ⟨tasks, hsole, hprogress⟩ := hsound.progress
  rw [hbooked.store_eq, hbooked.log_eq, Store.stateOf_eq hlatch] at hprogress
  cases hsole with
  | nobody _ => exact hprogress.atRest
  | one howed hothers =>
      rename_i caller task tasks
      have hne : debts (b.accounts caller) ≠ [] := howed ▸ nofun
      obtain ⟨account, hmem, howes⟩ := exists_owed hne
      obtain ⟨frame, hframe, hcall⟩ := hbooked.exists_frame hmem
      exact absurd (hcall ▸ (hsound.fits caller account hmem).involved howes)
        (hquiet caller frame hframe)

def firstCause : Cause := ⟨0, .message "late"⟩

/-- The work ends while the first of the abort's hooks is running; then that hook panics. -/
def endingInsideAbort : List Move :=
  [.create (.cause firstCause.wrapped), .create (.latch {}),
    .enter 0 (.signal 0 (.abort firstCause)), .advance 0, .advance 0,
    .enter 0 (.signal 0 (.finish .success)), .advance 0, .advance 0,
    .comeBack 0 (.panicked "aborted"), .advance 0, .comeBack 0 (.returned ()), .advance 0,
    .advance 0, .comeBack 0 (.returned ()), .advance 0]

theorem frames_endingInsideAbort : ∀ caller, (World.after endingInsideAbort).frames caller = []
  | 0 => rfl
  | _ + 1 => rfl

theorem latches_endingInsideAbort :
    (World.after endingInsideAbort).store.latches = [⟨{}, .failed firstCause⟩] := by
  decide

theorem atRest_endingInsideAbort :
    (World.after endingInsideAbort).Quiet 0 ∧
      (World.after endingInsideAbort).store.latches[0]? = some ⟨{}, .failed firstCause⟩ ∧
        State.AtRest (.failed firstCause) (beats 0 (World.after endingInsideAbort).log) ∧
          State.isCompleted (.failed firstCause) =
            hasEnded 0 (World.after endingInsideAbort).log := by
  have hquiet : (World.after endingInsideAbort).Quiet 0 := by
    intro caller frame hmem
    rw [frames_endingInsideAbort caller] at hmem
    nomatch hmem
  have hlatch : (World.after endingInsideAbort).store.latches[0]? =
      some ⟨{}, .failed firstCause⟩ := by
    rw [latches_endingInsideAbort, List.getElem?_cons_zero]
  exact ⟨hquiet, hlatch, atRest_of_quiet _ hquiet hlatch⟩

end Latch

end OneShot
