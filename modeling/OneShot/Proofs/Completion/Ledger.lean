import OneShot.Proofs.Calls.Effect
import OneShot.Proofs.Completion.Progress

/-!
# The ledger of a latch

In the books of any run at most one call owes tasks to a latch, and these
are what its state and what has been seen of its hooks leave to be done.
-/

namespace OneShot

theorem Call.lt_of_known {call : Call} {s : Store} {id : Nat} (h : call.Known s)
    (hobject : call.object? = some (.latch id)) : id < s.latches.length := by
  cases call with
  | signal other signal =>
      obtain rfl : other = id := by simpa [object?] using hobject
      exact h.1
  | _ => simp [object?] at hobject

/-! ## What is seen of a latch -/

def Mark.beat? (id : Nat) : Mark → Option Latch.Beat
  | started (.hook other hook) => if other = id then some (.start hook) else none
  | ended (.hook other hook) outcome => if other = id then some (.stop hook outcome) else none
  | _ => none

@[simp] theorem Mark.beat?_started (id : Nat) (hook : Hook) :
    (started (.hook id hook)).beat? id = some (.start hook) := if_pos rfl

@[simp] theorem Mark.beat?_ended (id : Nat) (hook : Hook) (outcome : Outcome Unit) :
    (ended (.hook id hook) outcome).beat? id = some (.stop hook outcome) := if_pos rfl

def Mark.isEnding (id : Nat) : Mark → Bool
  | accessed (.receive other signal) _ => decide (other = id) && signal.isEnding
  | _ => false

@[simp] theorem Mark.isEnding_receive (id : Nat) (signal : Signal)
    (duty : (Access.receive id signal).Reply) :
    (accessed (.receive id signal) duty).isEnding id = signal.isEnding := by
  simp [isEnding]

theorem Mark.beat?_eq_none {mark : Mark} {id : Nat} (h : mark.object? ≠ some (.latch id)) :
    mark.beat? id = none := by
  cases mark with
  | started u =>
      cases u with
      | hook other hook =>
          have hne : other ≠ id := fun he => h (he ▸ rfl)
          exact if_neg hne
      | _ => rfl
  | ended u outcome =>
      cases u with
      | hook other hook =>
          have hne : other ≠ id := fun he => h (he ▸ rfl)
          exact if_neg hne
      | _ => rfl
  | _ => rfl

theorem Mark.isEnding_eq_false {mark : Mark} {id : Nat} (h : mark.object? ≠ some (.latch id)) :
    mark.isEnding id = false := by
  cases mark with
  | accessed a reply =>
      cases a with
      | receive other signal =>
          have hne : other ≠ id := fun he => h (he ▸ rfl)
          simp [isEnding, hne]
      | _ => rfl
  | _ => rfl

namespace Latch

def beats (id : Nat) (log : List (Nat × Mark)) : List Beat :=
  log.filterMap fun entry => entry.2.beat? id

def hasEnded (id : Nat) (log : List (Nat × Mark)) : Bool :=
  log.any fun entry => entry.2.isEnding id

theorem beats_append (id : Nat) (log : List (Nat × Mark)) (caller : Nat) (mark : Mark) :
    beats id (log ++ [(caller, mark)]) = beats id log ++ (mark.beat? id).toList := by
  rw [beats, List.filterMap_append, ← beats]
  cases h : mark.beat? id <;> simp [h]

theorem hasEnded_append (id : Nat) (log : List (Nat × Mark)) (caller : Nat) (mark : Mark) :
    hasEnded id (log ++ [(caller, mark)]) = (hasEnded id log || mark.isEnding id) := by
  simp [hasEnded]

end Latch

/-! ## Sole debtors -/

section Sole

variable {α : Type}

/-- All that is owed on some accounts, one debt for each that owes anything. -/
def debts : List (Account (List α)) → List (List α)
  | [] => []
  | ⟨_, []⟩ :: rest => debts rest
  | ⟨_, task :: tasks⟩ :: rest => (task :: tasks) :: debts rest

theorem exists_owed {accounts : List (Account (List α))} (h : debts accounts ≠ []) :
    ∃ account ∈ accounts, account.owed ≠ [] := by
  induction accounts with
  | nil => exact absurd rfl h
  | cons account rest ih =>
      obtain ⟨call, owed⟩ := account
      cases owed with
      | nil =>
          obtain ⟨account, hmem, howed⟩ := ih h
          exact ⟨account, List.mem_cons_of_mem _ hmem, howed⟩
      | cons task tasks => exact ⟨_, List.mem_cons_self, nofun⟩

/-- At most one account owes anything, and it owes just that. -/
inductive Sole (accounts : Nat → List (Account (List α))) : List α → Prop
  | nobody (h : ∀ caller, debts (accounts caller) = []) : Sole accounts []
  | one {caller task tasks} (h : debts (accounts caller) = [task :: tasks])
      (hothers : ∀ other, other ≠ caller → debts (accounts other) = []) :
      Sole accounts (task :: tasks)

variable {accounts : Nat → List (Account (List α))} {caller : Nat} {call : Call}
  {rest : List (Account (List α))}

/-- It makes no difference to open, close or change accounts as long as the same is owed. -/
theorem Sole.update {debt : List α} (h : Sole accounts debt) {opened : List (Account (List α))}
    (hopened : debts opened = debts (accounts caller)) :
    Sole (Function.update accounts caller opened) debt := by
  have hsame (other : Nat) : debts (Function.update accounts caller opened other) =
      debts (accounts other) := by
    by_cases hother : other = caller
    · rw [hother, Function.update_self, hopened]
    · rw [Function.update_of_ne hother]
  cases h with
  | nobody h => exact nobody fun other => (hsame other).trans (h other)
  | one h hothers =>
      exact one ((hsame _).trans h) fun other hne => (hsame other).trans (hothers other hne)

theorem sole_update (hrest : debts rest = [])
    (hothers : ∀ other, other ≠ caller → debts (accounts other) = []) (call : Call) (d : List α) :
    Sole (Function.update accounts caller (⟨call, d⟩ :: rest)) d := by
  have hothers' (other : Nat) (hne : other ≠ caller) :
      debts (Function.update accounts caller (⟨call, d⟩ :: rest) other) = [] := by
    rw [Function.update_of_ne hne]
    exact hothers other hne
  cases d with
  | nil =>
      refine .nobody fun other => ?_
      by_cases hother : other = caller
      · rw [hother, Function.update_self]
        exact hrest
      · exact hothers' other hother
  | cons task tasks =>
      refine .one ?_ hothers'
      rw [Function.update_self, debts, hrest]

/-- Where nothing is owed, anyone may come to owe something. -/
theorem Sole.incur (h : Sole accounts []) (hopen : accounts caller = ⟨call, []⟩ :: rest)
    (d : List α) : Sole (Function.update accounts caller (⟨call, d⟩ :: rest)) d := by
  cases h with
  | nobody h =>
      have hrest := h caller
      rw [hopen, debts] at hrest
      exact sole_update hrest (fun other _ => h other) call d

/-- Who owes something is the only one, and may come to owe something else. -/
theorem Sole.change {debt : List α} {task : α} {tasks : List α} (h : Sole accounts debt)
    (hopen : accounts caller = ⟨call, task :: tasks⟩ :: rest) :
    debt = task :: tasks ∧
      ∀ d, Sole (Function.update accounts caller (⟨call, d⟩ :: rest)) d := by
  cases h with
  | nobody h =>
      have hcaller := h caller
      rw [hopen] at hcaller
      nomatch hcaller
  | one h hothers =>
      rename_i debtor first others
      by_cases hcaller : caller = debtor
      · subst hcaller
        rw [hopen, debts, List.cons.injEq] at h
        obtain ⟨hsame, hrest⟩ := h
        exact ⟨hsame.symm, sole_update hrest hothers call⟩
      · have hnothing := hothers caller hcaller
        rw [hopen] at hnothing
        nomatch hnothing

end Sole

/-! ## The books of a run -/

namespace Latch

/-- Only a call to a latch that has been made can owe it anything. -/
structure Fits (id : Nat) (s : Store) (account : Account (List Task)) : Prop where
  known : account.call.object? = some (.latch id) → id < s.latches.length
  involved : account.owed ≠ [] → account.call.object? = some (.latch id)

structure Sound (id : Nat) (b : Books (List Task)) : Prop where
  fits : ∀ caller, ∀ account ∈ b.accounts caller, Fits id b.store account
  progress : ∃ tasks, Sole b.accounts tasks ∧
    Progress (b.store.stateOf id) (beats id b.log) (hasEnded id b.log) tasks

variable {id : Nat} {b b' : Books (List Task)}

theorem Fits.mono {s s' : Store} {account : Account (List Task)} (h : Fits id s account)
    (hle : s.latches.length ≤ s'.latches.length) : Fits id s' account :=
  ⟨fun hcall => Nat.lt_of_lt_of_le (h.known hcall) hle, h.involved⟩

theorem Fits.of_allows {s : Store} {call : Call} {d d' : List Task} {mark : Mark}
    (h : Fits id s ⟨call, d⟩) (hallows : Allows id call d mark d') : Fits id s ⟨call, d'⟩ := by
  refine ⟨h.known, fun hne => ?_⟩
  cases hallows with
  | receive hcall => rw [hcall, Call.object?]
  | publish hcall => exact hcall
  | start hcall => exact hcall
  | stop hcall => exact hcall
  | other hmark => exact h.involved hne

theorem fits_update {s s' : Store} {accounts : Nat → List (Account (List Task))}
    (h : ∀ caller, ∀ account ∈ accounts caller, Fits id s account)
    (hle : s.latches.length ≤ s'.latches.length) {caller : Nat}
    {opened : List (Account (List Task))} (hopened : ∀ account ∈ opened, Fits id s account) :
    ∀ other, ∀ account ∈ Function.update accounts caller opened other, Fits id s' account := by
  intro other account hmem
  by_cases hother : other = caller
  · rw [hother, Function.update_self] at hmem
    exact (hopened account hmem).mono hle
  · rw [Function.update_of_ne hother] at hmem
    exact (h other account hmem).mono hle

theorem fits_posting (h : ∀ caller, ∀ account ∈ b.accounts caller, Fits id b.store account)
    (hposting : Posting (protocol id) b b') :
    ∀ caller, ∀ account ∈ b'.accounts caller, Fits id b'.store account := by
  have hact {caller call d d' rest mark} (hopen : b.accounts caller = ⟨call, d⟩ :: rest)
      (hallows : Allows id call d mark d') :
      ∀ account ∈ ⟨call, d'⟩ :: rest, Fits id b.store account := by
    have hcaller := h caller
    rw [hopen] at hcaller
    intro account hmem
    obtain rfl | hrest := List.mem_cons.mp hmem
    · exact (hcaller _ List.mem_cons_self).of_allows hallows
    · exact hcaller account (List.mem_cons_of_mem _ hrest)
  cases hposting with
  | enter hknown =>
      apply fits_update h (Nat.le_refl _)
      intro account hmem
      obtain rfl | hrest := List.mem_cons.mp hmem
      · exact ⟨Call.lt_of_known hknown, absurd rfl⟩
      · exact h _ account hrest
  | access hopen hallows =>
      exact fits_update h (Nat.le_of_eq (Store.length_latches_perform b.store _).symm)
        (hact hopen hallows)
  | start hopen hallows => exact fits_update h (Nat.le_refl _) (hact hopen hallows)
  | stop hopen hallows => exact fits_update h (Nat.le_refl _) (hact hopen hallows)
  | leave hopen hcloses =>
      apply fits_update h (Nat.le_refl _)
      intro account hmem
      exact h _ account (hopen ▸ List.mem_cons_of_mem _ hmem)
  | create =>
      exact fun caller account hmem =>
        (h caller account hmem).mono (Store.length_latches_add b.store _)

section Append

variable {state : State} {log : List (Nat × Mark)} {mark : Mark} {tasks : List Task}

theorem progress_append (h : Progress state (beats id log) (hasEnded id log) tasks)
    (hbeat : mark.beat? id = none) (hending : mark.isEnding id = false) (caller : Nat) :
    Progress state (beats id (log ++ [(caller, mark)])) (hasEnded id (log ++ [(caller, mark)]))
      tasks := by
  rw [beats_append, hasEnded_append, hbeat, hending, Option.toList_none, List.append_nil,
    Bool.or_false]
  exact h

theorem progress_append_receive {s : Signal}
    (h : Progress state (beats id log) (hasEnded id log || s.isEnding) tasks) (caller : Nat)
    {duty : (Access.receive id s).Reply} :
    let log := log ++ [(caller, .accessed (.receive id s) duty)]
    Progress state (beats id log) (hasEnded id log) tasks := by
  have hbeat : (Mark.accessed (.receive id s) duty).beat? id = none := rfl
  simp only [beats_append, hasEnded_append, Mark.isEnding_receive, hbeat, Option.toList_none,
    List.append_nil]
  exact h

theorem progress_append_beat {beat : Beat}
    (h : Progress state (beats id log ++ [beat]) (hasEnded id log) tasks)
    (hbeat : mark.beat? id = some beat) (hending : mark.isEnding id = false) (caller : Nat) :
    Progress state (beats id (log ++ [(caller, mark)])) (hasEnded id (log ++ [(caller, mark)]))
      tasks := by
  rw [beats_append, hasEnded_append, hbeat, hending, Option.toList_some, Bool.or_false]
  exact h

end Append

theorem Sound.posting (h : Sound id b) (hposting : Posting (protocol id) b b') : Sound id b' := by
  refine ⟨fits_posting h.fits hposting, ?_⟩
  obtain ⟨tasks, hsole, hprogress⟩ := h.progress
  have hsame {caller call d rest} (hopen : b.accounts caller = ⟨call, d⟩ :: rest) :
      Sole (Function.update b.accounts caller (⟨call, d⟩ :: rest)) tasks :=
    hsole.update (congrArg debts hopen.symm)
  have hother {state caller call d rest} {mark : Mark}
      (hprogress : Progress state (beats id b.log) (hasEnded id b.log) tasks)
      (hopen : b.accounts caller = ⟨call, d⟩ :: rest)
      (hmark : mark.object? ≠ some (.latch id)) :
      ∃ tasks, Sole (Function.update b.accounts caller (⟨call, d⟩ :: rest)) tasks ∧
        Progress state (beats id (b.log ++ [(caller, mark)]))
          (hasEnded id (b.log ++ [(caller, mark)])) tasks :=
    ⟨tasks, hsame hopen, progress_append hprogress (Mark.beat?_eq_none hmark)
      (Mark.isEnding_eq_false hmark) caller⟩
  cases hposting with
  | enter hknown => exact ⟨tasks, hsole.update rfl, progress_append hprogress rfl rfl _⟩
  | access hopen hallows =>
      rename_i caller call d d' rest a
      cases hallows with
      | receive hcall =>
          rename_i s
          have hfits := h.fits caller ⟨call, []⟩ (hopen ▸ List.mem_cons_self)
          obtain ⟨hreply, hstate⟩ := Store.perform_receive (hfits.known (hcall ▸ rfl)) s
          have hreceived := hprogress.receive s
          simp only [← hreply, ← hstate] at hreceived
          obtain ⟨hnone, hreceived⟩ | ⟨rfl, hreceived⟩ := hreceived
          · rw [hnone]
            exact ⟨tasks, hsame hopen, progress_append_receive hreceived caller⟩
          · exact ⟨_, hsole.incur hopen _, progress_append_receive hreceived caller⟩
      | publish hcall =>
          obtain ⟨rfl, hsole'⟩ := hsole.change hopen
          obtain ⟨hreply, hstate⟩ := Store.perform_publish b.store id
          have hpublished := hprogress.publish
          simp only [← hreply, ← hstate] at hpublished
          exact ⟨_, hsole' _, progress_append hpublished rfl rfl caller⟩
      | other hmark =>
          have hstate : (b.store.perform a).2.stateOf id = b.store.stateOf id := by
            rw [Store.stateOf, Store.getElem?_latches_perform b.store hmark, Store.stateOf]
          exact hother (hstate ▸ hprogress) hopen hmark
  | start hopen hallows =>
      rename_i caller call d d' rest u
      cases hallows with
      | start hcall =>
          obtain ⟨rfl, hsole'⟩ := hsole.change hopen
          exact ⟨d', hsole' d', progress_append_beat hprogress.start
            (Mark.beat?_started ..) rfl caller⟩
      | other hmark => exact hother hprogress hopen hmark
  | stop hopen hallows =>
      rename_i caller call d d' rest u outcome
      cases hallows with
      | stop hcall =>
          obtain ⟨rfl, hsole'⟩ := hsole.change hopen
          exact ⟨_, hsole' _, progress_append_beat (hprogress.stop outcome)
            (Mark.beat?_ended ..) rfl caller⟩
      | other hmark => exact hother hprogress hopen hmark
  | leave hopen hcloses =>
      rename_i caller call d rest outcome
      obtain rfl : d = [] := hcloses
      have hdebts : debts rest = debts (b.accounts caller) := by rw [hopen, debts]
      exact ⟨tasks, hsole.update hdebts, progress_append hprogress rfl rfl _⟩
  | create =>
      refine ⟨tasks, hsole, ?_⟩
      rw [Store.stateOf_add]
      exact hprogress

theorem sound_empty (id : Nat) : Sound id {} :=
  ⟨fun _ _ hmem => absurd hmem List.not_mem_nil, [], .nobody fun _ => rfl, .idle⟩

/-- Every run of calls to any latches, gates and bodies keeps the ledger of each latch right. -/
theorem exists_sound (moves : List Move) (id : Nat) :
    ∃ b, (World.after moves).Booked (protocol id) b ∧ Sound id b :=
  World.exists_books (kept_protocol id) (sound_empty id) (fun hposting h => h.posting hposting)
    moves

end Latch

end OneShot
