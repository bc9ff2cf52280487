import OneShot.Proofs.Calls.World
import Mathlib.Data.List.Forall2

/-!
# Protocols

A protocol says what a call that owes something may be seen to do next, and
what it owes after that. If every course keeps to the protocol, a world can
be looked at through its books, in which each call in progress stands with
its debt in place of the rest of its course.
-/

namespace OneShot

/-- A call begins with the debt that it `opens` with, and can be left once what it owes `closes`. -/
structure Protocol (δ : Type) where
  opens : Call → δ
  allows : Call → δ → Mark → δ → Prop
  closes : δ → Prop

variable {δ : Type} {p : Protocol δ}

namespace Course

variable {α β : Type}

/-- Whatever the replies and the upcalls' outcomes, the course does only what its debt allows;
where it is done, `Q` holds of its outcome and of what is still owed. -/
def Keeps (p : Protocol δ) (call : Call) (Q : Outcome α → δ → Prop) : Course α → δ → Prop
  | done outcome, d => Q outcome d
  | access a next, d =>
      ∀ reply, ∃ d', p.allows call d (.accessed a reply) d' ∧ (next reply).Keeps p call Q d'
  | upcall u next, d =>
      ∃ d', p.allows call d (.started u) d' ∧
        ∀ outcome, ∃ d'', p.allows call d' (.ended u outcome) d'' ∧
          (next outcome).Keeps p call Q d''

/-- The second of two courses goes on from a value; a panic is the outcome of both. -/
theorem Keeps.bind {call : Call} {Q : Outcome α → δ → Prop} {Q' : Outcome β → δ → Prop}
    {course : Course α} {f : α → Course β} {d : δ} (h : course.Keeps p call Q d)
    (hreturned : ∀ value d, Q (.returned value) d → (f value).Keeps p call Q' d)
    (hpanicked : ∀ text d, Q (.panicked text) d → Q' (.panicked text) d) :
    (course >>= f).Keeps p call Q' d := by
  induction course generalizing d with
  | done outcome =>
      cases outcome with
      | returned value => exact hreturned value d h
      | panicked text => exact hpanicked text d h
  | access a next ih =>
      intro reply
      obtain ⟨d', hallows, hnext⟩ := h reply
      exact ⟨d', hallows, ih reply hnext⟩
  | upcall u next ih =>
      obtain ⟨d', hstart, hback⟩ := h
      refine ⟨d', hstart, ?_⟩
      intro outcome
      obtain ⟨d'', hend, hnext⟩ := hback outcome
      exact ⟨d'', hend, ih outcome hnext⟩

theorem Keeps.attempt {call : Call} {Q : Outcome (Outcome α) → δ → Prop} {course : Course α}
    {d : δ} (h : course.Keeps p call (fun outcome => Q (.returned outcome)) d) :
    course.attempt.Keeps p call Q d := by
  induction course generalizing d with
  | done outcome => exact h
  | access a next ih =>
      intro reply
      obtain ⟨d', hallows, hnext⟩ := h reply
      exact ⟨d', hallows, ih reply hnext⟩
  | upcall u next ih =>
      obtain ⟨d', hstart, hback⟩ := h
      refine ⟨d', hstart, ?_⟩
      intro outcome
      obtain ⟨d'', hend, hnext⟩ := hback outcome
      exact ⟨d'', hend, ih outcome hnext⟩

end Course

namespace Protocol

def Settles (p : Protocol δ) {α : Type} : Outcome α → δ → Prop := fun _ d => p.closes d

def Kept (p : Protocol δ) : Prop :=
  ∀ call : Call, call.course.Keeps p call p.Settles (p.opens call)

/-- Nothing is ever owed, and only some marks are allowed. -/
def only (P : Mark → Prop) : Protocol Unit := ⟨fun _ => (), fun _ _ mark _ => P mark, fun _ => True⟩

end Protocol

/-- A course with no marks but those that change no debt keeps to the protocol. -/
theorem Course.keeps_of_only {α : Type} {P : Mark → Prop} {call : Call} {course : Course α}
    {Q : Outcome α → δ → Prop} {d : δ}
    (h : course.Keeps (.only P) call (fun _ _ => True) ())
    (hallows : ∀ mark, P mark → p.allows call d mark d) (hQ : ∀ outcome, Q outcome d) :
    course.Keeps p call Q d := by
  induction course with
  | done outcome => exact hQ outcome
  | access a next ih =>
      intro reply
      obtain ⟨_, hmark, hnext⟩ := h reply
      exact ⟨d, hallows _ hmark, ih reply hnext⟩
  | upcall u next ih =>
      obtain ⟨_, hstart, hback⟩ := h
      refine ⟨d, hallows _ hstart, ?_⟩
      intro outcome
      obtain ⟨_, hend, hnext⟩ := hback outcome
      exact ⟨d, hallows _ hend, ih outcome hnext⟩

def Stage.Keeps (p : Protocol δ) (call : Call) : Stage → δ → Prop
  | working course, d => course.Keeps p call p.Settles d
  | waiting u next, d =>
      ∀ outcome, ∃ d', p.allows call d (.ended u outcome) d' ∧
        (next outcome).Keeps p call p.Settles d'

structure Account (δ : Type) where
  call : Call
  owed : δ

structure Books (δ : Type) where
  store : Store := {}
  accounts : Nat → List (Account δ) := fun _ => []
  log : List (Nat × Mark) := []

def Books.put (b : Books δ) (caller : Nat) (accounts : List (Account δ)) (mark : Mark) : Books δ :=
  { b with
    accounts := Function.update b.accounts caller accounts
    log := b.log ++ [(caller, mark)] }

/-- What can happen, as far as the books tell. -/
inductive Posting (p : Protocol δ) (b : Books δ) : Books δ → Prop
  | enter {caller call} (hknown : call.Known b.store) :
      Posting p b (b.put caller (⟨call, p.opens call⟩ :: b.accounts caller) (.entered call))
  | access {caller call d d' rest a} (hopen : b.accounts caller = ⟨call, d⟩ :: rest)
      (hallows : p.allows call d (.accessed a (b.store.perform a).1) d') :
      Posting p b ({ b with store := (b.store.perform a).2 }.put caller (⟨call, d'⟩ :: rest)
        (.accessed a (b.store.perform a).1))
  | start {caller call d d' rest u} (hopen : b.accounts caller = ⟨call, d⟩ :: rest)
      (hallows : p.allows call d (.started u) d') :
      Posting p b (b.put caller (⟨call, d'⟩ :: rest) (.started u))
  | stop {caller call d d' rest u outcome} (hopen : b.accounts caller = ⟨call, d⟩ :: rest)
      (hallows : p.allows call d (.ended u outcome) d') :
      Posting p b (b.put caller (⟨call, d'⟩ :: rest) (.ended u outcome))
  | leave {caller call d rest outcome} (hopen : b.accounts caller = ⟨call, d⟩ :: rest)
      (hcloses : p.closes d) :
      Posting p b (b.put caller rest (.left call outcome))
  | create {novelty} : Posting p b { b with store := b.store.add novelty }

structure Frame.Covered (p : Protocol δ) (frame : Frame) (account : Account δ) : Prop where
  call_eq : account.call = frame.call
  keeps : frame.stage.Keeps p frame.call account.owed

structure World.Booked (p : Protocol δ) (w : World) (b : Books δ) : Prop where
  store_eq : b.store = w.store
  log_eq : b.log = w.log
  covered : ∀ caller, List.Forall₂ (Frame.Covered p) (w.frames caller) (b.accounts caller)

namespace World

variable {w : World} {b : Books δ}

theorem Booked.put (h : w.Booked p b) (caller : Nat) {frames : List Frame}
    {accounts : List (Account δ)} (hcovered : List.Forall₂ (Frame.Covered p) frames accounts)
    (mark : Mark) : (w.put caller frames mark).Booked p (b.put caller accounts mark) := by
  refine ⟨h.store_eq, ?_, fun other => ?_⟩
  · simp only [World.put, Books.put, h.log_eq]
  · by_cases hother : other = caller
    · subst hother
      simpa only [World.put, Books.put, Function.update_self] using hcovered
    · simpa only [World.put, Books.put, Function.update_of_ne hother] using h.covered other

theorem Booked.exists_of_cons (h : w.Booked p b) {caller : Nat} {frame : Frame}
    {rest : List Frame} (hframes : w.frames caller = frame :: rest) :
    ∃ d accounts, b.accounts caller = ⟨frame.call, d⟩ :: accounts ∧
      frame.stage.Keeps p frame.call d ∧ List.Forall₂ (Frame.Covered p) rest accounts := by
  have hcovered := h.covered caller
  rw [hframes] at hcovered
  generalize b.accounts caller = opened at hcovered
  cases hcovered with
  | cons hframe hrest =>
      rename_i account accounts
      obtain ⟨call, d⟩ := account
      obtain ⟨rfl, hkeeps⟩ := hframe
      exact ⟨d, accounts, rfl, hkeeps, hrest⟩

theorem Booked.exists_frame (h : w.Booked p b) {caller : Nat} {account : Account δ}
    (hmem : account ∈ b.accounts caller) :
    ∃ frame ∈ w.frames caller, frame.call = account.call := by
  have hcovered := h.covered caller
  generalize w.frames caller = frames at hcovered ⊢
  generalize b.accounts caller = accounts at hcovered hmem
  induction hcovered with
  | nil => nomatch hmem
  | cons hframe _ ih =>
      obtain rfl | hrest := List.mem_cons.mp hmem
      · exact ⟨_, List.mem_cons_self, hframe.call_eq.symm⟩
      · obtain ⟨frame, hframes, hcall⟩ := ih hrest
        exact ⟨frame, List.mem_cons_of_mem _ hframes, hcall⟩

/-- A move is a posting or leaves the books alone. -/
theorem Booked.step (hp : p.Kept) (h : w.Booked p b) (move : Move) :
    ∃ b', (w.step move).Booked p b' ∧ (b' = b ∨ Posting p b b') := by
  cases move with
  | enter caller call =>
      by_cases hallowed : mayEnter (w.frames caller) ∧ call.Known w.store
      · have hframe : Frame.Covered p ⟨call, .working call.course⟩ ⟨call, p.opens call⟩ :=
          ⟨rfl, hp call⟩
        simp only [World.step, if_pos hallowed]
        exact ⟨_, h.put caller (.cons hframe (h.covered caller)) _,
          .inr (.enter (h.store_eq ▸ hallowed.2))⟩
      · simp only [World.step, if_neg hallowed]
        exact ⟨b, h, .inl rfl⟩
  | advance caller =>
      simp only [World.step]
      split
      · rename_i call outcome rest hframes
        obtain ⟨d, accounts, hopen, hcloses, hrest⟩ := h.exists_of_cons hframes
        exact ⟨_, h.put caller hrest _, .inr (.leave hopen hcloses)⟩
      · rename_i call a next rest hframes
        obtain ⟨d, accounts, hopen, hkeeps, hrest⟩ := h.exists_of_cons hframes
        obtain ⟨d', hallows, hnext⟩ := hkeeps (b.store.perform a).1
        have hframe : Frame.Covered p ⟨call, .working (next (b.store.perform a).1)⟩ ⟨call, d'⟩ :=
          ⟨rfl, hnext⟩
        have hstore : ({ w with store := (b.store.perform a).2 } : World).Booked p
            { b with store := (b.store.perform a).2 } := ⟨rfl, h.log_eq, h.covered⟩
        rw [← h.store_eq]
        exact ⟨_, hstore.put caller (.cons hframe hrest) _, .inr (.access hopen hallows)⟩
      · rename_i call u next rest hframes
        obtain ⟨d, accounts, hopen, ⟨d', hallows, hback⟩, hrest⟩ := h.exists_of_cons hframes
        have hframe : Frame.Covered p ⟨call, .waiting u next⟩ ⟨call, d'⟩ := ⟨rfl, hback⟩
        exact ⟨_, h.put caller (.cons hframe hrest) _, .inr (.start hopen hallows)⟩
      · exact ⟨b, h, .inl rfl⟩
  | comeBack caller outcome =>
      simp only [World.step]
      split
      · rename_i call u next rest hframes
        obtain ⟨d, accounts, hopen, hback, hrest⟩ := h.exists_of_cons hframes
        obtain ⟨d', hallows, hnext⟩ := hback outcome
        have hframe : Frame.Covered p ⟨call, .working (next outcome)⟩ ⟨call, d'⟩ := ⟨rfl, hnext⟩
        exact ⟨_, h.put caller (.cons hframe hrest) _, .inr (.stop hopen hallows)⟩
      · exact ⟨b, h, .inl rfl⟩
  | create novelty =>
      exact ⟨{ b with store := b.store.add novelty },
        ⟨congrArg (·.add novelty) h.store_eq, h.log_eq, h.covered⟩, .inr .create⟩

/-- What holds of the empty books and is kept by every posting holds of the books of any run. -/
theorem exists_books (hp : p.Kept) {Inv : Books δ → Prop} (hempty : Inv {})
    (hposting : ∀ {b b'}, Posting p b b' → Inv b → Inv b') (moves : List Move) :
    ∃ b, (after moves).Booked p b ∧ Inv b := by
  have hrun (w : World) (b : Books δ) (h : w.Booked p b) (hb : Inv b) :
      ∃ b', (moves.foldl World.step w).Booked p b' ∧ Inv b' := by
    induction moves generalizing w b with
    | nil => exact ⟨b, h, hb⟩
    | cons move moves ih =>
        obtain ⟨b', h', rfl | hpost⟩ := h.step hp move
        · exact ih _ _ h' hb
        · exact ih _ _ h' (hposting hpost hb)
  exact hrun {} {} ⟨rfl, rfl, fun _ => .nil⟩ hempty

end World

end OneShot
