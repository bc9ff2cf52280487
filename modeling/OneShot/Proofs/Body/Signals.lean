import OneShot.Proofs.Body.Notices

/-!
# The signals to chunks

Every callback of a chunk is signalled for one of three reasons: its chunk
is acknowledged, the body fails while its chunk is pending, or its chunk is
rejected. As long as none of them panics, each is signalled once, and those
of accepted chunks in the order of the offers.
-/

namespace OneShot

namespace Ledger

/-- The signals that the callbacks of accepted chunks are to get. -/
def signals (l : Ledger) : List (Sink × Ending) := l.settled.map fun s => (s.1.sink, s.2)

/-- Why a call signals the callback of a chunk, when its access finds the ledger so. -/
inductive Warrants (l : Ledger) (id : Nat) : Call → Sink → Ending → Prop
  | acknowledged {chunk} (hfailure : l.failure = none) (hlt : l.acknowledged < l.yielded)
      (hchunk : l.accepted[l.acknowledged]? = some chunk) :
      Warrants l id (.acknowledge id) chunk.sink .success
  | failed {chunk cause} (hfailure : l.failure = none) (hpending : chunk ∈ l.pending) :
      Warrants l id (.fail id cause) chunk.sink (.failure cause)
  | rejected {chunk cause} (hopen : l.isOpen = false)
      (hcause : ∀ c, l.failure = some c → cause = c) :
      Warrants l id (.offer id chunk) chunk.sink (.failure cause)

section Serves

variable {l : Ledger} {call : Call} {a : Access} {id : Nat} {us : List Upcall}
  {response : Response}

theorem not_mem_listening {body : Nat} {listener : Option Closure} {sink : Sink}
    {ending : Ending} : .chunk id sink ending ∉ Body.listening body listener := by
  intro h
  obtain ⟨closure, -, hclosure⟩ := List.mem_map.mp h
  nomatch hclosure

theorem filterMap_listening (id body : Nat) (listener : Option Closure) :
    (Body.listening body listener).filterMap (Upcall.chunkSignal? id) = [] := by
  cases listener <;> rfl

theorem filterMap_chunks (id : Nat) (chunks : List Chunk) (ending : Ending) :
    (chunks.map fun chunk => Upcall.chunk id chunk.sink ending).filterMap
      (Upcall.chunkSignal? id) = chunks.map fun chunk => (chunk.sink, ending) := by
  induction chunks with
  | nil => rfl
  | cons chunk chunks ih => simp [Upcall.chunkSignal?, ih]

theorem Serves.warrants (h : l.Serves a us response) (haccess : call.access? = some a)
    {sink : Sink} {ending : Ending} (hmem : .chunk id sink ending ∈ us) :
    l.Warrants id call sink ending := by
  cases call with
  | offer body chunk =>
      cases haccess
      cases h with
      | accepted hopen => exact absurd hmem not_mem_listening
      | rejected hopen hcause =>
          cases List.mem_singleton.mp hmem
          exact .rejected hopen hcause
  | acknowledge body =>
      cases haccess
      cases h with
      | acknowledged hfailure hlt hchunk =>
          cases List.mem_singleton.mp hmem
          exact .acknowledged hfailure hlt hchunk
      | ignored => nomatch hmem
  | fail body cause =>
      cases haccess
      cases h with
      | failed hfailure =>
          rcases List.mem_append.mp hmem with hchunk | hlistener
          · obtain ⟨chunk, hpending, hu⟩ := List.mem_map.mp hchunk
            cases hu
            exact .failed hfailure hpending
          · exact absurd hlistener not_mem_listening
      | failedBefore => nomatch hmem
  | close body =>
      cases haccess
      cases h with
      | closed hopen => exact absurd hmem not_mem_listening
      | closedBefore => nomatch hmem
  | next body =>
      cases haccess
      cases h
      nomatch hmem
  | listen body listener =>
      cases haccess
      cases h
      nomatch hmem
  | _ => nomatch haccess

theorem Serves.signals_after (h : l.Serves a us response) (haccess : call.access? = some a)
    (hsettles : call.settles id = true) :
    (l.after a).signals = l.signals ++ us.filterMap (Upcall.chunkSignal? id) := by
  have hobject := Call.object?_of_settles hsettles
  cases call with
  | acknowledge body =>
      cases haccess
      cases hobject
      cases h with
      | acknowledged hfailure hlt hchunk =>
          rw [after, if_pos ⟨hfailure, hlt⟩]
          simp [signals, settled, hfailure, List.take_add_one, hchunk, Upcall.chunkSignal?]
      | ignored hnone =>
          rw [after_acknowledge_of_none hnone]
          exact (List.append_nil _).symm
  | fail body cause =>
      cases haccess
      cases hobject
      rw [after]
      cases h with
      | failed hfailure =>
          rw [if_pos hfailure, List.filterMap_append, filterMap_listening, List.append_nil,
            filterMap_chunks]
          simp [signals, settled, hfailure, pending, Function.comp_def]
      | failedBefore hfailure =>
          rw [if_neg hfailure]
          exact (List.append_nil _).symm
  | _ => cases hsettles

theorem signals_after_of_not_settles (haccess : call.access? = some a)
    (hobject : call.object? = some (.body id)) (hsettles : ¬ call.settles id = true)
    (hle : l.acknowledged ≤ l.accepted.length) : (l.after a).signals = l.signals := by
  cases call with
  | offer body chunk =>
      cases haccess
      rw [after]
      split
      · rename_i hopen
        have hfailure := failure_of_isOpen hopen
        simp only [signals, settled, hfailure, List.take_append_of_le_length hle]
      · rfl
  | next body =>
      cases haccess
      rw [after]
      split <;> rfl
  | acknowledge body =>
      cases hobject
      exact absurd (decide_eq_true rfl) hsettles
  | fail body cause =>
      cases hobject
      exact absurd (decide_eq_true rfl) hsettles
  | close body =>
      cases haccess
      rfl
  | listen body listener =>
      cases haccess
      rfl
  | _ => cases haccess

end Serves

end Ledger

/-! ## What becomes due in a run -/

def Mark.isAccess : Mark → Bool
  | .accessed _ _ => true
  | _ => false

def Mark.rejection? (id : Nat) : Mark → Option (Sink × Ending)
  | .accessed (.offer body chunk) (.rejected cause) =>
      if body = id then some (chunk.sink, .failure cause) else none
  | _ => none

def rejections (id : Nat) (log : Log) : List (Sink × Ending) :=
  log.filterMap fun entry => entry.2.rejection? id

namespace World

variable {w : World} {id : Nat}

/-- What accesses make due in calls of one kind is known by what each access adds to it. -/
theorem Reachable.map_signal_due {kind : Call → Bool} (F : Log → List (Sink × Ending))
    (hempty : F [] = [])
    (haccess : ∀ {v : World} {caller call a next rest}, v.Reachable →
      v.frames caller = ⟨call, .working (.access a next)⟩ :: rest →
        F (v.log ++ [(caller, .accessed a (v.store.perform a).1)]) =
          F v.log ++ if kind call = true then
            (a.upcalls (v.store.perform a).1).filterMap (Upcall.chunkSignal? id) else [])
    (hother : ∀ log caller mark, mark.isAccess = false → F (log ++ [(caller, mark)]) = F log)
    (h : w.Reachable) :
    Notice.dueSignals id kind w.log = F w.log := by
  induction h with
  | empty => exact hempty.symm
  | @act w w' hw hact ih =>
      have hsilent {caller : Nat} {mark : Mark} (hincurred : mark.incurred id = [])
          (hmark : mark.isAccess = false) :
          Notice.dueSignals id kind (w.log ++ [(caller, mark)]) = F (w.log ++ [(caller, mark)]) := by
        rw [hother _ _ _ hmark, Notice.dueSignals, Notice.due,
          Notice.tally_concat_of_nil hincurred]
        exact ih
      cases hact with
      | access hframes =>
          obtain ⟨marks, others, hpassages, -, -⟩ := hw.followed.exists_of_cons hframes
          simp only [put]
          rw [haccess hw hframes, Notice.dueSignals, Notice.due,
            Notice.tally_concat_of_cons hpassages, List.filter_append, List.map_append,
            ← Notice.due, ← Notice.dueSignals, ih, Notice.filter_call_ofSignals]
          split
          · rw [Notice.map_signal_ofSignals]
            rfl
          · rfl
      | enter hmay hknown => exact hsilent rfl rfl
      | start hframes => exact hsilent rfl rfl
      | stop hframes => exact hsilent rfl rfl
      | leave hframes => exact hsilent rfl rfl
      | create => exact ih

theorem Reachable.due_settles (h : w.Reachable) :
    Notice.dueSignals id (Call.settles id) w.log = (Ledger.ofLog id w.log).signals := by
  refine h.map_signal_due (fun log => (Ledger.ofLog id log).signals) rfl ?_ ?_
  · intro v caller call a next rest hv hframes
    rw [Ledger.ofLog_concat]
    by_cases hobject : call.object? = some (.body id)
    · obtain ⟨haccess, -⟩ := hv.eq_errand_of_access hframes hobject
      have ha := (Call.object?_of_access? haccess).trans hobject
      rw [Ledger.mark, if_pos ha]
      split
      · rename_i hsettles
        exact (hv.serves_of_frame hframes ha).signals_after haccess hsettles
      · rename_i hsettles
        obtain ⟨b, hb⟩ := (hv.kept id).known caller _ (hframes ▸ List.mem_cons_self) hobject
        have hagrees := (hv.kept id).agrees b hb
        rw [List.append_nil]
        exact Ledger.signals_after_of_not_settles haccess hobject hsettles
          (Nat.le_trans hagrees.acknowledged_le hagrees.yielded_le)
    · have ha : a.object? ≠ some (.body id) :=
        fun ha => hobject (hv.object?_of_access hframes ha)
      have hsettles : ¬ call.settles id = true :=
        fun hsettles => hobject (Call.object?_of_settles hsettles)
      rw [Ledger.mark, if_neg ha, if_neg hsettles, List.append_nil]
  · intro log caller mark hmark
    rw [Ledger.ofLog_concat]
    cases mark with
    | accessed a reply => cases hmark
    | _ => rfl

theorem Reachable.due_offers (h : w.Reachable) :
    Notice.dueSignals id (Call.offers id) w.log = rejections id w.log := by
  refine h.map_signal_due (rejections id) rfl ?_ ?_
  · intro v caller call a next rest hv hframes
    rw [rejections, List.filterMap_append, ← rejections]
    apply congrArg (rejections id v.log ++ ·)
    by_cases hobject : call.object? = some (.body id)
    · obtain ⟨haccess, -⟩ := hv.eq_errand_of_access hframes hobject
      generalize (v.store.perform a).1 = reply
      cases call with
      | offer body chunk =>
          cases haccess
          cases hobject
          have hoffers : Call.offers id (.offer id chunk) = true := decide_eq_true rfl
          rw [if_pos hoffers]
          cases reply with
          | accepted listener => exact (Ledger.filterMap_listening _ _ listener).symm
          | rejected cause => simp [Mark.rejection?, Access.upcalls, Upcall.chunkSignal?]
      | signal latch s => cases haccess
      | settle gate ending => cases haccess
      | suppress keeper late => cases haccess
      | _ =>
          cases haccess
          rfl
    · have hoffers : ¬ call.offers id = true :=
        fun hoffers => hobject (Call.object?_of_offers hoffers)
      have ha : a.object? ≠ some (.body id) :=
        fun ha => hobject (hv.object?_of_access hframes ha)
      rw [if_neg hoffers]
      generalize (v.store.perform a).1 = reply
      cases a with
      | offer body chunk =>
          have hbody : ¬ body = id := fun hbody => ha (hbody ▸ rfl)
          cases reply with
          | accepted listener => rfl
          | rejected cause => simp [Mark.rejection?, hbody]
      | _ => rfl
  · intro log caller mark hmark
    rw [rejections, List.filterMap_append, ← rejections]
    cases mark with
    | accessed a reply => cases hmark
    | _ => exact List.append_nil _

end World

/-! ## Reasons for signals -/

/-- The access of the call has given it a reason to signal the callback of a chunk. -/
inductive Passage.Warrants (id : Nat) : Passage → Sink → Ending → Prop
  | intro {call before a reply marks sink ending}
      (hledger : (Ledger.ofLog id before).Warrants id call sink ending) :
      Warrants id ⟨call, (before, .accessed a reply) :: marks⟩ sink ending

/-- The offer was turned down, and has failed the callback of its chunk, once. -/
inductive Passage.Rejects (id : Nat) (chunk : Chunk) : Passage → Prop
  | intro {before reply first last cause} (hopen : (Ledger.ofLog id before).isOpen = false)
      (hcause : ∀ c, (Ledger.ofLog id before).failure = some c → cause = c) :
      Rejects id chunk ⟨.offer id chunk,
        [(before, .accessed (.offer id chunk) reply),
          (first, .started (.chunk id chunk.sink (.failure cause))),
          (last, .ended (.chunk id chunk.sink (.failure cause)) (.returned ()))]⟩

namespace World

variable {w : World} {id : Nat}

theorem Reachable.exists_warrants (h : w.Reachable) {past : Log} {caller : Nat} {sink : Sink}
    {ending : Ending}
    (hstarted : (past, caller, Mark.started (.chunk id sink ending)) ∈ dated w.log) :
    ∃ p others, passages caller past = p :: others ∧ p.Warrants id sink ending := by
  obtain ⟨v, hv, rfl, -, call, next, rest, hframes⟩ := h.exists_makes hstarted
  have hobject := hv.object?_of_upcall hframes rfl
  obtain ⟨marks, others, hpassages, hfollows, -⟩ := hv.followed.exists_of_cons hframes
  obtain ⟨a, haccess, ⟨-, hfresh⟩ | ⟨before, reply, told, rfl, hfinish⟩⟩ :=
    Call.leads_errand hobject hfollows.leads
  · cases hfresh
  · have hserves := hv.serves (hfollows.dated _ List.mem_cons_self)
      ((Call.object?_of_access? haccess).trans hobject)
    obtain ⟨made, hmade⟩ := exists_append_of_leads_waiting hfinish.concat_started
    have hmem : .chunk id sink ending ∈ a.upcalls reply := by
      rw [hmade]
      exact List.mem_append_right _ List.mem_cons_self
    exact ⟨_, others, hpassages, .intro (hserves.warrants haccess hmem)⟩

theorem Reachable.exists_rejects (h : w.Reachable) {past : Log} {caller : Nat} {chunk : Chunk}
    (hleft : (past, caller, Mark.left (.offer id chunk) (.returned (.truth false))) ∈
      dated w.log) :
    ∃ p others, passages caller past = p :: others ∧ p.Rejects id chunk := by
  obtain ⟨p, others, hpassages, hcall, hserved⟩ := h.exists_served hleft rfl
  refine ⟨p, others, hpassages, ?_⟩
  generalize houtcome : Outcome.returned (Response.truth false) = outcome at hserved
  cases hserved with
  | @intro call a reply before us response told ended haccess hserves htold =>
      obtain rfl : call = .offer id chunk := hcall
      cases haccess
      cases hserves with
      | accepted hopen => cases ended <;> nomatch houtcome
      | rejected hopen hcause =>
          generalize hmarks : told.map Prod.snd = marks at htold
          cases htold with
          | returned u hnone =>
              cases hnone
              match told, hmarks with
              | [(first, _), (last, _)], rfl => exact .intro hopen hcause
          | panicked u us text => nomatch houtcome

/-- No call about the body is in progress. -/
def Still (w : World) (id : Nat) : Prop :=
  ∀ caller, ∀ frame ∈ w.frames caller, frame.call.object? ≠ some (.body id)

theorem Still.owed_eq_nil (h : w.Still id) {kind : Call → Bool}
    (hkind : kind = Call.settles id ∨ kind = Call.offers id) (caller : Nat) :
    Notice.owed id kind caller (w.frames caller) = [] := by
  rw [Notice.owed, List.flatMap_eq_nil_iff]
  intro frame hframe
  apply if_neg
  intro hcall
  exact h caller frame hframe (Call.object?_of_kind hkind hcall)

end World

/-! ## Every signal once -/

/-- No callback of a chunk gets a signal without a reason or more signals than chunks were offered
with it, and when no call is in progress just the chunks pending have not been signalled. -/
structure World.SignalsOnce (w : World) (id : Nat) : Prop where
  warranted : ∀ past caller sink ending,
    (past, caller, Mark.started (.chunk id sink ending)) ∈ dated w.log →
      ∃ p others, passages caller past = p :: others ∧ p.Warrants id sink ending
  rejects : ∀ past caller chunk,
    (past, caller, Mark.left (.offer id chunk) (.returned (.truth false))) ∈ dated w.log →
      ∃ p others, passages caller past = p :: others ∧ p.Rejects id chunk
  accepted_subperm :
    (Notice.sentSignals id (Call.settles id) w.log).Subperm (Ledger.ofLog id w.log).signals
  rejected_subperm : (Notice.sentSignals id (Call.offers id) w.log).Subperm (rejections id w.log)
  inOrder : ∀ caller,
    (∀ entry ∈ w.log, entry.2.object? = some (.body id) → entry.1 = caller) →
      Notice.sentSignals id (Call.settles id) w.log <+: (Ledger.ofLog id w.log).signals
  accepted_perm : w.Still id →
    (Notice.sentSignals id (Call.settles id) w.log).Perm (Ledger.ofLog id w.log).signals
  rejected_perm : w.Still id →
    (Notice.sentSignals id (Call.offers id) w.log).Perm (rejections id w.log)
  unsettled : ∀ b, w.store.bodies[id]? = some b →
    (Ledger.ofLog id w.log).settled.map Prod.fst ++ (b.inFlight ++ b.queued) =
      (Ledger.ofLog id w.log).accepted
  flushed : w.Still id → ∀ b, w.store.bodies[id]? = some b → b.flush?.isSome = true →
    ((Notice.sentSignals id (Call.settles id) w.log).map Prod.fst).Perm
      ((Ledger.ofLog id w.log).accepted.map Chunk.sink)

theorem Ledger.Agrees.pending_of_flush? {l : Ledger} {b : Body} (h : l.Agrees b)
    (hflush : b.flush?.isSome = true) : l.pending = [] := by
  rw [Body.flush?, h.failure_eq] at hflush
  cases hfailure : l.failure with
  | some cause => rw [pending, hfailure, if_neg (Option.some_ne_none cause)]
  | none =>
      rw [hfailure] at hflush
      simp only at hflush
      split at hflush
      · rename_i hzero
        exact h.outstanding_eq_zero_iff.mp hzero
      · cases hflush

namespace Body

/-- In every run in which no callback of a chunk panics, nor a listener, every callback is
signalled once. -/
theorem signals_once (moves : List Move) {id : Nat} (hcalm : Calm id (World.after moves).log) :
    (World.after moves).SignalsOnce id := by
  have hreachable := World.reachable_after moves
  have hsettles := hreachable.balanced (.inl rfl) hcalm
  have hoffers := hreachable.balanced (.inr rfl) hcalm
  have hperm (hstill : (World.after moves).Still id) :
      (Notice.sentSignals id (Call.settles id) (World.after moves).log).Perm
        (Ledger.ofLog id (World.after moves).log).signals := by
    rw [← hreachable.due_settles]
    exact hsettles.perm (hstill.owed_eq_nil (.inl rfl))
  have hpending (b : Body) (hb : (World.after moves).store.bodies[id]? = some b) :
      (Ledger.ofLog id (World.after moves).log).pending = b.inFlight ++ b.queued :=
    ((hreachable.kept id).agrees b hb).pending_eq.symm
  exact {
    warranted := fun past caller sink ending => hreachable.exists_warrants
    rejects := fun past caller chunk => hreachable.exists_rejects
    accepted_subperm := by
      rw [← hreachable.due_settles]
      exact hsettles.subperm
    rejected_subperm := by
      rw [← hreachable.due_offers]
      exact hoffers.subperm
    inOrder := by
      intro caller hsole
      rw [← hreachable.due_settles]
      exact hsettles.isPrefix hsole
    accepted_perm := hperm
    rejected_perm := by
      intro hstill
      rw [← hreachable.due_offers]
      exact hoffers.perm (hstill.owed_eq_nil (.inr rfl))
    unsettled := by
      intro b hb
      rw [← hpending b hb]
      exact Ledger.settled_append_pending _
    flushed := by
      intro hstill b hb hflush
      have hnone := ((hreachable.kept id).agrees b hb).pending_of_flush? hflush
      have hall := Ledger.settled_append_pending (Ledger.ofLog id (World.after moves).log)
      rw [hnone, List.append_nil] at hall
      have hsinks := (hperm hstill).map Prod.fst
      rw [Ledger.signals, List.map_map] at hsinks
      rw [← hall, List.map_map]
      exact hsinks }

def breakdown : Cause := ⟨0, .message "connection lost"⟩

/-- The callback of the first chunk fails the body while it is told of the acknowledgement, which
leaves the second chunk to fail; the third is turned down. -/
def failingInsideAcknowledgement : List Move :=
  [.create (.cause breakdown.wrapped), .create .body,
    .enter 0 (.offer 0 ⟨[1], .pair 0 1⟩), .advance 0, .advance 0,
    .enter 0 (.offer 0 ⟨[2], .pair 2 3⟩), .advance 0, .advance 0,
    .enter 0 (.next 0), .advance 0, .advance 0,
    .enter 0 (.acknowledge 0), .advance 0, .advance 0,
    .enter 0 (.fail 0 breakdown), .advance 0, .advance 0, .comeBack 0 (.returned ()), .advance 0,
    .comeBack 0 (.returned ()), .advance 0,
    .enter 0 (.offer 0 ⟨[3], .pair 4 5⟩), .advance 0, .advance 0, .comeBack 0 (.returned ()),
    .advance 0]

theorem frames_failingInsideAcknowledgement :
    ∀ caller, (World.after failingInsideAcknowledgement).frames caller = []
  | 0 => rfl
  | _ + 1 => rfl

theorem signals_once_failingInsideAcknowledgement :
    Calm 0 (World.after failingInsideAcknowledgement).log ∧
      (World.after failingInsideAcknowledgement).SignalsOnce 0 ∧
        (World.after failingInsideAcknowledgement).Still 0 ∧
          Notice.sentSignals 0 (Call.settles 0) (World.after failingInsideAcknowledgement).log =
            [(.pair 0 1, .success), (.pair 2 3, .failure breakdown)] ∧
          Notice.sentSignals 0 (Call.offers 0) (World.after failingInsideAcknowledgement).log =
            [(.pair 4 5, .failure breakdown)] := by
  have hcalm : Calm 0 (World.after failingInsideAcknowledgement).log := by decide
  have hstill : (World.after failingInsideAcknowledgement).Still 0 := by
    intro caller frame hmem
    rw [frames_failingInsideAcknowledgement caller] at hmem
    nomatch hmem
  exact ⟨hcalm, signals_once _ hcalm, hstill, by decide, by decide⟩

end Body

end OneShot
