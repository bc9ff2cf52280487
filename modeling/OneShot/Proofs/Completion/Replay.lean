import OneShot.Proofs.Failure.Interleaved

/-!
# Signals that come again

A latch that has taken notice of a signal takes no more notice of the same
signal: its state stays, and the cause that the signal carries is associated
with the one held. Nothing undoes that, so to deliver the signal again, at
whatever time, changes nothing and runs no hook.
-/

namespace OneShot

open Course

/-! ## States that a signal leaves alone -/

namespace Latch.State

variable {state : State} {signal : Signal}

def Unmoved (state : State) (signal : Signal) : Prop := (state.receive signal).1 = state

theorem unmoved_failed (c : Cause) (signal : Signal) : (failed c).Unmoved signal :=
  congrArg Prod.fst (receive_failed c signal)

theorem unmoved_receive_self (state : State) (signal : Signal) :
    (state.receive signal).1.Unmoved signal := by
  cases state with
  | idle =>
      cases signal with
      | finish ending => cases ending <;> rfl
      | abort d => rfl
  | _ => cases signal <;> rfl

theorem Unmoved.ne_idle (h : state.Unmoved signal) : state ≠ idle := by
  rintro rfl
  cases signal with
  | finish ending => cases ending <;> nomatch h
  | abort d => nomatch h

/-- An ending moves a latch that was aborted. -/
theorem Unmoved.closing_eq_nil (h : state.Unmoved signal) : state.closing signal = [] := by
  cases state with
  | aborted c =>
      cases signal with
      | finish ending => nomatch h
      | abort d => rfl
  | _ => rfl

theorem cause?_receive_of_ne_idle (h : state ≠ idle) (other : Signal) :
    (state.receive other).1.cause? = state.cause? := by
  cases state with
  | idle => exact absurd rfl h
  | succeeded => rw [receive_succeeded]
  | failed c => rw [receive_failed]
  | _ => cases other <;> rfl

theorem eq_succeeded (h : state ≠ idle) (hcause : state.cause? = none) : state = succeeded := by
  cases state with
  | idle => exact absurd rfl h
  | succeeded => rfl
  | _ => nomatch hcause

theorem Unmoved.receive (h : state.Unmoved signal) (other : Signal) :
    (state.receive other).1.Unmoved signal := by
  cases state with
  | idle => exact absurd rfl h.ne_idle
  | succeeded =>
      rw [receive_succeeded]
      exact h
  | failed c =>
      rw [receive_failed]
      exact h
  | aborting c completing =>
      cases other with
      | finish ending => cases signal <;> rfl
      | abort d => exact h
  | aborted c =>
      cases other with
      | finish ending => exact unmoved_failed c signal
      | abort d => exact h

theorem Unmoved.publish (h : state.Unmoved signal) : state.publish.1.Unmoved signal := by
  cases state with
  | aborting c completing =>
      cases signal with
      | finish ending =>
          cases completing with
          | false => nomatch h
          | true => rfl
      | abort d => cases completing <;> rfl
  | _ => exact h

end Latch.State

namespace Store

/-- The latch knows of the signal: its state takes no notice of it, and the cause that the signal
carries is associated with the one held. -/
structure Heard (s : Store) (id : Nat) (signal : Signal) : Prop where
  unmoved : (s.stateOf id).Unmoved signal
  associated : ∀ c d, (s.stateOf id).cause? = some c → signal.cause? = some d →
    s.register.associated c d = true

variable {s s' : Store} {id : Nat} {signal : Signal}

theorem unmoved_change (h : s.Change s') (hunmoved : (s.stateOf id).Unmoved signal) :
    (s'.stateOf id).Unmoved signal ∧ (s'.stateOf id).cause? = (s.stateOf id).cause? := by
  cases h with
  | create novelty =>
      rw [stateOf_add]
      exact ⟨hunmoved, rfl⟩
  | access a =>
      by_cases ha : a.object? = some (.latch id)
      · cases a with
        | receive other s' =>
            obtain rfl : other = id := by simpa [Access.object?] using ha
            rw [(perform_receive (lt_of_ne_idle hunmoved.ne_idle) s').2]
            exact ⟨hunmoved.receive s', Latch.State.cause?_receive_of_ne_idle hunmoved.ne_idle s'⟩
        | publish other =>
            obtain rfl : other = id := by simpa [Access.object?] using ha
            rw [(perform_publish s other).2]
            exact ⟨hunmoved.publish, Latch.State.cause?_publish _⟩
        | _ => cases ha
      · rw [stateOf_perform_of_ne s ha]
        exact ⟨hunmoved, rfl⟩

theorem Heard.change (h : s.Heard id signal) (hchange : s.Change s') : s'.Heard id signal := by
  obtain ⟨hunmoved, hcause⟩ := unmoved_change hchange h.unmoved
  refine ⟨hunmoved, fun c d hc hd => ?_⟩
  exact hchange.grown.register.associated (h.associated c d (hcause ▸ hc) hd)

theorem Heard.precedes (h : s.Heard id signal) (hlater : s.Precedes s') : s'.Heard id signal :=
  hlater.keeps (P := (·.Heard id signal)) (fun _ _ hchange h => h.change hchange) h

end Store

/-! ## Courses that come to nothing -/

/-- The course makes accesses that leave the store as it is, and no upcalls, and it ends with the
value. -/
inductive Course.Idles {α : Type} (s : Store) (value : α) : Course α → Prop
  | done : Idles s value (.done (.returned value))
  | access {a next} (hstore : (s.perform a).2 = s) (h : Idles s value (next (s.perform a).1)) :
      Idles s value (.access a next)

namespace Course.Idles

variable {α β μ : Type} {s : Store} {value : α} {course : Course α}

theorem bind (h : course.Idles s value) {f : α → Course β} {value' : β}
    (hf : (f value).Idles s value') : (course >>= f).Idles s value' := by
  induction h with
  | done => exact hf
  | access hstore _ ih => exact .access hstore ih

theorem run (h : course.Idles s value) (answer : Surroundings μ) (memory : μ) :
    course.run answer memory s = (.returned value, memory, s) := by
  induction h with
  | done => rfl
  | access hstore _ ih =>
      simp only [Course.run, hstore]
      exact ih

end Course.Idles

namespace Store.Heard

variable {s : Store} {id : Nat} {signal : Signal}

theorem receive_eq (h : s.Heard id signal) : (s.receive id signal).2 = s := by
  have hlt := lt_of_ne_idle h.unmoved.ne_idle
  have hlatch : s.latches[id]? = some s.latches[id] := List.getElem?_eq_getElem hlt
  have hstate : (s.latches[id].state.receive signal).1 = s.latches[id].state :=
    stateOf_eq hlatch ▸ h.unmoved
  have hsame : ({ s.latches[id] with state := (s.latches[id].state.receive signal).1 } : Latch) =
      s.latches[id] := by
    rw [hstate]
  simp only [receive, hlatch, hsame, List.set_getElem_self]

theorem idles_deliver (h : s.Heard id signal) : (Latch.deliver id signal).Idles s false := by
  rw [Latch.deliver_eq]
  refine .access h.receive_eq ?_
  cases hheld : (s.stateOf id).cause? with
  | none =>
      have hsucceeded := Latch.State.eq_succeeded h.unmoved.ne_idle hheld
      have hduty : (s.perform (.receive id signal)).1 = .call [] :=
        congrArg Prod.fst (receive_of_succeeded hsucceeded signal)
      rw [hduty]
      exact .done
  | some c =>
      have hduty : (s.perform (.receive id signal)).1 = .suppress c signal.cause? [] := by
        rw [← h.unmoved.closing_eq_nil]
        exact receive_of_cause? hheld signal
      rw [hduty]
      cases hd : signal.cause? with
      | none => exact .done
      | some d =>
          have hkept : (s.perform (.suppress c d)).2 = s := by
            have hregister := Register.suppress_of_associated (h.associated c d hheld hd)
            simp only [perform, suppress, hregister]
          exact .access hkept .done

end Store.Heard

/-! ## What a signal leaves behind -/

namespace World

open Latch

variable {w : World} {caller : Nat}

theorem Reachable.known_of_left (h : w.Reachable) {call : Call} {outcome : Outcome Response}
    (hleft : (caller, Mark.left call outcome) ∈ w.log) : call.Known w.store := by
  refine h.of_mem_log (P := call.Known) (fun _ _ hchange hknown => hknown.mono hchange.grown)
    hleft ?_
  intro v v' hv hact hlog
  obtain ⟨rest, hframes⟩ := hact.makes hlog
  exact (hv.known (hframes ▸ List.mem_cons_self)).mono hact.grown

theorem Reachable.unmoved_of_receive (h : w.Reachable) {id : Nat} {signal : Signal} {duty : Duty}
    (hreceive : (caller, Mark.accessed (.receive id signal) duty) ∈ w.log) :
    (w.store.stateOf id).Unmoved signal := by
  refine h.of_mem_log (P := fun s => (s.stateOf id).Unmoved signal)
    (fun _ _ hchange hunmoved => (Store.unmoved_change hchange hunmoved).1) hreceive ?_
  intro v v' hv hact hlog
  rw [(hv.act hact).stateOf_eq, hlog, State.ofLog_concat, State.mark_receive]
  exact State.unmoved_receive_self _ signal

/-- Who has a cause suppressed has it suppressed by one that has been created. -/
theorem Reachable.keeper_mem_causes (h : w.Reachable) {call : Call} {keeper late : Cause}
    {next : Unit → Course Response} {rest : List Frame}
    (hframes : w.frames caller =
      ⟨call, .working (.access (.suppress keeper late) next)⟩ :: rest) :
    keeper ∈ w.store.register.causes := by
  cases hobject : call.object? with
  | some o =>
      obtain ⟨id, signal, rfl⟩ := h.signal_of_suppress hframes hobject
      exact h.held_mem_causes (o := .latch id) (h.held_of_suppress hframes).1
  | none =>
      cases call with
      | suppress first second =>
          have hknown := (h.known (hframes ▸ List.mem_cons_self)).2
          obtain ⟨marks, -, -, hfollows, -⟩ := h.followed.exists_of_cons hframes
          have haccess : Access.suppress keeper late = .suppress first second :=
            Course.Leads.eq_of_touch hfollows.leads
          rw [(Access.suppress.inj haccess).1]
          exact hknown first List.mem_cons_self
      | _ => nomatch hobject

theorem Reachable.associated_of_suppress (h : w.Reachable) {keeper late : Cause} {reply : Unit}
    (hsuppress : (caller, Mark.accessed (.suppress keeper late) reply) ∈ w.log) :
    w.store.register.associated keeper late = true := by
  refine h.of_mem_log (P := fun s => s.register.associated keeper late = true)
    (fun _ _ hchange hassociated => hchange.grown.register.associated hassociated) hsuppress ?_
  intro v v' hv hact hlog
  obtain ⟨call, next, rest, hframes, -⟩ := hact.makes hlog
  rw [hact.store_eq_perform hlog]
  exact Register.associated_suppress (hv.keeper_mem_causes hframes) late

/-- The cause that a latch holds after a signal it held before, or the signal has brought it. -/
theorem Reachable.held_or_brought (h : w.Reachable) {id : Nat} {signal : Signal} {before : Log}
    {duty : Duty} {c d : Cause}
    (hreceive : (before, caller, Mark.accessed (.receive id signal) duty) ∈ dated w.log)
    (hc : (w.store.stateOf id).cause? = some c) (hd : signal.cause? = some d) :
    (State.ofLog id before).cause? = some c ∨ c = d := by
  have hlater := mem_dated_iff.mp hreceive
  have hadvances := State.advances_ofLog id hlater
  rw [State.ofLog_concat, State.mark_receive, ← h.stateOf_eq] at hadvances
  cases hcause : ((State.ofLog id before).receive signal).1.cause? with
  | some keeper =>
      obtain rfl := Option.some.inj ((hadvances.cause keeper hcause).symm.trans hc)
      exact (State.cause?_receive hcause).imp_right fun hbrought =>
        Option.some.inj (hbrought.symm.trans hd)
  | none =>
      -- What has succeeded never comes to hold a cause.
      have hne := (State.unmoved_receive_self (State.ofLog id before) signal).ne_idle
      rw [State.eq_succeeded hne hcause] at hadvances
      rw [hadvances.final rfl] at hc
      nomatch hc

/-- A call that has brought its signal leaves it known to the latch. -/
theorem Reachable.heard_of_left (h : w.Reachable) {id : Nat} {signal : Signal}
    {outcome : Outcome Response} (hleft : (caller, Mark.left (.signal id signal) outcome) ∈ w.log) :
    w.store.Heard id signal := by
  obtain ⟨past, later, hlog⟩ := List.append_of_mem hleft
  have hmoment : (past, caller, Mark.left (.signal id signal) outcome) ∈ dated w.log :=
    mem_dated_iff.mpr ⟨later, by rw [hlog, List.append_assoc, List.singleton_append]⟩
  obtain ⟨before, duty, told, -, -, hleads, hdated⟩ := h.exists_receive_of_left hmoment
  have hreceive := hdated _ List.mem_cons_self
  refine ⟨h.unmoved_of_receive (mem_of_mem_dated hreceive), fun c d hc hd => ?_⟩
  rcases h.held_or_brought hreceive hc hd with hbefore | rfl
  · -- The late cause has then been suppressed in a second access.
    rw [h.duty_eq hreceive, State.receive_of_cause? hbefore, hd] at hleads
    generalize hseen : told.map Prod.snd = seen at hleads
    cases hleads with
    | access =>
        obtain ⟨⟨moment, mark⟩, told, rfl, rfl, -⟩ := List.map_eq_cons_iff.mp hseen
        exact h.associated_of_suppress
          (mem_of_mem_dated (hdated _ (List.mem_cons_of_mem _ List.mem_cons_self)))
  · exact Register.associated_self w.store.register c

/-- A call that has come to nothing: it was entered, made its accesses and was left, and nothing
else is different. -/
structure Idled (w w' : World) (caller : Nat) (call : Call) (answer : Response) : Prop where
  store_eq : w'.store = w.store
  frames_eq : w'.frames = w.frames
  log_eq : ∃ seen : List Mark, (∀ mark ∈ seen, ∃ a reply, mark = .accessed a reply) ∧
    w'.log = w.log ++ (caller, .entered call) :: seen.map (caller, ·) ++
      [(caller, .left call (.returned answer))]

theorem exists_advances_of_idles {s : Store} {course : Course Response} {answer : Response}
    (h : course.Idles s answer) {call : Call} {rest : List Frame} (hstore : w.store = s)
    (hframes : w.frames caller = ⟨call, .working course⟩ :: rest) :
    ∃ n, ∃ seen : List Mark, (∀ mark ∈ seen, ∃ a reply, mark = .accessed a reply) ∧
      (List.replicate n (Move.advance caller)).foldl step w =
        { store := s
          frames := Function.update w.frames caller rest
          log := w.log ++ seen.map (caller, ·) ++ [(caller, .left call (.returned answer))] } := by
  induction h generalizing w with
  | done =>
      refine ⟨1, [], fun _ => nofun, ?_⟩
      simp [step, hframes, put, hstore]
  | @access a next hsame _ ih =>
      have hstep : w.step (.advance caller) = { w with store := s }.put caller
          (⟨call, .working (next (s.perform a).1)⟩ :: rest) (.accessed a (s.perform a).1) := by
        simp only [step, hframes, hstore, hsame]
      obtain ⟨n, seen, haccesses, hrest⟩ := ih (w := w.step (.advance caller)) (by rw [hstep]; rfl)
        (by rw [hstep]; exact Function.update_self ..)
      refine ⟨n + 1, .accessed a (s.perform a).1 :: seen, ?_, ?_⟩
      · intro mark hmark
        rcases List.mem_cons.mp hmark with rfl | hlater
        · exact ⟨a, _, rfl⟩
        · exact haccesses mark hlater
      · rw [List.replicate_succ, List.foldl_cons, hrest, hstep]
        simp [put, Function.update_idem]

theorem exists_idled_of_heard {id : Nat} {signal : Signal} (h : w.store.Heard id signal)
    (hknown : (Call.signal id signal).Known w.store) (hmay : mayEnter (w.frames caller) = true) :
    ∃ n, w.Idled ((.enter caller (.signal id signal) :: List.replicate n (.advance caller)).foldl
      step w) caller (.signal id signal) (.truth false) := by
  have hcourse : (Call.signal id signal).course.Idles w.store (.truth false) :=
    h.idles_deliver.bind .done
  have henter : w.step (.enter caller (.signal id signal)) =
      w.put caller (⟨.signal id signal, .working (Call.signal id signal).course⟩ ::
        w.frames caller) (.entered (.signal id signal)) := by
    simp only [step, if_pos (And.intro hmay hknown)]
  obtain ⟨n, seen, haccesses, hleft⟩ := exists_advances_of_idles hcourse
    (w := w.step (.enter caller (.signal id signal))) (by rw [henter]; rfl)
    (by rw [henter]; exact Function.update_self ..)
  refine ⟨n, ?_⟩
  rw [List.foldl_cons, hleft, henter]
  refine ⟨rfl, ?_, seen, haccesses, ?_⟩
  · simp [put, Function.update_idem]
  · simp [put]

end World

/-! ## A latch signalled twice -/

theorem Sink.deliver_both (first second : Sink) (signal : Signal) :
    (Sink.both first second).deliver signal = (do
      let one ← first.deliver signal
      let other ← second.deliver signal
      pure (one || other)) := by
  cases signal with
  | finish ending => simp [deliver, finish, bind_assoc]
  | abort cause => rfl

namespace Store

variable {s s' : Store} {id : Nat} {signal : Signal}

theorem heard_of_received (hstate : s'.stateOf id = ((s.stateOf id).receive signal).1)
    (hassociated : ∀ c d, (s.stateOf id).cause? = some c → signal.cause? = some d →
      s'.register.associated c d = true) : s'.Heard id signal := by
  refine ⟨hstate ▸ Latch.State.unmoved_receive_self _ signal, fun c d hc hd => ?_⟩
  rw [hstate] at hc
  rcases Latch.State.cause?_receive hc with hbefore | hbrought
  · exact hassociated c d hbefore hd
  · obtain rfl := Option.some.inj (hbrought.symm.trans hd)
    exact Register.associated_self s'.register c

theorem Heard.idles_deliver_latch (h : s.Heard id signal) :
    ((Sink.latch id).deliver signal).Idles s false := by
  cases signal with
  | finish ending => exact (h.idles_deliver.bind .done).bind .done
  | abort cause => exact h.idles_deliver

variable {μ : Type} {answer : Surroundings μ}

/-- A latch has heard of a signal once it is delivered, whatever its hooks have been used for. -/
theorem heard_run (hproper : answer.Proper) (hlt : id < s.latches.length)
    (hcreated : ∀ c, (s.stateOf id).cause? = some c → c ∈ s.register.causes) (signal : Signal)
    (memory : μ) :
    (((Sink.latch id).deliver signal).run answer memory s).2.2.Heard id signal := by
  have hstate := (perform_receive hlt signal).2
  by_cases hlate : ∃ c d, (s.stateOf id).cause? = some c ∧ signal.cause? = some d
  · obtain ⟨c, d, hheld, hd⟩ := hlate
    rw [Latch.run_deliver_late answer memory hheld hd]
    have hheard : ((s.receive id signal).2.suppress c d).Heard id signal := by
      refine heard_of_received (s := s) hstate ?_
      intro keeper late hkeeper hlate
      obtain rfl := Option.some.inj (hheld.symm.trans hkeeper)
      obtain rfl := Option.some.inj (hd.symm.trans hlate)
      rw [suppress, register_receive]
      exact Register.associated_suppress (hcreated c hheld) d
    exact hheard.precedes (precedes_run hproper _ memory _)
  · have hheard : (s.receive id signal).2.Heard id signal := by
      apply heard_of_received hstate
      intro c d hc hd
      exact absurd ⟨c, d, hc, hd⟩ hlate
    rw [Latch.deliver_latch]
    exact hheard.precedes (precedes_run hproper _ memory _)

theorem run_deliver_unmade (hge : s.latches.length ≤ id) (memory : μ) :
    ((Sink.latch id).deliver signal).run answer memory s = (.returned false, memory, s) := by
  have hreceive : s.receive id signal = (.call [], s) := by
    rw [receive, List.getElem?_eq_none hge]
  simp only [Latch.deliver_latch, run, perform, hreceive, Latch.concluding_call]
  rfl

theorem run_deliver_again (hproper : answer.Proper)
    (hcreated : ∀ c, (s.stateOf id).cause? = some c → c ∈ s.register.causes) (memory : μ)
    {memory' : μ} {s' : Store} {value : Bool}
    (hrun : ((Sink.latch id).deliver signal).run answer memory s =
      (.returned value, memory', s')) :
    ((Sink.latch id).deliver signal).run answer memory' s' = (.returned false, memory', s') := by
  by_cases hlt : id < s.latches.length
  · have hheard := heard_run hproper hlt hcreated signal memory
    rw [hrun] at hheard
    exact hheard.idles_deliver_latch.run answer memory'
  · have hge := Nat.le_of_not_lt hlt
    have hsame : s' = s := by
      rw [run_deliver_unmade hge] at hrun
      exact (congrArg (·.2.2) hrun).symm
    rw [hsame]
    exact run_deliver_unmade hge memory'

/-- A latch joined with itself takes every signal as the latch alone does. -/
theorem run_deliver_both (hproper : answer.Proper)
    (hcreated : ∀ c, (s.stateOf id).cause? = some c → c ∈ s.register.causes) (memory : μ) :
    ((Sink.both (.latch id) (.latch id)).deliver signal).run answer memory s =
      ((Sink.latch id).deliver signal).run answer memory s := by
  rw [Sink.deliver_both, run_bind]
  split
  · rename_i value memory' s' hrun
    rw [run_bind, run_deliver_again hproper hcreated memory hrun, hrun]
    simp
  · rename_i text memory' s' hrun
    exact hrun.symm

end Store

namespace Latch

/-- In every run, once a call that brought a signal to a latch has been left, to bring the same
signal again comes to nothing, whoever does it and from wherever: no hook is run, no state changes,
no cause is suppressed and the answer is no. So a latch may as well be joined with itself. -/
theorem replay_changes_nothing (moves : List Move) (id : Nat) (signal : Signal) :
    (∀ caller outcome, (caller, .left (.signal id signal) outcome) ∈ (World.after moves).log →
      ∀ actor, mayEnter ((World.after moves).frames actor) = true →
        ∃ n, (World.after moves).Idled
          (World.after (moves ++ .enter actor (.signal id signal) ::
            List.replicate n (.advance actor))) actor (.signal id signal) (.truth false)) ∧
      ∀ (μ : Type) (answer : Surroundings μ) (memory : μ), answer.Proper →
        ((Sink.both (.latch id) (.latch id)).deliver signal).run answer memory
            (World.after moves).store =
          ((Sink.latch id).deliver signal).run answer memory (World.after moves).store := by
  have hreachable := World.reachable_after moves
  constructor
  · intro caller outcome hleft actor hmay
    obtain ⟨n, hidled⟩ := World.exists_idled_of_heard (hreachable.heard_of_left hleft)
      (hreachable.known_of_left hleft) hmay
    refine ⟨n, ?_⟩
    rw [World.after_append]
    exact hidled
  · intro μ answer memory hproper
    exact Store.run_deliver_both hproper
      (fun c hheld => hreachable.held_mem_causes (o := .latch id) hheld) memory

end Latch

end OneShot
