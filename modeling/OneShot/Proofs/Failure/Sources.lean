import OneShot.Proofs.Failure.Association

/-!
# Origins along the chain

The chain of a cause begins behind the cause, and a wrapped fault that is no cause has no place
in it. The walk that looks for the origins of the cause begins at the wrapped fault itself. Both
come to the same causes in the same order, and from each of these causes on the chain is that
cause's own.
-/

namespace OneShot

namespace Fault

/-- The fault that one comes to by going `n + 1` times to the fault behind. -/
def behindBy? : Nat → Fault → Option Fault
  | 0, f => f.behind?
  | n + 1, f => f.behind?.bind (behindBy? n)

variable {f s : Fault} {before after : List Fault}

theorem getElem?_chain (f : Fault) (n : Nat) : f.chain[n]? = behindBy? n f := by
  induction n generalizing f with
  | zero =>
      cases h : f.behind? with
      | none => rw [chain_of_none h, behindBy?, h, List.getElem?_nil]
      | some s => rw [chain_of_some h, behindBy?, h, List.getElem?_cons_zero]
  | succ n ih =>
      cases h : f.behind? with
      | none => rw [chain_of_none h, behindBy?, h, List.getElem?_nil, Option.bind_none]
      | some s => rw [chain_of_some h, behindBy?, h, List.getElem?_cons_succ, Option.bind_some, ih]

theorem chain_eq_cons (h : f.chain = s :: after) : f.behind? = some s ∧ s.chain = after := by
  cases hbehind : f.behind? with
  | none =>
      rw [chain_of_none hbehind] at h
      nomatch h
  | some next =>
      rw [chain_of_some hbehind] at h
      obtain ⟨rfl, rfl⟩ := List.cons.inj h
      exact ⟨rfl, rfl⟩

/-- What follows a fault on a chain is the chain of that fault. -/
theorem chain_of_split (h : f.chain = before ++ s :: after) : s.chain = after := by
  induction before generalizing f with
  | nil => exact (chain_eq_cons h).2
  | cons first before ih => exact ih (chain_eq_cons h).2

end Fault

/-- A walk down a chain in search of causes, with the fault that it looks at next. -/
structure Walk where
  next? : Option Fault

namespace Walk

/-- The faults that the walk has not passed yet. -/
def faults : Walk → List Fault
  | ⟨none⟩ => []
  | ⟨some f⟩ => f :: f.chain

theorem faults_behind? (f : Fault) : faults ⟨f.behind?⟩ = f.chain := by
  cases h : f.behind? with
  | none => rw [faults, Fault.chain_of_none h]
  | some s => rw [faults, Fault.chain_of_some h]

/-- The walk goes on until it has passed a cause, and tells that cause. At the end of the chain
it tells nothing and stays there. -/
def advance : Walk → Option Cause × Walk
  | ⟨none⟩ => (none, ⟨none⟩)
  | ⟨some f⟩ =>
      match f.toCause? with
      | some c => (some c, ⟨f.behind?⟩)
      | none => advance ⟨f.behind?⟩
termination_by w => w.faults.length
decreasing_by
  rw [faults_behind?]
  exact Nat.lt_succ_self f.chain.length

/-- What the walk tells after it has told `n` times. -/
def told? (w : Walk) : Nat → Option Cause
  | 0 => w.advance.1
  | n + 1 => w.advance.2.told? n

/-- The causes that the walk has yet to tell. -/
def causes (w : Walk) : List Cause := w.faults.filterMap Fault.toCause?

theorem causes_behind? (f : Fault) : causes ⟨f.behind?⟩ = f.chain.filterMap Fault.toCause? := by
  rw [causes, faults_behind?]

theorem causes_of_cause {f : Fault} {c : Cause} (h : f.toCause? = some c) :
    causes ⟨some f⟩ = c :: causes ⟨f.behind?⟩ := by
  rw [causes_behind?, causes, faults, List.filterMap_cons_some h]

theorem causes_of_not_cause {f : Fault} (h : f.toCause? = none) :
    causes ⟨some f⟩ = causes ⟨f.behind?⟩ := by
  rw [causes_behind?, causes, faults, List.filterMap_cons_none h]

theorem advance_fst (w : Walk) : w.advance.1 = w.causes.head? := by
  fun_induction advance w with
  | case1 => rfl
  | case2 f c hc => rw [causes_of_cause hc, List.head?_cons]
  | case3 f hc ih => rw [causes_of_not_cause hc, ih]

theorem causes_advance (w : Walk) : w.advance.2.causes = w.causes.tail := by
  fun_induction advance w with
  | case1 => rfl
  | case2 f c hc => rw [causes_of_cause hc, List.tail_cons]
  | case3 f hc ih => rw [causes_of_not_cause hc, ih]

theorem told?_eq (w : Walk) (n : Nat) : w.told? n = w.causes[n]? := by
  induction n generalizing w with
  | zero => rw [told?, advance_fst, List.head?_eq_getElem?]
  | succ n ih => rw [told?, ih, causes_advance, List.getElem?_tail]

end Walk

namespace Cause

/-- The walk that looks for the origins of a cause. -/
def walk (c : Cause) : Walk := ⟨some c.wrapped⟩

theorem causes_walk (c : Cause) : c.walk.causes = c.origins := rfl

/-- A wrapped fault that is no cause is left out of the chain, and the walk passes it over. -/
theorem origins_eq_filterMap_chain (c : Cause) :
    c.origins = c.toFault.chain.filterMap Fault.toCause? := by
  rw [← causes_walk, ← Walk.causes_behind?, toFault, walk]
  by_cases hwrapped : c.wrapped.toCause?.isSome
  · rw [Fault.behind?, if_pos hwrapped]
  · rw [Fault.behind?, if_neg hwrapped]
    exact Walk.causes_of_not_cause (Option.not_isSome_iff_eq_none.mp hwrapped)

/-- From each cause on the chain the rest of the chain is that cause's own. -/
theorem origins_of_chain_split {c d : Cause} {before after : List Fault}
    (h : c.toFault.chain = before ++ d.toFault :: after) :
    c.origins = before.filterMap Fault.toCause? ++ d :: d.origins := by
  rw [origins_eq_filterMap_chain c, origins_eq_filterMap_chain d, Fault.chain_of_split h, h,
    List.filterMap_append, List.filterMap_cons_some (toCause?_toFault d)]

/-- The way from a cause to the fault behind it, and on to the fault behind that, comes to an end,
and the faults on it are the chain. The walk from the wrapped fault tells the causes on the chain
one by one, in the order of the chain, and then nothing more. What it tells after a cause on the
chain is what the walk of that cause tells. -/
theorem origins_along_chain (c : Cause) :
    (∀ n, Fault.behindBy? n c.toFault = c.toFault.chain[n]?) ∧
    (∀ n, c.walk.told? n = c.origins[n]?) ∧
    c.origins = c.toFault.chain.filterMap Fault.toCause? ∧
    ∀ (before : List Fault) (d : Cause) (after : List Fault),
      c.toFault.chain = before ++ d.toFault :: after →
        c.origins = before.filterMap Fault.toCause? ++ d :: d.origins := by
  refine ⟨?_, ?_, c.origins_eq_filterMap_chain, ?_⟩
  · exact fun n => (c.toFault.getElem?_chain n).symm
  · intro n
    rw [Walk.told?_eq, causes_walk]
  · exact fun before d after h => origins_of_chain_split h

/-- The cause under a cover is met by neither way. Behind it come a report, which is no cause, and
a cause that wraps another. -/
theorem origins_along_chain_covered :
    (toFault ⟨3, .transparent (.cause 2 (.reportOf "flush" (.reportOf "write"
        (.cause 1 (.cause 0 (.message "disk full"))))))⟩).chain =
      [.reportOf "write" (.cause 1 (.cause 0 (.message "disk full")))] ++
        toFault ⟨1, .cause 0 (.message "disk full")⟩ :: [.cause 0 (.message "disk full")] ∧
    origins ⟨3, .transparent (.cause 2 (.reportOf "flush" (.reportOf "write"
        (.cause 1 (.cause 0 (.message "disk full"))))))⟩ =
      ⟨1, .cause 0 (.message "disk full")⟩ :: origins ⟨1, .cause 0 (.message "disk full")⟩ ∧
    origins ⟨1, .cause 0 (.message "disk full")⟩ = [⟨0, .message "disk full"⟩] := by
  have hchain : (toFault ⟨3, .transparent (.cause 2 (.reportOf "flush" (.reportOf "write"
      (.cause 1 (.cause 0 (.message "disk full"))))))⟩).chain =
        [.reportOf "write" (.cause 1 (.cause 0 (.message "disk full")))] ++
          toFault ⟨1, .cause 0 (.message "disk full")⟩ :: [.cause 0 (.message "disk full")] := by
    cbv
  obtain ⟨-, -, -, hsplit⟩ := origins_along_chain ⟨3, .transparent (.cause 2 (.reportOf "flush"
    (.reportOf "write" (.cause 1 (.cause 0 (.message "disk full"))))))⟩
  exact ⟨hchain, hsplit _ _ _ hchain, by cbv⟩

end Cause

end OneShot
