import OneShot.Text.Display

/-!
# Faults and causes

A fault is what can go wrong: a plain message, a report that may name
the fault behind it, a transparent cover of another fault, or a cause.
A cause is one occurrence of a fault. Occurrences are told apart by
their number, so two causes of equal text are still two.
-/

namespace OneShot

inductive Fault
  | message (text : String)
  | report (text : String)
  | reportOf (text : String) (source : Fault)
  | transparent (inner : Fault)
  | cause (id : Nat) (wrapped : Fault)
  deriving DecidableEq, Inhabited

structure Cause where
  id : Nat
  wrapped : Fault
  deriving DecidableEq, Inhabited

namespace Fault

def toCause? : Fault → Option Cause
  | cause id wrapped => some ⟨id, wrapped⟩
  | _ => none

def display : Fault → String
  | message text | report text | reportOf text _ => text
  | transparent inner => inner.display
  | cause _ wrapped => wrapped.display

/-- The fault directly behind this one. A transparent cover has the
source of the fault it covers. A cause that wraps a cause has that one
behind it; any other wrapped fault is already shown by the cause's own
text, so its source comes next. -/
def behind? : Fault → Option Fault
  | message _ | report _ => none
  | reportOf _ source => some source
  | transparent inner => inner.behind?
  | cause _ wrapped => if wrapped.toCause?.isSome then some wrapped else wrapped.behind?

theorem sizeOf_behind {f s : Fault} (h : f.behind? = some s) : sizeOf s < sizeOf f := by
  induction f with
  | message text => simp [behind?] at h
  | report text => simp [behind?] at h
  | reportOf text source =>
      have hs : source = s := by simpa [behind?] using h
      subst hs
      simp only [reportOf.sizeOf_spec]
      omega
  | transparent inner ih =>
      have := ih (by simpa [behind?] using h)
      simp only [transparent.sizeOf_spec]
      omega
  | cause id wrapped ih =>
      simp only [cause.sizeOf_spec]
      by_cases hw : wrapped.toCause?.isSome
      · have hs : wrapped = s := by simpa [behind?, hw] using h
        subst hs
        omega
      · have := ih (by simpa [behind?, hw] using h)
        omega

/-- All faults behind this one, nearest first. -/
def chain (f : Fault) : List Fault :=
  match h : f.behind? with
  | none => []
  | some s =>
      have := sizeOf_behind h
      s :: s.chain
termination_by sizeOf f

theorem chain_of_none {f : Fault} (h : f.behind? = none) : f.chain = [] := by
  rw [chain]
  split <;> simp_all

theorem chain_of_some {f s : Fault} (h : f.behind? = some s) : f.chain = s :: s.chain := by
  rw [chain]
  split <;> simp_all

end Fault

namespace Cause

def toFault (c : Cause) : Fault := .cause c.id c.wrapped

@[simp] theorem toCause?_toFault (c : Cause) : c.toFault.toCause? = some c := rfl

def display (c : Cause) : String := c.wrapped.display

/-- The causes met from the wrapped fault on, that one included. -/
def origins (c : Cause) : List Cause :=
  (c.wrapped :: c.wrapped.chain).filterMap Fault.toCause?

end Cause

end OneShot
