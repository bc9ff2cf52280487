import OneShot.Proofs.Failure.Growth
import OneShot.Proofs.Calls.World
import Mathlib.Data.List.Nodup

/-!
# The history of a register

A register comes about by deeds done one after the other: a cause is created
from a fault made of causes that are there, it is cloned, or it suppresses
another. No edge that is ever added closes a cycle: the chains of wrapped
faults run down to ever smaller ones, and a new edge would have to be met by
a path that leads back to its keeper, which the search would have found.
-/

namespace OneShot

open Relation

inductive Deed
  | create (wrapped : Fault)
  /-- A clone is one more handle of the same cause, and handles are not told apart. -/
  | clone (c : Cause)
  | suppress (keeper late : Cause)
  deriving DecidableEq

namespace Cause

theorem sizeOf_lt_of_transGen {f s : Fault} (h : TransGen Fault.Behind f s) :
    sizeOf s < sizeOf f := by
  induction h with
  | single hbehind => exact Fault.sizeOf_behind hbehind
  | tail _ hbehind ih => exact Nat.lt_trans (Fault.sizeOf_behind hbehind) ih

theorem Origin.sizeOf_lt {c d : Cause} (h : c.Origin d) : sizeOf d.toFault < sizeOf c.toFault :=
  sizeOf_lt_of_transGen h.transGen

end Cause

namespace Register

/-- A deed with causes that have not been created cannot be done, and changes nothing. -/
def step (r : Register) : Deed → Register
  | .create wrapped => if ∀ c ∈ wrapped.causes, c ∈ r.causes then (r.create wrapped).2 else r
  | .clone _ => r
  | .suppress keeper late =>
      if keeper ∈ r.causes ∧ late ∈ r.causes then r.suppress keeper late else r

/-- The register that some deeds lead to, from one in which no cause has been created. -/
def after (deeds : List Deed) : Register := deeds.foldl step {}

theorem after_append (deeds more : List Deed) :
    after (deeds ++ more) = more.foldl step (after deeds) := List.foldl_append

theorem after_concat (deeds : List Deed) (deed : Deed) :
    after (deeds ++ [deed]) = (after deeds).step deed := after_append deeds [deed]

variable {r : Register}

theorem grown_step (r : Register) (deed : Deed) : r.Grown (r.step deed) := by
  cases deed with
  | create wrapped =>
      rw [step]
      split
      · exact grown_create r wrapped
      · exact .refl r
  | clone c => exact .refl r
  | suppress keeper late =>
      rw [step]
      split
      · exact grown_suppress r keeper late
      · exact .refl r

theorem grown_after (deeds more : List Deed) : (after deeds).Grown (after (deeds ++ more)) := by
  rw [after_append]
  exact List.foldlRecOn (motive := fun r => (after deeds).Grown r) more step (.refl _)
    fun r h deed _ => h.trans (r.grown_step deed)

/-- No path leads from a cause back to it, and no list names a cause twice. -/
structure Tidy (r : Register) : Prop where
  acyclic : ∀ c, ¬ TransGen r.Edge c c
  nodup : ∀ c, (r.suppressed c).Nodup

namespace Tidy

theorem empty : ({} : Register).Tidy := by
  refine ⟨fun c hcycle => ?_, fun c => List.nodup_nil⟩
  have hsize {a b : Cause} (hpath : TransGen ({} : Register).Edge a b) :
      sizeOf b.toFault < sizeOf a.toFault := by
    induction hpath with
    | single hedge => exact (hedge.resolve_right List.not_mem_nil).sizeOf_lt
    | tail _ hedge ih =>
        exact Nat.lt_trans (hedge.resolve_right List.not_mem_nil).sizeOf_lt ih
  exact Nat.lt_irrefl _ (hsize hcycle)

theorem create (h : r.Tidy) (wrapped : Fault) : (r.create wrapped).2.Tidy := by
  have hedge : (r.create wrapped).2.Edge = r.Edge := by
    funext c d
    rw [Edge, Edge, suppressed_create]
  refine ⟨?_, fun c => ?_⟩
  · rw [hedge]
    exact h.acyclic
  · rw [suppressed_create]
    exact h.nodup c

theorem suppress (h : r.Tidy) {keeper : Cause} (hkeeper : keeper ∈ r.causes) (late : Cause) :
    (r.suppress keeper late).Tidy := by
  refine ⟨fun c hcycle => ?_, fun c => ?_⟩
  · rcases path_or_through hkeeper hcycle with hold | ⟨hnew, hto, hfrom⟩
    · exact h.acyclic c hold
    · -- The old paths join into one from the cause suppressed to its keeper.
      have hback : r.associated keeper late = true := associated_iff.mpr (.inr (hfrom.trans hto))
      rw [hback] at hnew
      nomatch hnew
  · rw [suppressed_suppress hkeeper]
    split
    · rename_i hnew
      obtain ⟨rfl, hnew⟩ := hnew
      have hfresh : late ∉ r.suppressed c := by
        intro hmem
        have hjoined : r.associated c late = true := associated_iff.mpr (.inl (.single (.inr hmem)))
        rw [hjoined] at hnew
        nomatch hnew
      exact (h.nodup c).append (List.nodup_singleton late) (by simpa using hfresh)
    · rw [List.append_nil]
      exact h.nodup c

theorem step (h : r.Tidy) (deed : Deed) : (r.step deed).Tidy := by
  cases deed with
  | create wrapped =>
      rw [Register.step]
      split
      · exact h.create wrapped
      · exact h
  | clone c => exact h
  | suppress keeper late =>
      rw [Register.step]
      split
      · rename_i hmade
        exact h.suppress hmade.1 late
      · exact h

theorem notMem_suppressed_self (h : r.Tidy) (c : Cause) : c ∉ r.suppressed c :=
  fun hmem => h.acyclic c (.single (.inr hmem))

end Tidy

theorem tidy_after (deeds : List Deed) : (after deeds).Tidy :=
  List.foldlRecOn (motive := Tidy) deeds step .empty fun _ h deed _ => h.step deed

/-- Whatever is done, the graph of the causes stays free of cycles, no list names its owner or names
a cause twice, suppressing a cause puts it at the end of one list at most and leaves the two causes
associated, and associated causes stay so. -/
theorem stays_tidy (deeds : List Deed) :
    (∀ c, ¬ TransGen (after deeds).Edge c c) ∧
      (∀ c, c ∉ (after deeds).suppressed c ∧ ((after deeds).suppressed c).Nodup) ∧
        (∀ keeper ∈ (after deeds).causes, ∀ late ∈ (after deeds).causes,
          (∀ c, (after (deeds ++ [.suppress keeper late])).suppressed c =
            (after deeds).suppressed c ++
              if c = keeper ∧ (after deeds).associated keeper late = false then [late] else []) ∧
            (after (deeds ++ [.suppress keeper late])).associated keeper late = true) ∧
          ∀ more a b, (after deeds).associated a b = true →
            (after (deeds ++ more)).associated a b = true := by
  have htidy := tidy_after deeds
  refine ⟨htidy.acyclic, fun c => ⟨htidy.notMem_suppressed_self c, htidy.nodup c⟩, ?_, ?_⟩
  · intro keeper hkeeper late hlate
    have hafter :
        after (deeds ++ [.suppress keeper late]) = (after deeds).suppress keeper late := by
      rw [after_concat]
      exact if_pos ⟨hkeeper, hlate⟩
    rw [hafter]
    exact ⟨suppressed_suppress hkeeper late, associated_suppress hkeeper late⟩
  · intro more a b hab
    exact (grown_after deeds more).associated hab

def refused : Cause := ⟨0, .message "refused"⟩
def refusedAgain : Cause := ⟨1, .reportOf "again" refused.toFault⟩
def unrelated : Cause := ⟨2, .message "unrelated"⟩

example :
    (after [.create refused.wrapped, .create refusedAgain.wrapped, .create unrelated.wrapped,
      .suppress refused refusedAgain, .suppress refused unrelated,
      .suppress unrelated refusedAgain]).entries =
      [(refused, [unrelated]), (refusedAgain, []), (unrelated, [])] := by
  cbv

end Register

end OneShot
