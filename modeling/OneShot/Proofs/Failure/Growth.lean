import OneShot.Proofs.Failure.Association
import Mathlib.Data.List.Infix

/-!
# The growth of a register

To create a cause changes no list, and to suppress one changes the list of
its keeper at most, and that only at the end. So the paths of the graph stay
when a register grows. A path that needs a new edge enters it from the keeper
and leaves it at the cause suppressed.
-/

namespace OneShot

open Relation

namespace Register

variable {r r' r'' : Register} {a b c d keeper late : Cause}

/-! ## Lists of suppressed causes -/

@[simp] theorem suppressed_create (r : Register) (wrapped : Fault) (c : Cause) :
    (r.create wrapped).2.suppressed c = r.suppressed c := by
  rw [suppressed, suppressed, create, List.lookup_append]
  cases hlookup : r.entries.lookup c with
  | some cs => rfl
  | none =>
      rw [Option.none_or, List.lookup_cons]
      split <;> rfl

theorem lookup_record (r : Register) (keeper late c : Cause) :
    (r.record keeper late).entries.lookup c =
      (r.entries.lookup c).map fun cs => if c = keeper then cs ++ [late] else cs := by
  obtain ⟨entries⟩ := r
  simp only [record]
  induction entries with
  | nil => rfl
  | cons e entries ih =>
      obtain ⟨owner, cs⟩ := e
      rw [List.map_cons, List.lookup_cons, List.lookup_cons]
      by_cases hc : c = owner
      · subst hc
        by_cases hkeeper : c = keeper <;> simp [hkeeper]
      · have hne : (c == owner) = false := by simpa using hc
        have howner :
            (if owner = keeper then (owner, cs ++ [late]) else (owner, cs)).1 = owner := by
          split <;> rfl
        simp only [howner, hne]
        exact ih

theorem suppressed_record (hkeeper : keeper ∈ r.causes) (late c : Cause) :
    (r.record keeper late).suppressed c =
      r.suppressed c ++ if c = keeper then [late] else [] := by
  rw [suppressed, lookup_record, suppressed]
  by_cases hc : c = keeper
  · subst hc
    obtain ⟨e, he, rfl⟩ := List.mem_map.mp hkeeper
    cases hlookup : r.entries.lookup e.1 with
    | some cs => simp
    | none =>
        have hnone := List.lookup_eq_none_iff.mp hlookup e he
        simp at hnone
  · cases r.entries.lookup c <;> simp [hc]

theorem suppressed_suppress (hkeeper : keeper ∈ r.causes) (late c : Cause) :
    (r.suppress keeper late).suppressed c =
      r.suppressed c ++ if c = keeper ∧ r.associated keeper late = false then [late] else [] := by
  cases h : r.associated keeper late with
  | true => simp [suppress_of_associated h]
  | false => simp [suppress_of_not_associated h, suppressed_record hkeeper]

theorem suppressed_prefix_suppress (r : Register) (keeper late c : Cause) :
    r.suppressed c <+: (r.suppress keeper late).suppressed c := by
  cases h : r.associated keeper late with
  | true =>
      rw [suppress_of_associated h]
  | false =>
      rw [suppress_of_not_associated h, suppressed, suppressed, lookup_record]
      cases r.entries.lookup c with
      | none => exact List.prefix_rfl
      | some cs =>
          rw [Option.map_some, Option.getD_some, Option.getD_some]
          split
          · exact List.prefix_append _ _
          · exact List.prefix_rfl

/-! ## Larger registers -/

/-- Nothing that was in the first register is lost in the second or out of place there. -/
structure Grown (r r' : Register) : Prop where
  causes : r.causes <+: r'.causes
  suppressed : ∀ c, r.suppressed c <+: r'.suppressed c

theorem Grown.refl (r : Register) : r.Grown r := ⟨List.prefix_rfl, fun _ => List.prefix_rfl⟩

theorem Grown.trans (h : r.Grown r') (h' : r'.Grown r'') : r.Grown r'' :=
  ⟨h.causes.trans h'.causes, fun c => (h.suppressed c).trans (h'.suppressed c)⟩

theorem grown_create (r : Register) (wrapped : Fault) : r.Grown (r.create wrapped).2 := by
  refine ⟨?_, fun c => ?_⟩
  · rw [causes_create]
    exact List.prefix_append _ _
  · rw [suppressed_create]

theorem grown_suppress (r : Register) (keeper late : Cause) : r.Grown (r.suppress keeper late) := by
  refine ⟨?_, suppressed_prefix_suppress r keeper late⟩
  rw [causes_suppress]

theorem Grown.edge (h : r.Grown r') (hedge : r.Edge c d) : r'.Edge c d := by
  rcases hedge with horigin | hsuppressed
  · exact .inl horigin
  · exact .inr ((h.suppressed c).subset hsuppressed)

theorem Grown.path (h : r.Grown r') (hpath : ReflTransGen r.Edge c d) :
    ReflTransGen r'.Edge c d :=
  ReflTransGen.mono (fun _ _ hedge => h.edge hedge) c d hpath

theorem associated_iff : r.associated a b = true ↔
    ReflTransGen r.Edge a b ∨ ReflTransGen r.Edge b a := by
  rw [associated, Bool.or_eq_true, leadsTo_iff, leadsTo_iff]

theorem Grown.associated (h : r.Grown r') (hab : r.associated a b = true) :
    r'.associated a b = true :=
  associated_iff.mpr ((associated_iff.mp hab).imp h.path h.path)

/-! ## The edge that is added -/

theorem edge_suppress (hkeeper : keeper ∈ r.causes) :
    (r.suppress keeper late).Edge c d ↔
      r.Edge c d ∨ c = keeper ∧ d = late ∧ r.associated keeper late = false := by
  rw [Edge, Edge, suppressed_suppress hkeeper, List.mem_append, ← or_assoc]
  split
  · rename_i hnew
    simp [hnew]
  · rename_i hold
    have hnone : ¬ (c = keeper ∧ d = late ∧ r.associated keeper late = false) :=
      fun hnew => hold ⟨hnew.1, hnew.2.2⟩
    simp [hnone]

/-- Suppressing joins the two causes, unless a path led to the keeper before. -/
theorem path_suppress (hkeeper : keeper ∈ r.causes) (late : Cause) :
    ReflTransGen (r.suppress keeper late).Edge keeper late ∨ ReflTransGen r.Edge late keeper := by
  cases h : r.associated keeper late with
  | true =>
      rw [suppress_of_associated h]
      exact associated_iff.mp h
  | false => exact .inl (.single ((edge_suppress hkeeper).mpr (.inr ⟨rfl, rfl, h⟩)))

theorem associated_suppress (hkeeper : keeper ∈ r.causes) (late : Cause) :
    (r.suppress keeper late).associated keeper late = true := by
  rw [associated_iff]
  exact (path_suppress hkeeper late).imp id (grown_suppress r keeper late).path

/-- A path that is new goes to the keeper along old edges, and comes from the cause suppressed along
old edges. -/
theorem path_or_through (hkeeper : keeper ∈ r.causes)
    (hpath : TransGen (r.suppress keeper late).Edge c d) :
    TransGen r.Edge c d ∨ r.associated keeper late = false ∧
      ReflTransGen r.Edge c keeper ∧ ReflTransGen r.Edge late d := by
  induction hpath with
  | single hedge =>
      rcases (edge_suppress hkeeper).mp hedge with hold | ⟨rfl, rfl, hnew⟩
      · exact .inl (.single hold)
      · exact .inr ⟨hnew, .refl, .refl⟩
  | tail _ hedge ih =>
      rcases (edge_suppress hkeeper).mp hedge with hold | ⟨rfl, rfl, hnew⟩
      · rcases ih with hpast | ⟨hnew, hto, hfrom⟩
        · exact .inl (hpast.tail hold)
        · exact .inr ⟨hnew, hto, hfrom.tail hold⟩
      · rcases ih with hpast | ⟨-, hto, -⟩
        · exact .inr ⟨hnew, hpast.to_reflTransGen, .refl⟩
        · exact .inr ⟨hnew, hto, .refl⟩

end Register

end OneShot
