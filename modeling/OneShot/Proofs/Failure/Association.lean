import OneShot.Failure.Register
import Mathlib.Logic.Relation

/-!
# Association as reachability

Causes are the vertices of a graph: an edge goes from a cause to every cause
in the chain of the fault it wraps and to every cause it has suppressed. The
search along neighbours finds exactly the paths of that graph, however the
suppressed causes may run in circles, so two causes are associated if and
only if they are one or a path joins them.
-/

namespace OneShot

open Relation

namespace Fault

def Behind (f s : Fault) : Prop := f.behind? = some s

theorem toCause?_eq_some {f : Fault} {c : Cause} : f.toCause? = some c ↔ f = c.toFault := by
  constructor
  · intro h
    cases f with
    | cause id wrapped =>
        obtain rfl := Option.some.inj h
        rfl
    | _ => exact nomatch h
  · rintro rfl
    rfl

theorem mem_chain {f s : Fault} : s ∈ f.chain ↔ TransGen Behind f s := by
  induction f using chain.induct with
  | case1 f hlast =>
      rw [chain_of_none hlast]
      constructor
      · exact fun hmem => absurd hmem List.not_mem_nil
      · intro hpath
        obtain ⟨next, hnext, -⟩ := TransGen.head'_iff.mp hpath
        exact absurd (hlast.symm.trans hnext) nofun
  | case2 f next hnext _ ih =>
      have hfirst (s' : Fault) : Behind f s' ↔ s' = next := by
        rw [Behind, hnext, Option.some.injEq, eq_comm]
      have hpath : TransGen Behind f s ↔ ReflTransGen Behind next s := by
        simp only [TransGen.head'_iff (a := f), hfirst, exists_eq_left]
      rw [chain_of_some hnext, List.mem_cons, ih, hpath, reflTransGen_iff_eq_or_transGen]

end Fault

namespace Cause

/-- The chain of the fault that a cause wraps begins with that fault. -/
def Origin (c d : Cause) : Prop := ReflTransGen Fault.Behind c.wrapped d.toFault

theorem mem_origins {c d : Cause} : d ∈ c.origins ↔ c.Origin d := by
  rw [Origin, origins, List.mem_filterMap, reflTransGen_iff_eq_or_transGen]
  simp only [Fault.toCause?_eq_some, exists_eq_right, List.mem_cons, Fault.mem_chain]

/-- From a cause the chain goes on to the same causes as from the fault it wraps. -/
theorem Origin.transGen {c d : Cause} (h : c.Origin d) :
    TransGen Fault.Behind c.toFault d.toFault := by
  by_cases hwrapped : c.wrapped.toCause?.isSome
  · have hbehind : Fault.Behind c.toFault c.wrapped := by
      simp only [Fault.Behind, toFault, Fault.behind?, if_pos hwrapped]
    exact TransGen.head' hbehind h
  · obtain heq | ⟨next, hnext, hrest⟩ := h.cases_head
    · rw [heq, toCause?_toFault] at hwrapped
      exact absurd rfl hwrapped
    · have hbehind : Fault.Behind c.toFault next := by
        simp only [Fault.Behind, toFault, Fault.behind?, if_neg hwrapped]
        exact hnext
      exact TransGen.head' hbehind hrest

theorem Origin.trans {c d e : Cause} (hcd : c.Origin d) (hde : d.Origin e) : c.Origin e :=
  ReflTransGen.trans hcd hde.transGen.to_reflTransGen

end Cause

namespace Register

variable {r : Register} {a b c d target : Cause} {unvisited pending : List Cause}

def Edge (r : Register) (c d : Cause) : Prop := c.Origin d ∨ d ∈ r.suppressed c

theorem mem_neighbours : d ∈ r.neighbours c ↔ r.Edge c d := by
  rw [neighbours, List.mem_append, Cause.mem_origins, Edge]

theorem exists_path_of_search (h : r.search target unvisited pending = true) :
    ∃ c ∈ pending, ReflTransGen r.Edge c target := by
  fun_induction search r target unvisited pending with
  | case1 => nomatch h
  | case2 => exact ⟨_, List.mem_cons_self, .refl⟩
  | case3 unvisited c rest hne hc ih =>
      obtain ⟨d, hd, hpath⟩ := ih h
      rcases List.mem_append.mp hd with hd | hd
      · exact ⟨c, List.mem_cons_self, hpath.head (mem_neighbours.mp hd)⟩
      · exact ⟨d, List.mem_cons_of_mem c hd, hpath⟩
  | case4 unvisited c rest hne hc ih =>
      obtain ⟨d, hd, hpath⟩ := ih h
      exact ⟨d, List.mem_cons_of_mem c hd, hpath⟩

/-- A path leads to the target on which every cause before it is still unvisited. -/
inductive Clear (r : Register) (target : Cause) (unvisited : List Cause) : Cause → Prop
  | here : Clear r target unvisited target
  | step {first next : Cause} (hfirst : first ∈ unvisited) (hedge : r.Edge first next)
      (hnext : Clear r target unvisited next) : Clear r target unvisited first

/-- Once a cause is visited, a clear path either avoids it or can be picked up right behind it. -/
theorem Clear.strike (h : Clear r target unvisited d) (c : Cause) :
    Clear r target (strike unvisited c) d ∨
      ∃ next, r.Edge c next ∧ Clear r target (Register.strike unvisited c) next := by
  induction h with
  | here => exact .inl .here
  | @step d next hd hedge _ ih =>
      rcases ih with hclear | hbehind
      · by_cases hdc : d = c
        · exact .inr ⟨next, hdc ▸ hedge, hclear⟩
        · exact .inl (.step (List.mem_filter.mpr ⟨hd, by simpa using hdc⟩) hedge hclear)
      · exact .inr hbehind

theorem search_of_clear (hd : d ∈ pending) (h : Clear r target unvisited d) :
    r.search target unvisited pending = true := by
  fun_induction search r target unvisited pending generalizing d with
  | case1 => exact absurd hd List.not_mem_nil
  | case2 => rfl
  | case3 unvisited c rest hne hc ih =>
      -- The cause in front is expanded; the path avoids it or goes on at one of its neighbours.
      have hexpand {next : Cause} (hedge : r.Edge c next)
          (hnext : Clear r target (Register.strike unvisited c) next) :
          r.search target (Register.strike unvisited c) (r.neighbours c ++ rest) = true :=
        ih (List.mem_append_left rest (mem_neighbours.mpr hedge)) hnext
      rcases List.mem_cons.mp hd with rfl | hd
      · cases h with
        | here => exact absurd rfl hne
        | step _ hedge hnext =>
            rcases hnext.strike d with hclear | ⟨next, hedge', hclear⟩
            · exact hexpand hedge hclear
            · exact hexpand hedge' hclear
      · rcases h.strike c with hclear | ⟨next, hedge, hclear⟩
        · exact ih (List.mem_append_right _ hd) hclear
        · exact hexpand hedge hclear
  | case4 unvisited c rest hne hc ih =>
      rcases List.mem_cons.mp hd with rfl | hd
      · cases h with
        | here => exact absurd rfl hne
        | step hmem _ _ => exact absurd hmem hc
      · exact ih hd h

theorem mem_scope : c ∈ r.scope a ↔
    ∃ root, (root = a ∨ ∃ e ∈ r.entries, root = e.1 ∨ root ∈ e.2) ∧ (c = root ∨ root.Origin c) := by
  simp only [scope, List.mem_flatMap, List.mem_cons, Cause.mem_origins]

theorem mem_scope_self (r : Register) (a : Cause) : a ∈ r.scope a :=
  mem_scope.mpr ⟨a, .inl rfl, .inl rfl⟩

theorem exists_entry_of_mem_suppressed (h : d ∈ r.suppressed c) : ∃ e ∈ r.entries, d ∈ e.2 := by
  cases hlookup : r.entries.lookup c with
  | none =>
      rw [suppressed, hlookup] at h
      exact absurd h List.not_mem_nil
  | some late =>
      rw [suppressed, hlookup] at h
      obtain ⟨before, after, hentries, -⟩ := List.lookup_eq_some_iff.mp hlookup
      exact ⟨(c, late), by simp [hentries], h⟩

/-- No edge leads out of the scope. -/
theorem mem_scope_of_edge (hc : c ∈ r.scope a) (hedge : r.Edge c d) : d ∈ r.scope a := by
  rcases hedge with horigin | hsuppressed
  · obtain ⟨root, hroot, hreach⟩ := mem_scope.mp hc
    refine mem_scope.mpr ⟨root, hroot, .inr ?_⟩
    rcases hreach with rfl | hreach
    · exact horigin
    · exact hreach.trans horigin
  · obtain ⟨e, he, hd⟩ := exists_entry_of_mem_suppressed hsuppressed
    exact mem_scope.mpr ⟨d, .inr ⟨e, he, .inr hd⟩, .inl rfl⟩

theorem clear_scope (hpath : ReflTransGen r.Edge c target) (hc : c ∈ r.scope a) :
    Clear r target (r.scope a) c := by
  induction hpath using ReflTransGen.head_induction_on with
  | refl => exact .here
  | head hedge _ ih => exact .step hc hedge (ih (mem_scope_of_edge hc hedge))

theorem leadsTo_iff : r.leadsTo a b = true ↔ ReflTransGen r.Edge a b := by
  constructor
  · intro h
    obtain ⟨c, hc, hpath⟩ := exists_path_of_search h
    rwa [List.mem_singleton.mp hc] at hpath
  · intro hpath
    exact search_of_clear List.mem_cons_self (clear_scope hpath (mem_scope_self r a))

/-- In any register, whatever its causes wrap and have suppressed, two causes are associated if and
only if they are the same or a path of at least one edge leads from one to the other. -/
theorem associated_iff_path (r : Register) (a b : Cause) :
    r.associated a b = true ↔ a = b ∨ TransGen r.Edge a b ∨ TransGen r.Edge b a := by
  rw [associated, Bool.or_eq_true, leadsTo_iff, leadsTo_iff, reflTransGen_iff_eq_or_transGen,
    reflTransGen_iff_eq_or_transGen]
  constructor
  · rintro ((rfl | hab) | (rfl | hba))
    · exact .inl rfl
    · exact .inr (.inl hab)
    · exact .inl rfl
    · exact .inr (.inr hba)
  · rintro (rfl | hab | hba)
    · exact .inl (.inl rfl)
    · exact .inl (.inr hab)
    · exact .inr (.inr hba)

end Register

end OneShot
