import OneShot.Failure.Fault

/-!
# The register of causes

Each cause keeps the later causes it suppressed, in order of arrival.
Two causes are associated if one reaches the other through sources and
suppressed causes; an associated cause is never recorded again, so the
lists stay free of repeats and of cycles.
-/

namespace OneShot

/-- The causes created so far, in order, with what each has suppressed. -/
structure Register where
  entries : List (Cause × List Cause) := []
  deriving DecidableEq, Inhabited

namespace Register

def causes (r : Register) : List Cause := r.entries.map Prod.fst

def create (r : Register) (wrapped : Fault) : Cause × Register :=
  let c : Cause := ⟨r.entries.length, wrapped⟩
  (c, ⟨r.entries ++ [(c, [])]⟩)

def suppressed (r : Register) (c : Cause) : List Cause :=
  (r.entries.lookup c).getD []

def neighbours (r : Register) (c : Cause) : List Cause :=
  c.origins ++ r.suppressed c

/-- The list with every occurrence of `c` struck out. -/
def strike (cs : List Cause) (c : Cause) : List Cause := cs.filter (· ≠ c)

theorem length_strike_lt {cs : List Cause} {c : Cause} (h : c ∈ cs) :
    (strike cs c).length < cs.length :=
  List.length_filter_lt_length_iff_exists.mpr ⟨c, h, by simp⟩

/-- Looks for `target` along neighbours, depth first. A cause is expanded
only while it is still among the `unvisited`. -/
def search (r : Register) (target : Cause) (unvisited pending : List Cause) : Bool :=
  match pending with
  | [] => false
  | c :: rest =>
      if c = target then true
      else if c ∈ unvisited then
        search r target (strike unvisited c) (r.neighbours c ++ rest)
      else search r target unvisited rest
termination_by (unvisited.length, pending.length)
decreasing_by
  · apply Prod.Lex.left
    exact length_strike_lt ‹_›
  · apply Prod.Lex.right
    simp

theorem search_nil (r : Register) (target : Cause) (unvisited : List Cause) :
    r.search target unvisited [] = false := by
  rw [search]

@[simp] theorem search_self (r : Register) (target : Cause) (unvisited rest : List Cause) :
    r.search target unvisited (target :: rest) = true := by
  rw [search, if_pos rfl]

theorem search_of_mem {r : Register} {target c : Cause} {unvisited rest : List Cause}
    (hne : c ≠ target) (hc : c ∈ unvisited) :
    r.search target unvisited (c :: rest) =
      r.search target (strike unvisited c) (r.neighbours c ++ rest) := by
  rw [search, if_neg hne, if_pos hc]

theorem search_of_notMem {r : Register} {target c : Cause} {unvisited rest : List Cause}
    (hne : c ≠ target) (hc : c ∉ unvisited) :
    r.search target unvisited (c :: rest) = r.search target unvisited rest := by
  rw [search, if_neg hne, if_neg hc]

/-- Every cause that a walk from `a` can meet. -/
def scope (r : Register) (a : Cause) : List Cause :=
  (a :: r.entries.flatMap fun e => e.1 :: e.2).flatMap fun c => c :: c.origins

def leadsTo (r : Register) (a b : Cause) : Bool :=
  r.search b (r.scope a) [a]

def associated (r : Register) (a b : Cause) : Bool :=
  r.leadsTo a b || r.leadsTo b a

/-- Puts `late` at the end of the list of `keeper`. -/
def record (r : Register) (keeper late : Cause) : Register :=
  ⟨r.entries.map fun e => if e.1 = keeper then (e.1, e.2 ++ [late]) else e⟩

/-- Records `late` as suppressed by `keeper`, unless the two are
associated already. -/
def suppress (r : Register) (keeper late : Cause) : Register :=
  if r.associated keeper late then r else r.record keeper late

theorem associated_comm (r : Register) (a b : Cause) : r.associated a b = r.associated b a :=
  Bool.or_comm _ _

@[simp] theorem associated_self (r : Register) (a : Cause) : r.associated a a = true := by
  simp [associated, leadsTo]

theorem suppress_of_associated {r : Register} {keeper late : Cause}
    (h : r.associated keeper late = true) : r.suppress keeper late = r := by
  simp [suppress, h]

theorem suppress_of_not_associated {r : Register} {keeper late : Cause}
    (h : r.associated keeper late = false) :
    r.suppress keeper late = r.record keeper late := by
  simp [suppress, h]

@[simp] theorem causes_create (r : Register) (wrapped : Fault) :
    (r.create wrapped).2.causes = r.causes ++ [(r.create wrapped).1] := by
  simp [create, causes]

@[simp] theorem causes_record (r : Register) (keeper late : Cause) :
    (r.record keeper late).causes = r.causes := by
  simp only [record, causes, List.map_map]
  apply List.map_congr_left
  intro e _
  by_cases h : e.1 = keeper <;> simp [h]

@[simp] theorem causes_suppress (r : Register) (keeper late : Cause) :
    (r.suppress keeper late).causes = r.causes := by
  cases h : r.associated keeper late with
  | true => rw [suppress_of_associated h]
  | false => rw [suppress_of_not_associated h, causes_record]

end Register

end OneShot
