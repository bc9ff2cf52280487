import OneShot.Proofs.Failure.Effects

/-!
# The order of late causes

An object keeps the first ending that it is given. If that is a failure, its
cause lists the plain causes that are delivered later, in the order in which they
arrive, and each of them once, however often it arrives. No repeat needs to be
looked for in the list: the causes that are associated with the one kept are
that one itself and those it lists already.
-/

namespace OneShot

open Relation Course

@[simp] theorem Cause.origins_message (id : Nat) (text : String) :
    (⟨id, .message text⟩ : Cause).origins = [] := by
  rw [origins, Fault.chain_of_none rfl]
  rfl

namespace Register

variable {r r' : Register} {ds late : List Cause} {keeper c d : Cause}

/-- The causes have been created, wrap no other cause and have suppressed none yet. -/
structure Fresh (r : Register) (ds : List Cause) : Prop where
  created : ∀ d ∈ ds, d ∈ r.causes
  plain : ∀ d ∈ ds, d.origins = []
  empty : ∀ d ∈ ds, r.suppressed d = []

/-- Of the causes, which are plain, `keeper` alone has suppressed others, and those are `late`. -/
structure Lists (r : Register) (ds : List Cause) (keeper : Cause) (late : List Cause) : Prop where
  keeper_mem : keeper ∈ ds
  late_subset : late ⊆ ds
  plain : ∀ d ∈ ds, d.origins = []
  created : keeper ∈ r.causes
  listed : r.suppressed keeper = (strike late keeper).eraseDups
  others : ∀ d ∈ ds, d ≠ keeper → r.suppressed d = []

theorem Fresh.lists (h : r.Fresh ds) (hkeeper : keeper ∈ ds) : r.Lists ds keeper [] where
  keeper_mem := hkeeper
  late_subset := List.nil_subset ds
  plain := h.plain
  created := h.created keeper hkeeper
  listed := h.empty keeper hkeeper
  others := fun d hd _ => h.empty d hd

theorem Fresh.spared (h : r.Fresh ds) (hcauses : r.causes ⊆ r'.causes)
    (hsuppressed : ∀ d ∈ ds, r'.suppressed d = r.suppressed d) : r'.Fresh ds where
  created := fun d hd => hcauses (h.created d hd)
  plain := h.plain
  empty := fun d hd => (hsuppressed d hd).trans (h.empty d hd)

theorem mem_strike {cs : List Cause} : d ∈ strike cs c ↔ d ∈ cs ∧ d ≠ c := by
  simp [strike]

theorem eraseDups_strike_concat (late : List Cause) (keeper d : Cause) :
    (strike (late ++ [d]) keeper).eraseDups =
      (strike late keeper).eraseDups ++ if d = keeper ∨ d ∈ late then [] else [d] := by
  have hconcat : strike (late ++ [d]) keeper = strike late keeper ++ strike [d] keeper :=
    List.filter_append late [d]
  rw [hconcat, List.eraseDups_append]
  congr 1
  by_cases hkeeper : d = keeper
  · simp [strike, hkeeper]
  · by_cases hlate : d ∈ late <;> simp [strike, List.removeAll, List.eraseDups_cons, hkeeper, hlate]

namespace Lists

theorem edge_iff (h : r.Lists ds keeper late) (hc : c ∈ ds) :
    r.Edge c d ↔ c = keeper ∧ d ∈ late ∧ d ≠ keeper := by
  rw [← mem_neighbours, neighbours, h.plain c hc, List.nil_append]
  by_cases hkeeper : c = keeper
  · rw [hkeeper, h.listed, List.mem_eraseDups, mem_strike]
    simp
  · rw [h.others c hc hkeeper]
    simp [hkeeper]

/-- What is listed is associated with the keeper, and so is the keeper itself, and nothing else. -/
theorem associated_iff (h : r.Lists ds keeper late) (hd : d ∈ ds) :
    r.associated keeper d = true ↔ d = keeper ∨ d ∈ late := by
  rw [Register.associated_iff]
  constructor
  · rintro (hpath | hpath)
    · rcases hpath.cases_head with rfl | ⟨first, hedge, hrest⟩
      · exact .inl rfl
      · obtain ⟨-, hlate, hne⟩ := (h.edge_iff h.keeper_mem).mp hedge
        rcases hrest.cases_head with rfl | ⟨second, hedge', -⟩
        · exact .inr hlate
        · exact absurd ((h.edge_iff (h.late_subset hlate)).mp hedge').1 hne
    · rcases hpath.cases_head with rfl | ⟨first, hedge, -⟩
      · exact .inl rfl
      · exact .inl ((h.edge_iff hd).mp hedge).1
  · intro hlisted
    by_cases hkeeper : d = keeper
    · rw [hkeeper]
      exact .inl .refl
    · have hlate : d ∈ late := hlisted.resolve_left hkeeper
      exact .inl (.single ((h.edge_iff h.keeper_mem).mpr ⟨rfl, hlate, hkeeper⟩))

theorem suppress (h : r.Lists ds keeper late) (hd : d ∈ ds) :
    (r.suppress keeper d).Lists ds keeper (late ++ [d]) where
  keeper_mem := h.keeper_mem
  late_subset := List.append_subset.mpr ⟨h.late_subset, by simpa using hd⟩
  plain := h.plain
  created := by
    rw [causes_suppress]
    exact h.created
  listed := by
    rw [suppressed_suppress h.created, h.listed, eraseDups_strike_concat]
    congr 1
    by_cases hold : d = keeper ∨ d ∈ late
    · simp [hold, (h.associated_iff hd).mpr hold]
    · have hnew : r.associated keeper d = false :=
        Bool.eq_false_iff.mpr fun hassociated => hold ((h.associated_iff hd).mp hassociated)
      simp [hold, hnew]
  others := by
    intro e he hne
    rw [suppressed_suppress h.created, h.others e he hne]
    simp [hne]

theorem spared (h : r.Lists ds keeper late) (hcauses : r.causes ⊆ r'.causes)
    (hsuppressed : ∀ d ∈ ds, r'.suppressed d = r.suppressed d) :
    r'.Lists ds keeper late where
  keeper_mem := h.keeper_mem
  late_subset := h.late_subset
  plain := h.plain
  created := hcauses h.created
  listed := (hsuppressed keeper h.keeper_mem).trans h.listed
  others := fun d hd hne => (hsuppressed d hd).trans (h.others d hd hne)

end Lists

end Register

/-! ## One delivery after the other -/

namespace Store

variable {o : Object} {ds : List Cause} {deliveries : List (Delivery o)} {x : Delivery o}
  {s s' : Store} {c : Cause}

/-- After the deliveries the object keeps the ending that came first, and if that was a failure, its
cause lists the causes that came behind. -/
structure Keeps (s : Store) (o : Object) (ds : List Cause) (deliveries : List (Delivery o)) :
    Prop where
  stands : s.Stands o
  ending : s.ending? o = deliveries.findSome? Delivery.ending?
  fresh : s.held? o = none → s.register.Fresh ds
  lists : ∀ c, s.held? o = some c → ∃ before storing after,
    deliveries = before ++ storing :: after ∧ (∀ x ∈ before, x.ending? = none) ∧
      storing.cause? = some c ∧ s.register.Lists ds c (after.filterMap Delivery.cause?)

theorem Keeps.spared (h : s.Keeps o ds deliveries) (hspared : s.Spared o ds s') :
    s'.Keeps o ds deliveries := by
  have hheld : s'.held? o = s.held? o := by
    rw [held?_eq, held?_eq, hspared.ending]
  refine ⟨hspared.stands h.stands, hspared.ending.trans h.ending, ?_, ?_⟩
  · rw [hheld]
    exact fun hnone => (h.fresh hnone).spared hspared.causes hspared.suppressed
  · rw [hheld]
    intro c hc
    obtain ⟨before, storing, after, hsplit, hbefore, hstoring, hlists⟩ := h.lists c hc
    exact ⟨before, storing, after, hsplit, hbefore, hstoring,
      hlists.spared hspared.causes hspared.suppressed⟩

theorem ending?_of_held? (h : s.held? o = some c) : s.ending? o = some (.failure c) := by
  rw [held?_eq] at h
  obtain ⟨ending, hending, hcause⟩ := Option.bind_eq_some_iff.mp h
  cases ending with
  | success => nomatch hcause
  | failure d => rw [hending, Option.some.inj hcause]

theorem Keeps.effect (h : s.Keeps o ds deliveries) (hx : ∀ d, x.cause? = some d → d ∈ ds)
    (heffect : x.Effect s s') : s'.Keeps o ds (deliveries ++ [x]) := by
  have hending : s'.ending? o = (deliveries ++ [x]).findSome? Delivery.ending? := by
    rw [heffect.ending, h.ending, List.findSome?_append]
    simp
  have hregister := heffect.register
  cases hheld : s.held? o with
  | some keeper =>
      have hheld' : s'.held? o = some keeper := by
        rw [held?_eq, heffect.ending, ending?_of_held? hheld]
        rfl
      obtain ⟨before, storing, after, rfl, hbefore, hstoring, hlists⟩ := h.lists keeper hheld
      rw [hheld] at hregister
      refine ⟨heffect.stands, hending, by simp [hheld'], ?_⟩
      intro c hc
      obtain rfl : keeper = c := Option.some.inj (hheld'.symm.trans hc)
      refine ⟨before, storing, after ++ [x], by simp, hbefore, hstoring, ?_⟩
      cases hcause : x.cause? with
      | none =>
          rw [hcause] at hregister
          simpa [hregister, hcause, Register.suppressLate] using hlists
      | some late =>
          rw [hcause] at hregister
          simpa [hregister, hcause, Register.suppressLate] using
            hlists.suppress (hx late hcause)
  | none =>
      have hfresh : s'.register.Fresh ds := by
        rw [hregister, hheld]
        exact h.fresh hheld
      refine ⟨heffect.stands, hending, fun _ => hfresh, ?_⟩
      intro c hc
      -- Nothing was kept before, or what was kept then would be kept now.
      have hnone : s.ending? o = none := by
        cases hkept : s.ending? o with
        | none => rfl
        | some ending =>
            rw [held?_eq, hkept] at hheld
            rw [held?_eq, heffect.ending, hkept] at hc
            nomatch hheld.symm.trans hc
      have hcause : x.cause? = some c := by
        rw [← Delivery.ending?_eq_some_failure, ← ending?_of_held? hc, heffect.ending, hnone,
          Option.none_or]
      refine ⟨deliveries, x, [], rfl, ?_, hcause, hfresh.lists (hx c hcause)⟩
      rw [← List.findSome?_eq_none_iff, ← h.ending]
      exact hnone

variable {μ : Type} {answer : Surroundings μ}

theorem Keeps.run (hanswer : answer.LeavesAlone ds o) (h : s.Keeps o ds deliveries)
    (memory : μ) (more : List (Delivery o))
    (hmore : ∀ x ∈ more, ∀ d, x.cause? = some d → d ∈ ds) :
    ∃ outcomes memory' s', (Delivery.deliverAll more).run answer memory s =
        (.returned outcomes, memory', s') ∧
      s'.Keeps o ds (deliveries ++ more) := by
  induction more generalizing deliveries memory s with
  | nil => exact ⟨[], memory, s, rfl, by simpa using h⟩
  | cons x more ih =>
      obtain ⟨hx, hmore⟩ := List.forall_mem_cons.mp hmore
      obtain ⟨s₁, rest, heffect, hrest, hcourse⟩ := x.takesEffect h.stands
      have hkept := (h.effect hx heffect).spared (hrest.spared_run hanswer memory heffect.stands)
      rw [← hcourse] at hkept
      obtain ⟨outcomes, memory', s', hrun, hkeeps⟩ := ih hkept _ hmore
      refine ⟨_, memory', s', run_mapM_attempt_cons rfl hrun, ?_⟩
      simpa using hkeeps

/-- Plain causes that are delivered to an object which keeps a failure already are listed by the
cause of that failure, in the order of their arrival, and each of them once. No other lists grow. -/
theorem late_causes_listed_in_order (hanswer : answer.LeavesAlone ds o) (memory : μ)
    (hstands : s.Stands o) (hopen : s.ending? o = none) (hfresh : s.register.Fresh ds)
    (deliveries : List (Delivery o))
    (hdeliveries : ∀ x ∈ deliveries, ∀ d, x.cause? = some d → d ∈ ds) :
    ∃ outcomes memory' s', (Delivery.deliverAll deliveries).run answer memory s =
        (.returned outcomes, memory', s') ∧
      s'.ending? o = deliveries.findSome? Delivery.ending? ∧
      (∀ c, s'.held? o = some c →
        (∃ before storing after, deliveries = before ++ storing :: after ∧
          (∀ x ∈ before, x.ending? = none) ∧ storing.cause? = some c ∧
          s'.register.suppressed c =
            ((after.filterMap Delivery.cause?).filter (· ≠ c)).eraseDups) ∧
        ∀ d ∈ ds, d ≠ c → s'.register.suppressed d = []) ∧
      (s'.HasSucceeded o → ∀ d ∈ ds, s'.register.suppressed d = []) := by
  have hnone : s.held? o = none := by
    rw [held?_eq, hopen]
    rfl
  have hkeeps : s.Keeps o ds [] :=
    ⟨hstands, hopen, fun _ => hfresh, fun c hc => nomatch hnone.symm.trans hc⟩
  obtain ⟨outcomes, memory', s', hrun, h⟩ := hkeeps.run hanswer memory deliveries hdeliveries
  refine ⟨outcomes, memory', s', hrun, h.ending, ?_, ?_⟩
  · intro c hc
    obtain ⟨before, storing, after, hsplit, hbefore, hstoring, hlists⟩ := h.lists c hc
    exact ⟨⟨before, storing, after, hsplit, hbefore, hstoring, hlists.listed⟩, hlists.others⟩
  · intro hsucceeded
    exact (h.fresh (held?_eq_none_of_hasSucceeded hsucceeded)).empty

def timedOut : Cause := ⟨0, .message "timed out"⟩
def badFrame : Cause := ⟨1, .message "bad frame"⟩
def peerGone : Cause := ⟨2, .message "peer gone"⟩

def threeCauses : List Cause := [timedOut, badFrame, peerGone]

/-- The causes have been created, and a latch with silent hooks. -/
def withLatch : Store := { register := ⟨threeCauses.map (·, [])⟩, latches := [{}] }

/-- The first cause comes once more, and so does one of the late ones. -/
def repeating : List (Delivery (.latch 0)) :=
  [.signal (.abort timedOut), .signal (.finish (.failure peerGone)),
    .signal (.finish (.failure badFrame)), .signal (.abort timedOut), .signal (.finish .success),
    .signal (.abort peerGone)]

theorem late_causes_listed_repeating :
    Gate.quiet.LeavesAlone threeCauses (.latch 0) ∧ withLatch.Stands (.latch 0) ∧
      withLatch.ending? (.latch 0) = none ∧ withLatch.register.Fresh threeCauses ∧
      (∀ x ∈ repeating, ∀ d, x.cause? = some d → d ∈ threeCauses) ∧
      ∃ outcomes memory' s', (Delivery.deliverAll repeating).run Gate.quiet () withLatch =
          (.returned outcomes, memory', s') ∧
        s'.ending? (.latch 0) = some (.failure timedOut) ∧
        s'.register.suppressed timedOut = [peerGone, badFrame] ∧
        s'.register.suppressed peerGone = [] := by
  have hquiet : Gate.quiet.LeavesAlone threeCauses (.latch 0) := fun _ _ _ _ _ => rfl
  have hstands : withLatch.Stands (.latch 0) := rfl
  have hopen : withLatch.ending? (.latch 0) = none := rfl
  have hfresh : withLatch.register.Fresh threeCauses := by
    refine ⟨by decide, ?_, by decide⟩
    simp [threeCauses, timedOut, badFrame, peerGone]
  have hrepeating : ∀ x ∈ repeating, ∀ d, x.cause? = some d → d ∈ threeCauses := by
    simp [repeating, Delivery.cause?, Signal.cause?, Ending.cause?, threeCauses]
  obtain ⟨outcomes, memory', s', hrun, hending, hheld, -⟩ :=
    late_causes_listed_in_order hquiet () hstands hopen hfresh repeating hrepeating
  have htimedOut : s'.held? (.latch 0) = some timedOut := by
    rw [held?_eq, hending]
    rfl
  obtain ⟨⟨before, storing, after, hsplit, hbefore, -, hlisted⟩, hothers⟩ :=
    hheld timedOut htimedOut
  have hafter : after = repeating.tail := by
    cases before with
    | nil => exact (congrArg List.tail hsplit).symm
    | cons first before =>
        obtain ⟨rfl, -⟩ := List.cons.inj hsplit
        exact absurd (hbefore _ List.mem_cons_self) (by decide)
  rw [hafter] at hlisted
  exact ⟨hquiet, hstands, hopen, hfresh, hrepeating, outcomes, memory', s', hrun, hending, hlisted,
    hothers peerGone (by decide) (by decide)⟩

end Store

end OneShot
