import OneShot.Completion.Delivery

/-!
# Compound sinks

However sinks are put together, a signal is worked off from left to right, as
if the tree were the flat list of its items. An ending runs the closures on its
way. An abort goes to the leaves alone, and to every one of them.
-/

namespace OneShot

open Course

/-- What a sink does for each signal. -/
@[ext] structure Behaviour where
  finish : Ending → Course Unit
  abort : Cause → Course Bool

def Sink.behaviour (sink : Sink) : Behaviour where
  finish ending := sink.finish ending
  abort cause := sink.abort cause

namespace Behaviour

def ignore : Behaviour where
  finish _ := pure ()
  abort _ := pure false

def wrapped (inner : Behaviour) : Behaviour where
  finish ending := inner.finish ending
  abort cause := inner.abort cause

def both (first second : Behaviour) : Behaviour where
  finish ending := do
    first.finish ending
    second.finish ending
  abort cause := do
    let one ← first.abort cause
    let other ← second.abort cause
    pure (one || other)

def before (closure : Closure) (inner : Behaviour) : Behaviour where
  finish ending := do
    call (.closure ⟨closure, .nothing⟩)
    inner.finish ending
  abort cause := inner.abort cause

def after (inner : Behaviour) (closure : Closure) : Behaviour where
  finish ending := do
    inner.finish ending
    call (.closure ⟨closure, .nothing⟩)
  abort cause := inner.abort cause

def deliver (b : Behaviour) : Signal → Course Bool
  | .finish ending => do
      b.finish ending
      pure false
  | .abort cause => b.abort cause

/-- One signal after the other, even if some of them panic. -/
def deliverAll (b : Behaviour) (signals : List Signal) : Course (List (Outcome Bool)) :=
  signals.mapM fun signal => attempt (b.deliver signal)

end Behaviour

@[simp] theorem Sink.deliver_behaviour (sink : Sink) (signal : Signal) :
    sink.behaviour.deliver signal = sink.deliver signal := by
  cases signal <;> rfl

/-! ## Trees -/

/-- A tree of sinks; the same leaf may stand in many places. -/
inductive Compound (ι : Type)
  | leaf (i : ι)
  | ignore
  | wrapped (inner : Compound ι)
  | both (first second : Compound ι)
  | before (closure : Closure) (inner : Compound ι)
  | after (inner : Compound ι) (closure : Closure)

/-- What an ending comes by on its way through a tree. -/
inductive Item (ι : Type)
  | leaf (i : ι)
  | run (closure : Closure)

namespace Item

variable {ι : Type}

def leaf? : Item ι → Option ι
  | leaf i => some i
  | run _ => none

def perform (behaviour : ι → Behaviour) (ending : Ending) : Item ι → Course Unit
  | leaf i => (behaviour i).finish ending
  | run closure => call (.closure ⟨closure, .nothing⟩)

end Item

namespace Compound

variable {ι : Type}

def sink : Compound Sink → Sink
  | leaf sink => sink
  | ignore => .ignore
  | wrapped inner => .wrapped inner.sink
  | both first second => .both first.sink second.sink
  | before closure inner => .before closure inner.sink
  | after inner closure => .after inner.sink closure

def behaviour (leafBehaviour : ι → Behaviour) : Compound ι → Behaviour
  | leaf i => leafBehaviour i
  | ignore => .ignore
  | wrapped inner => (inner.behaviour leafBehaviour).wrapped
  | both first second =>
      (first.behaviour leafBehaviour).both (second.behaviour leafBehaviour)
  | before closure inner => (inner.behaviour leafBehaviour).before closure
  | after inner closure => (inner.behaviour leafBehaviour).after closure

def items : Compound ι → List (Item ι)
  | leaf i => [.leaf i]
  | ignore => []
  | wrapped inner => inner.items
  | both first second => first.items ++ second.items
  | before closure inner => .run closure :: inner.items
  | after inner closure => inner.items ++ [.run closure]

def leaves (t : Compound ι) : List ι := t.items.filterMap Item.leaf?

/-- The tree with nothing wrapped any more. -/
def bare : Compound ι → Compound ι
  | leaf i => leaf i
  | ignore => ignore
  | wrapped inner => inner.bare
  | both first second => both first.bare second.bare
  | before closure inner => before closure inner.bare
  | after inner closure => after inner.bare closure

@[simp] theorem items_bare (t : Compound ι) : t.bare.items = t.items := by
  induction t with
  | leaf i => rfl
  | ignore => rfl
  | wrapped inner ih => exact ih
  | both first second ih ih' => rw [bare, items, ih, ih', items]
  | before closure inner ih => rw [bare, items, ih, items]
  | after inner closure ih => rw [bare, items, ih, items]

/-- Sinks are put together as behaviours are. -/
theorem behaviour_sink (t : Compound Sink) : t.sink.behaviour = t.behaviour Sink.behaviour := by
  induction t with
  | leaf sink => rfl
  | ignore => rfl
  | wrapped inner ih =>
      rw [behaviour, ← ih]
      rfl
  | both first second ih ih' =>
      rw [behaviour, ← ih, ← ih']
      rfl
  | before closure inner ih =>
      rw [behaviour, ← ih]
      rfl
  | after inner closure ih =>
      rw [behaviour, ← ih]
      rfl

variable (leafBehaviour : ι → Behaviour) (t : Compound ι)

theorem finish_eq_forM (ending : Ending) : (t.behaviour leafBehaviour).finish ending =
    forM t.items (Item.perform leafBehaviour ending) := by
  induction t with
  | leaf i => simp [items, behaviour, Item.perform]
  | ignore => rfl
  | wrapped inner ih => exact ih
  | both first second ih ih' => simp [items, behaviour, Behaviour.both, ih, ih']
  | before closure inner ih => simp [items, behaviour, Behaviour.before, Item.perform, ih]
  | after inner closure ih => simp [items, behaviour, Behaviour.after, Item.perform, ih]

theorem abort_eq_mapM (cause : Cause) : (t.behaviour leafBehaviour).abort cause = (do
    return (← t.leaves.mapM fun i => (leafBehaviour i).abort cause).any id) := by
  induction t with
  | leaf i => simp [leaves, items, Item.leaf?, behaviour]
  | ignore => rfl
  | wrapped inner ih => exact ih
  | both first second ih ih' =>
      have hleaves : (both first second).leaves = first.leaves ++ second.leaves :=
        List.filterMap_append
      simp [hleaves, behaviour, Behaviour.both, ih, ih']
  | before closure inner ih => exact ih
  | after inner closure ih =>
      have hleaves : (after inner closure).leaves = inner.leaves := by
        simp only [leaves, items, List.filterMap_append]
        exact List.append_nil _
      rw [hleaves]
      exact ih

/-- So nothing else about a tree counts. -/
theorem behaviour_congr {t u : Compound ι} (h : t.items = u.items) :
    t.behaviour leafBehaviour = u.behaviour leafBehaviour := by
  ext1
  · funext ending
    rw [finish_eq_forM, finish_eq_forM, h]
  · funext cause
    rw [abort_eq_mapM, abort_eq_mapM, leaves, leaves, h]

end Compound

/-! ## Panics -/

namespace Course

variable {α β γ μ : Type} {answer : Surroundings μ} {text : String} {memory' : μ} {s' : Store}

/-- One after the other the items come back, up to one that panics. The panic leaves things as they
are then; whatever items come later, they are not performed. -/
inductive PanicsAt (answer : Surroundings μ) (perform : α → Course β) (text : String) (memory' : μ)
    (s' : Store) : List α → μ → Store → Prop
  | here {item later memory s}
      (h : (perform item).run answer memory s = (.panicked text, memory', s')) :
      PanicsAt answer perform text memory' s' (item :: later) memory s
  | later {item items memory s value memory₁ s₁}
      (h : (perform item).run answer memory s = (.returned value, memory₁, s₁))
      (hlater : PanicsAt answer perform text memory' s' items memory₁ s₁) :
      PanicsAt answer perform text memory' s' (item :: items) memory s

theorem run_bind_eq_panicked_iff {course : Course α} {f : α → Course γ} {memory : μ} {s : Store} :
    (course >>= f).run answer memory s = (.panicked text, memory', s') ↔
      course.run answer memory s = (.panicked text, memory', s') ∨
        ∃ value memory₁ s₁, course.run answer memory s = (.returned value, memory₁, s₁) ∧
          (f value).run answer memory₁ s₁ = (.panicked text, memory', s') := by
  rw [run_bind]
  rcases course.run answer memory s with ⟨value | first, memory₁, s₁⟩
  · constructor
    · exact fun h => .inr ⟨value, memory₁, s₁, rfl, h⟩
    · rintro (hpanicked | ⟨value', memory₂, s₂, hreturned, h⟩)
      · nomatch hpanicked
      · cases hreturned
        exact h
  · constructor
    · rintro ⟨⟩
      exact .inl rfl
    · rintro (⟨⟨⟩⟩ | ⟨value', memory₂, s₂, hreturned, h⟩)
      · rfl
      · nomatch hreturned

theorem run_map_eq_panicked_iff {course : Course α} {f : α → γ} {memory : μ} {s : Store} :
    (f <$> course).run answer memory s = (.panicked text, memory', s') ↔
      course.run answer memory s = (.panicked text, memory', s') := by
  rw [map_eq_pure_bind, run_bind_eq_panicked_iff]
  simp

theorem run_mapM_eq_panicked_iff {perform : α → Course β} (items : List α) (memory : μ)
    (s : Store) : (items.mapM perform).run answer memory s = (.panicked text, memory', s') ↔
      PanicsAt answer perform text memory' s' items memory s := by
  induction items generalizing memory s with
  | nil =>
      constructor
      · exact nofun
      · exact nofun
  | cons item items ih =>
      have hrest {value : β} {memory₁ : μ} {s₁ : Store} :
          ((do
            let values ← items.mapM perform
            return value :: values : Course (List β)).run answer memory₁ s₁ =
              (.panicked text, memory', s')) ↔
            PanicsAt answer perform text memory' s' items memory₁ s₁ :=
        (run_map_eq_panicked_iff (f := (value :: ·))).trans (ih memory₁ s₁)
      rw [List.mapM_cons, run_bind_eq_panicked_iff]
      constructor
      · rintro (hhere | ⟨value, memory₁, s₁, hreturned, hlater⟩)
        · exact .here hhere
        · exact .later hreturned (hrest.mp hlater)
      · rintro (hhere | ⟨hreturned, hlater⟩)
        · exact .inl hhere
        · exact .inr ⟨_, _, _, hreturned, hrest.mpr hlater⟩

theorem run_forM_eq_panicked_iff {perform : α → Course Unit} (items : List α) (memory : μ)
    (s : Store) : (forM items perform).run answer memory s = (.panicked text, memory', s') ↔
      PanicsAt answer perform text memory' s' items memory s := by
  have hforM : forM items perform = (fun _ => ()) <$> items.mapM perform := by
    induction items with
    | nil => rfl
    | cons item items ih => simp [ih]
  rw [hforM, run_map_eq_panicked_iff, run_mapM_eq_panicked_iff]

end Course

namespace Compound

variable {ι : Type}

/-- For each signal the tree does what its items do in their order. -/
structure InOrder (leafBehaviour : ι → Behaviour) (t : Compound ι) : Prop where
  finish : ∀ ending, (t.behaviour leafBehaviour).finish ending =
    forM t.items (Item.perform leafBehaviour ending)
  /-- Every leaf is aborted, whatever the others answer. -/
  abort : ∀ cause, (t.behaviour leafBehaviour).abort cause = (do
    return (← t.leaves.mapM fun i => (leafBehaviour i).abort cause).any id)
  finish_panics : ∀ (μ : Type) (answer : Surroundings μ) (ending : Ending) (text : String)
    (memory memory' : μ) (s s' : Store),
      ((t.behaviour leafBehaviour).finish ending).run answer memory s =
          (.panicked text, memory', s') ↔
        PanicsAt answer (Item.perform leafBehaviour ending) text memory' s' t.items memory s
  abort_panics : ∀ (μ : Type) (answer : Surroundings μ) (cause : Cause) (text : String)
    (memory memory' : μ) (s s' : Store),
      ((t.behaviour leafBehaviour).abort cause).run answer memory s =
          (.panicked text, memory', s') ↔
        PanicsAt answer (fun i => (leafBehaviour i).abort cause) text memory' s' t.leaves memory s

theorem inOrder (leafBehaviour : ι → Behaviour) (t : Compound ι) : t.InOrder leafBehaviour := by
  refine ⟨t.finish_eq_forM leafBehaviour, t.abort_eq_mapM leafBehaviour, ?_, ?_⟩
  · intro μ answer ending text memory memory' s s'
    rw [finish_eq_forM]
    exact run_forM_eq_panicked_iff t.items memory s
  · intro μ answer cause text memory memory' s s'
    rw [abort_eq_mapM]
    exact (run_map_eq_panicked_iff (f := (·.any id))).trans
      (run_mapM_eq_panicked_iff t.leaves memory s)

/-- Whatever the leaves are, nobody who gives the two trees signals can tell one from the other. -/
def ActsAs (t u : Compound ι) : Prop :=
  ∀ (leafBehaviour : ι → Behaviour) (signals : List Signal),
    (t.behaviour leafBehaviour).deliverAll signals = (u.behaviour leafBehaviour).deliverAll signals

theorem actsAs_of_items_eq {t u : Compound ι} (h : t.items = u.items) : t.ActsAs u := by
  intro leafBehaviour signals
  rw [behaviour_congr leafBehaviour h]

end Compound

namespace Sink

/-- A tree of sinks, over whatever leaves, takes each signal as the list of its items does. So it
makes no difference how sinks are grouped, where some are wrapped or where signals are ignored. -/
theorem compound_in_order :
    (∀ t : Compound Sink, t.sink.behaviour = t.behaviour Sink.behaviour) ∧
      ∀ ι : Type,
        (∀ (leafBehaviour : ι → Behaviour) (t : Compound ι), t.InOrder leafBehaviour) ∧
          (∀ t u v : Compound ι,
            (Compound.both (.both t u) v).ActsAs (.both t (.both u v))) ∧
          (∀ t : Compound ι, (Compound.both .ignore t).ActsAs t ∧
            (Compound.both t .ignore).ActsAs t) ∧
          ∀ t : Compound ι, t.bare.ActsAs t := by
  refine ⟨Compound.behaviour_sink, fun ι => ⟨Compound.inOrder, ?_, ?_, ?_⟩⟩
  · intro t u v
    exact Compound.actsAs_of_items_eq (List.append_assoc ..)
  · intro t
    exact ⟨Compound.actsAs_of_items_eq (List.nil_append _),
      Compound.actsAs_of_items_eq (List.append_nil _)⟩
  · intro t
    exact Compound.actsAs_of_items_eq t.items_bare

end Sink

end OneShot
