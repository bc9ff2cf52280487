import OneShot.Proofs.Wire.Slices

/-!
# Bounds of the reader

Between any two turns the reader is sound, so no turn reaches beyond its
cells or its input. If every place and every difference is checked before
it is used, no check fails, and the loop comes to its end in no more turns
than there are octets.
-/

namespace OneShot.Wire

/-! ## Checked places -/

/-- The difference, unless it falls below zero. -/
def minus? (m n : Nat) : Option Nat := if n ≤ m then some (m - n) else none

/-- What stands from place `start` on and before place `stop`, if there are such places. -/
def slice? (octets : List UInt8) (start stop : Nat) : Option (List UInt8) :=
  if start ≤ stop ∧ stop ≤ octets.length then some ((octets.take stop).drop start) else none

/-- Writes `fresh` over what stands from place `start` on and before place `stop`, if there are
such places and they are as many as the octets of `fresh`. -/
def splice? (cells : List UInt8) (start stop : Nat) (fresh : List UInt8) : Option (List UInt8) :=
  if start ≤ stop ∧ stop ≤ cells.length ∧ fresh.length = stop - start then
    some (cells.take start ++ fresh ++ cells.drop stop)
  else none

/-- Lays what fits of `input` over the cells not yet filled, and tells how much that is. -/
def fill? (cells : List UInt8) (filled : Nat) (input : List UInt8) :
    Option (List UInt8 × Nat) := do
  let free ← minus? cells.length filled
  let n := min free input.length
  let fresh ← slice? input 0 n
  let cells ← splice? cells filled (filled + n) fresh
  return (cells, n)

theorem minus?_of_le {m n : Nat} (h : n ≤ m) : minus? m n = some (m - n) := if_pos h

theorem slice?_of_le {octets : List UInt8} {start stop : Nat} (h : start ≤ stop)
    (hstop : stop ≤ octets.length) :
    slice? octets start stop = some ((octets.take stop).drop start) :=
  if_pos ⟨h, hstop⟩

theorem splice?_of_le {cells fresh : List UInt8} {start : Nat}
    (h : start + fresh.length ≤ cells.length) :
    splice? cells start (start + fresh.length) fresh =
      some (cells.take start ++ fresh ++ cells.drop (start + fresh.length)) :=
  if_pos ⟨Nat.le_add_right _ _, h, (Nat.add_sub_cancel_left _ _).symm⟩

theorem fill?_eq_overlay {cells : List UInt8} {filled : Nat} (h : filled ≤ cells.length)
    (input : List UInt8) :
    fill? cells filled input = some (overlay cells filled input, room cells filled input) := by
  have hroom := room_eq cells filled input
  have hfresh : slice? input 0 (room cells filled input) =
      some (input.take (cells.length - filled)) := by
    rw [slice?_of_le (Nat.zero_le _) (hroom ▸ Nat.min_le_right _ _), List.drop_zero, room,
      ← List.prefix_iff_eq_take.mp (List.take_prefix _ _)]
  have hfits : filled + (input.take (cells.length - filled)).length ≤ cells.length := by
    rw [List.length_take]
    omega
  simp only [fill?, minus?_of_le h, Option.bind_eq_bind, Option.bind_some, ← hroom, hfresh]
  rw [room, splice?_of_le hfits]
  rfl

namespace Reader

variable {r : Reader}

/-! ## Checked turns -/

/-- Goes on with the header's cells as they are after `n` more octets. -/
def fillHeader (r : Reader) (cells : List UInt8) (n : Nat) : Progress :=
  let r := { r with headerCells := cells, filled := r.filled + n }
  if r.filled = headerLength then
    let r := { r with filled := 0 }
    match Header.parse? r.headerCells with
    | some h =>
        let (r, notices) := r.openFrame h
        ⟨r, notices, n⟩
    | none => ⟨r, [], n⟩
  else ⟨r, [], n⟩

/-- Goes on with the delta's cells as they are after `n` more octets. -/
def fillUpdate (r : Reader) (h : Header) (cells : List UInt8) (n : Nat) : Progress :=
  let r := { r with deltaCells := cells, filled := r.filled + n }
  if r.filled = deltaLength then
    let (r, notices) := { r with filled := 0, phase := .header }.closeUpdate h
    ⟨r, notices, n⟩
  else ⟨r, [], n⟩

def turnSkip? (r : Reader) (h : Header) (remaining : Nat) (input : List UInt8) :
    Option Progress :=
  let n := min remaining input.length
  if n = remaining then some ⟨{ r with phase := .header }, [.skipped h], n⟩
  else do
    let left ← minus? remaining n
    return ⟨{ r with phase := .skip h left }, [], n⟩

def turn? (r : Reader) (input : List UInt8) : Option Progress :=
  match r.phase with
  | .failed => some ⟨r, [], 0⟩
  | .header => do
      let (cells, n) ← fill? r.headerCells r.filled input
      return r.fillHeader cells n
  | .update h => do
      let (cells, n) ← fill? r.deltaCells r.filled input
      return r.fillUpdate h cells n
  | .skip h remaining => r.turnSkip? h remaining input

/-- The loop of a feed with every place in `data` checked, in at most `budget` turns. It stands
before place `taken`. -/
def feed? (data : List UInt8) (r : Reader) (taken : Nat) : Nat → Option Progress
  | 0 => if taken < data.length then none else some { reader := r, taken }
  | budget + 1 =>
      if taken < data.length then do
        let input ← slice? data taken data.length
        if r.isFailed then return { reader := r, taken }
        let t ← r.turn? input
        let rest ← feed? data t.reader (taken + t.taken) budget
        return { rest with notices := t.notices ++ rest.notices }
      else some { reader := r, taken }

theorem turnSkip?_eq (r : Reader) (h : Header) (remaining : Nat) (input : List UInt8) :
    r.turnSkip? h remaining input = some (r.turnSkip h remaining input) := by
  simp only [turnSkip?, turnSkip, List.length_take]
  split
  · rfl
  · rw [minus?_of_le (Nat.min_le_left _ _)]
    rfl

/-- No check of a turn fails. -/
theorem turn?_eq_turn (hr : r.Sound) (input : List UInt8) :
    r.turn? input = some (r.turn input) := by
  have hp := hr.phase
  cases hphase : r.phase with
  | header =>
      rw [hphase] at hp
      have hfill := fill?_eq_overlay (hr.headerCells ▸ Nat.le_of_lt hp) input
      simp only [turn?, turn, hphase, hfill]
      rfl
  | update header =>
      rw [hphase] at hp
      have hfill := fill?_eq_overlay (hr.deltaCells ▸ Nat.le_of_lt hp.1) input
      simp only [turn?, turn, hphase, hfill]
      rfl
  | skip header remaining =>
      simp only [turn?, turn, hphase]
      exact turnSkip?_eq r header remaining input
  | failed => simp only [turn?, turn, hphase]

/-! ## The loop -/

theorem taken_turn_le (hr : r.Sound) (input : List UInt8) :
    (r.turn input).taken ≤ input.length := by
  by_cases hle : r.need ≤ input.length
  · rw [(turn_of_need_le hr hle).1]
    exact hle
  · exact Nat.le_of_eq (turn_of_lt_need hr (Nat.lt_of_not_le hle)).1

/-- No check of a feed fails, and there need not be more turns than octets. The induction is on
the turns left, of which there are never fewer than octets left. -/
theorem feed?_eq_feed (hr : r.Sound) {data : List UInt8} {taken budget : Nat}
    (hbudget : data.length ≤ taken + budget) :
    feed? data r taken budget =
      some (Progress.andThen ⟨r, [], taken⟩ fun r => r.feed (data.drop taken)) := by
  induction budget generalizing r taken with
  | zero =>
      have hle : data.length ≤ taken := hbudget
      rw [feed?, if_neg (Nat.not_lt_of_le hle), List.drop_eq_nil_of_le hle]
      simp [Progress.andThen]
  | succ budget ih =>
      by_cases hlt : taken < data.length
      · have hslice : slice? data taken data.length = some (data.drop taken) := by
          rw [slice?_of_le (Nat.le_of_lt hlt) (Nat.le_refl _), List.take_length]
        have hne : data.drop taken ≠ [] := by
          intro hnil
          exact absurd (List.drop_eq_nil_iff.mp hnil) (Nat.not_le_of_lt hlt)
        rw [feed?, if_pos hlt, hslice]
        by_cases hf : r.isFailed = true
        · simp [hf, feed_of_isFailed hf, Progress.andThen]
        · have hpos := taken_turn_pos hr (Bool.not_eq_true _ ▸ hf) hne
          have hleft : data.length ≤ taken + (r.turn (data.drop taken)).taken + budget := by
            omega
          have hrest := ih (sound_turn hr (data.drop taken)) hleft
          simp only [Option.bind_eq_bind, Option.bind_some, if_neg hf, turn?_eq_turn hr, hrest,
            feed_eq_turn hr hne, Progress.andThen, List.drop_drop, List.nil_append, Nat.add_assoc]
          rfl
      · have hle := Nat.le_of_not_lt hlt
        rw [feed?, if_neg hlt, List.drop_eq_nil_of_le hle]
        simp [Progress.andThen]

/-- A feed takes no more than there is, and takes it all unless it leaves the reader failed. -/
theorem taken_feed (hr : r.Sound) (input : List UInt8) :
    (r.feed input).taken ≤ input.length ∧
      ((r.feed input).reader.isFailed = false → (r.feed input).taken = input.length) := by
  refine Sound.feed_induction ?_ ?_ hr input
  · intro r input _ h
    rw [feed_of_ended h]
    refine ⟨Nat.zero_le _, fun hnot => ?_⟩
    rcases h with hf | rfl
    · exact nomatch hf.symm.trans hnot
    · rfl
  · rintro r input hr _ hne ⟨hrest, hall⟩
    have hle := taken_turn_le hr input
    rw [List.length_drop] at hrest hall
    rw [feed_eq_turn hr hne]
    simp only [Progress.andThen]
    refine ⟨by omega, fun hnot => ?_⟩
    rw [hall hnot]
    omega

/-- Where a feed stands after `n` turns, or at its end if it has ended by then: the reader, and
what is left of the input. -/
def passing (r : Reader) (input : List UInt8) : Nat → Reader × List UInt8
  | 0 => (r, input)
  | n + 1 =>
      if input = [] ∨ r.isFailed then (r, input)
      else passing (r.turn input).reader (input.drop (r.turn input).taken) n

theorem sound_passing (hr : r.Sound) (input : List UInt8) (n : Nat) :
    (r.passing input n).1.Sound ∧ (r.passing input n).1.maxFrameSize = r.maxFrameSize := by
  induction n generalizing r input with
  | zero => exact ⟨hr, rfl⟩
  | succ n ih =>
      rw [passing]
      split
      · exact ⟨hr, rfl⟩
      · obtain ⟨hsound, hmax⟩ := ih (sound_turn hr input) (input.drop (r.turn input).taken)
        exact ⟨hsound, hmax.trans (maxFrameSize_turn r input)⟩

/-- By the time there have been as many turns as octets the feed has ended. -/
theorem passing_of_length_le (hr : r.Sound) {input : List UInt8} {n : Nat}
    (h : input.length ≤ n) : (r.passing input n).1 = (r.feed input).reader := by
  induction n generalizing r input with
  | zero =>
      obtain rfl := List.length_eq_zero_iff.mp (Nat.le_zero.mp h)
      rw [passing, feed_nil]
  | succ n ih =>
      by_cases hne : input = []
      · rw [passing, if_pos (.inl hne), hne, feed_nil]
      by_cases hf : r.isFailed = true
      · rw [passing, if_pos (.inr hf), feed_of_isFailed hf]
      have hpos := taken_turn_pos hr (Bool.not_eq_true _ ▸ hf) hne
      have hlen : (input.drop (r.turn input).taken).length ≤ n := by
        rw [List.length_drop]
        omega
      rw [passing, if_neg (not_or.mpr ⟨hne, hf⟩), ih (sound_turn hr input) hlen,
        feed_eq_turn hr hne]
      rfl

/-- Whatever has befallen the reader, it is sound after any number of turns of a feed; a turn that
is still due takes an octet at least, unless the reader has failed. No check of a feed fails, it
ends in no more turns than there are octets, and it takes them all unless it leaves the reader
failed. -/
theorem bounds_kept (maxFrameSize : UInt32) (history : List Deed) (input : List UInt8) :
    let r := (start maxFrameSize).after history
    (∀ n,
      let now := r.passing input n
      now.1.Sound ∧ now.1.maxFrameSize = maxFrameSize ∧
        (now.2 = [] ∨ now.1.phase = .failed ∨
          0 < (now.1.turn now.2).taken ∧ (now.1.turn now.2).taken ≤ now.2.length)) ∧
      (r.passing input input.length).1 = (r.feed input).reader ∧
      feed? input r 0 input.length = some (r.feed input) ∧
      (r.feed input).taken ≤ input.length ∧
      ((r.feed input).reader.isFailed = true ∨ (r.feed input).taken = input.length) := by
  intro r
  have hr : r.Sound := sound_after (sound_start maxFrameSize) history
  obtain ⟨hle, hall⟩ := taken_feed hr input
  refine ⟨fun n => ?_, passing_of_length_le hr (Nat.le_refl _), ?_, hle, ?_⟩
  · obtain ⟨hsound, hmax⟩ := sound_passing hr input n
    refine ⟨hsound, hmax.trans (maxFrameSize_after _ history), ?_⟩
    by_cases hne : (r.passing input n).2 = []
    · exact .inl hne
    · cases hf : (r.passing input n).1.isFailed with
      | true => exact .inr (.inl (beq_iff_eq.mp hf))
      | false => exact .inr (.inr ⟨taken_turn_pos hsound hf hne, taken_turn_le hsound _⟩)
  · rw [feed?_eq_feed hr (Nat.le_of_eq (Nat.zero_add _).symm), List.drop_zero]
    simp [Progress.andThen]
  · cases hf : (r.feed input).reader.isFailed with
    | true => exact .inl rfl
    | false => exact .inr (hall hf)

end Reader

end OneShot.Wire
