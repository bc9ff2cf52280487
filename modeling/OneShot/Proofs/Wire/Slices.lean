import OneShot.Proofs.Wire.Turns
import Mathlib.Algebra.GroupWithZero.Nat

/-!
# Slices

Where the stream is cut makes no difference. A reader that is fed slice
after slice gives the notices, takes the octets and ends in the state that
it would have if it had been fed the whole at once, the octets left in its
cells included.
-/

namespace OneShot.Wire

namespace Reader

variable {r : Reader}

theorem taken_turn_pos (hr : r.Sound) (hf : r.isFailed = false) {input : List UInt8}
    (h : input ≠ []) : 0 < (r.turn input).taken := by
  have hneed := need_pos hr hf
  have hlen := List.length_pos_iff.mpr h
  by_cases hle : r.need ≤ input.length
  · rw [(turn_of_need_le hr hle).1]
    exact hneed
  · rw [(turn_of_lt_need hr (Nat.lt_of_not_le hle)).1]
    exact hlen

/-- Feeding is one turn and then feeding what the turn left. -/
theorem feed_eq_turn (hr : r.Sound) {input : List UInt8} (h : input ≠ []) :
    r.feed input =
      (r.turn input).andThen fun next => next.feed (input.drop (r.turn input).taken) := by
  cases hf : r.isFailed with
  | true =>
      have hphase : r.phase = .failed := beq_iff_eq.mp hf
      have hturn : r.turn input = ⟨r, [], 0⟩ := by simp only [turn, hphase]
      simp [hturn, feed_of_isFailed hf, Progress.andThen]
  | false =>
      have hpos := taken_turn_pos hr hf h
      cases input with
      | nil => exact (h rfl).elim
      | cons octet more =>
          rw [feed, if_neg (by simp [hf])]
          simp only [dif_pos hpos, Progress.andThen]

theorem sound_turn (hr : r.Sound) (input : List UInt8) : (r.turn input).reader.Sound := by
  by_cases hle : r.need ≤ input.length
  · exact (turn_of_need_le hr hle).2.1
  · exact (turn_of_lt_need hr (Nat.lt_of_not_le hle)).2.2.1

/-- A feed has ended once the reader has failed or there is no more to feed. -/
theorem feed_of_ended {input : List UInt8} (h : r.isFailed = true ∨ input = []) :
    r.feed input = ⟨r, [], 0⟩ := by
  rcases h with hf | rfl
  · exact feed_of_isFailed hf input
  · exact feed_nil r

/-- Induction along a feed: what holds when it has ended, and before a turn if it holds behind
that turn, holds of every feed of a sound reader. -/
@[elab_as_elim] theorem Sound.feed_induction {motive : Reader → List UInt8 → Prop}
    (ended : ∀ r input, r.Sound → r.isFailed = true ∨ input = [] → motive r input)
    (turned : ∀ r input, r.Sound → r.isFailed = false → input ≠ [] →
      motive (r.turn input).reader (input.drop (r.turn input).taken) → motive r input)
    (hr : r.Sound) (input : List UInt8) : motive r input := by
  -- A turn that is due takes an octet at least, so the input gets shorter.
  induction hn : input.length using Nat.strongRecOn generalizing r input with
  | ind n ih =>
      by_cases h : r.isFailed = true ∨ input = []
      · exact ended r input hr h
      have hf : r.isFailed = false := Bool.not_eq_true _ ▸ (not_or.mp h).1
      have hne : input ≠ [] := (not_or.mp h).2
      have hpos := taken_turn_pos hr hf hne
      have hlen := List.length_pos_iff.mpr hne
      apply turned r input hr hf hne
      apply ih _ _ (sound_turn hr input) _ rfl
      rw [List.length_drop]
      omega

theorem sound_feed (hr : r.Sound) (input : List UInt8) : (r.feed input).reader.Sound := by
  refine Sound.feed_induction ?_ ?_ hr input
  · intro r input hr h
    rw [feed_of_ended h]
    exact hr
  · intro r input hr _ hne ih
    rw [feed_eq_turn hr hne]
    exact ih

@[simp] theorem maxFrameSize_feed (r : Reader) (input : List UInt8) :
    (r.feed input).reader.maxFrameSize = r.maxFrameSize := by
  fun_induction feed r input with
  | case1 => rfl
  | case2 => rfl
  | case3 r octet more hf next notices taken hturn hpos rest ih =>
      have hkept := maxFrameSize_turn r (octet :: more)
      rw [hturn] at hkept
      exact ih.trans hkept
  | case4 r octet more hf next notices taken hturn hpos =>
      have hkept := maxFrameSize_turn r (octet :: more)
      rwa [hturn] at hkept

/-- Feeding two slices is feeding them in one. The induction is on the first slice, which loses
a turn's octets at each step; its last turn may end in the middle of a frame. -/
theorem feed_append (hr : r.Sound) (xs ys : List UInt8) :
    r.feed (xs ++ ys) = (r.feed xs).andThen fun next => next.feed ys := by
  induction hn : xs.length using Nat.strongRecOn generalizing r xs with
  | ind n ih =>
      by_cases hf : r.isFailed = true
      · simp [feed_of_isFailed hf, Progress.andThen]
      by_cases hxs : xs = []
      · simp [hxs, Progress.andThen]
      by_cases hys : ys = []
      · simp [hys]
      have hne : xs ++ ys ≠ [] := by simp [hxs]
      by_cases hle : r.need ≤ xs.length
      · obtain ⟨htaken, hsound, hsame⟩ := turn_of_need_le hr hle
        have hdrop : (xs ++ ys).drop r.need = xs.drop r.need ++ ys :=
          List.drop_append_of_le_length hle
        have hneed := need_pos hr (Bool.not_eq_true _ ▸ hf)
        have hshort : (xs.drop r.need).length < n := by
          rw [List.length_drop]
          omega
        calc
          r.feed (xs ++ ys) =
              (r.turn xs).andThen fun next => next.feed (xs.drop r.need ++ ys) := by
            rw [feed_eq_turn hr hne, hsame ys, htaken, hdrop]
          _ = (r.turn xs).andThen fun next =>
                (next.feed (xs.drop r.need)).andThen fun last => last.feed ys := by
            simp only [Progress.andThen, ih _ hshort hsound _ rfl]
          _ = (r.feed xs).andThen fun next => next.feed ys := by
            rw [feed_eq_turn hr hxs, htaken, Progress.andThen_assoc]
      · obtain ⟨htaken, -, hsound, hmore⟩ := turn_of_lt_need hr (Nat.lt_of_not_le hle)
        have hfeed : r.feed xs = r.turn xs := by
          rw [feed_eq_turn hr hxs, htaken, List.drop_length]
          simp [Progress.andThen]
        have hdrop (k : Nat) : (xs ++ ys).drop (xs.length + k) = ys.drop k := by
          rw [← List.drop_drop, List.drop_left]
        rw [feed_eq_turn hr hne, hmore ys, hfeed]
        simp only [Progress.andThen, feed_eq_turn hsound hys, htaken, hdrop, List.append_assoc,
          Nat.add_assoc]

theorem feedAll_eq_feed (hr : r.Sound) (slices : List (List UInt8)) :
    (r.feedAll slices).1 = (r.feed slices.flatten).reader ∧
      (r.feedAll slices).2.1 = (r.feed slices.flatten).notices ∧
        (r.feedAll slices).2.2.sum = (r.feed slices.flatten).taken := by
  induction slices generalizing r with
  | nil => simp [feedAll]
  | cons slice slices ih =>
      obtain ⟨hreader, hnotices, hcounts⟩ := ih (sound_feed hr slice)
      rw [List.flatten_cons, feed_append hr]
      simp only [feedAll, Progress.andThen, List.sum_cons]
      exact ⟨hreader, by rw [hnotices], by rw [hcounts]⟩

/-- What may befall a reader. -/
inductive Deed
  | feed (slice : List UInt8)
  | reset

def afterDeed (r : Reader) : Deed → Reader
  | .feed slice => (r.feed slice).reader
  | .reset => r.reset

/-- The reader after a history of feeds and resets. -/
def after (r : Reader) (history : List Deed) : Reader := history.foldl afterDeed r

theorem sound_after (hr : r.Sound) (history : List Deed) : (r.after history).Sound := by
  induction history generalizing r with
  | nil => exact hr
  | cons deed history ih =>
      apply ih
      cases deed with
      | feed slice => exact sound_feed hr slice
      | reset => exact hr.reset

@[simp] theorem maxFrameSize_after (r : Reader) (history : List Deed) :
    (r.after history).maxFrameSize = r.maxFrameSize := by
  induction history generalizing r with
  | nil => rfl
  | cons deed history ih =>
      apply (ih _).trans
      cases deed with
      | feed slice => exact maxFrameSize_feed r slice
      | reset => rfl

/-- Whatever has befallen the reader, feeding slices in turn gives the notices in the same order,
leaves the same reader and takes as many octets in all as feeding the whole at once. -/
theorem feedAll_eq_feed_flatten (maxFrameSize : UInt32) (history : List Deed)
    (slices : List (List UInt8)) :
    let r := (start maxFrameSize).after history
    let whole := r.feed slices.flatten
    (r.feedAll slices).1 = whole.reader ∧
      (r.feedAll slices).2.1 = whole.notices ∧
        (r.feedAll slices).2.2.sum = whole.taken :=
  feedAll_eq_feed (sound_after (sound_start maxFrameSize) history) slices

end Reader

end OneShot.Wire
