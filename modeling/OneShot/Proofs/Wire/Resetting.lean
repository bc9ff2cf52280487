import OneShot.Proofs.Wire.Slices

/-!
# Resetting a reader

A reset leaves octets in the cells. No count says that they are filled, and
they are written over before the reader looks at them. So a reader that has
been reset answers whatever befalls it as a new one does.
-/

namespace OneShot.Wire

section Overlay

variable {cells cells' : List UInt8} {filled : Nat}

/-- Of cells that are filled up, what lay beyond the count is gone. -/
theorem overlay_congr (hlen : cells.length = cells'.length)
    (htake : cells.take filled = cells'.take filled) {input : List UInt8}
    (hfull : cells.length ≤ filled + input.length) :
    overlay cells filled input = overlay cells' filled input := by
  have hgone {cells : List UInt8} (hfull : cells.length ≤ filled + input.length) :
      overlay cells filled input = cells.take filled ++ input.take (cells.length - filled) := by
    have hdrop : cells.drop (filled + (input.take (cells.length - filled)).length) = [] := by
      apply List.drop_eq_nil_of_le
      rw [List.length_take]
      omega
    rw [overlay, hdrop, List.append_nil]
  rw [hgone hfull, hgone (hlen ▸ hfull), htake, hlen]

theorem take_overlay_congr (hlen : cells.length = cells'.length)
    (htake : cells.take filled = cells'.take filled) {input : List UInt8}
    (hshort : filled + input.length ≤ cells.length) :
    (overlay cells filled input).take (filled + input.length) =
      (overlay cells' filled input).take (filled + input.length) := by
  rw [take_overlay hshort, take_overlay (hlen ▸ hshort), htake]

end Overlay

namespace Reader

/-- Nothing tells the two readers apart but octets that no count says are filled. -/
structure Alike (r r' : Reader) : Prop where
  maxFrameSize_eq : r.maxFrameSize = r'.maxFrameSize
  phase_eq : r.phase = r'.phase
  filled_eq : r.filled = r'.filled
  headerCells_eq : r.phase = .header → r.headerCells.take r.filled = r'.headerCells.take r.filled
  deltaCells_eq : ∀ h, r.phase = .update h →
    r.deltaCells.take r.filled = r'.deltaCells.take r.filled

end Reader

/-- The two have taken and told the same, and their readers are alike. -/
structure Progress.Alike (p p' : Progress) : Prop where
  reader : p.reader.Alike p'.reader
  notices_eq : p.notices = p'.notices
  taken_eq : p.taken = p'.taken

theorem Progress.Alike.andThen {p p' : Progress} (h : p.Alike p') {f g : Reader → Progress}
    (hmore : (f p.reader).Alike (g p'.reader)) : (p.andThen f).Alike (p'.andThen g) where
  reader := hmore.reader
  notices_eq := by simp only [Progress.andThen, h.notices_eq, hmore.notices_eq]
  taken_eq := by simp only [Progress.andThen, h.taken_eq, hmore.taken_eq]

namespace Reader

variable {r r' : Reader}

theorem alike_of_filled_eq_zero (hmax : r.maxFrameSize = r'.maxFrameSize)
    (hphase : r.phase = r'.phase) (h : r.filled = 0) (h' : r'.filled = 0) : r.Alike r' where
  maxFrameSize_eq := hmax
  phase_eq := hphase
  filled_eq := h.trans h'.symm
  headerCells_eq := fun _ => by rw [h, List.take_zero, List.take_zero]
  deltaCells_eq := fun _ _ => by rw [h, List.take_zero, List.take_zero]

theorem Alike.isFailed_eq (h : r.Alike r') : r.isFailed = r'.isFailed := by
  rw [isFailed, isFailed, h.phase_eq]

theorem Alike.reset (h : r.Alike r') : r.reset.Alike r'.reset :=
  alike_of_filled_eq_zero h.maxFrameSize_eq rfl rfl rfl

/-! ## One turn -/

/-- Acting on a header looks at no cell. -/
theorem Alike.openFrame (h : r.Alike r') (hfilled : r.filled = 0) (header : Header) :
    (r.openFrame header).2 = (r'.openFrame header).2 ∧
      (r.openFrame header).1.Alike (r'.openFrame header).1 := by
  have hfilled' : r'.filled = 0 := h.filled_eq.symm.trans hfilled
  simp only [Reader.openFrame, h.maxFrameSize_eq]
  split
  · exact ⟨rfl, alike_of_filled_eq_zero h.maxFrameSize_eq rfl hfilled hfilled'⟩
  · split
    · split
      · exact ⟨rfl, alike_of_filled_eq_zero rfl rfl hfilled hfilled'⟩
      · exact ⟨rfl, alike_of_filled_eq_zero h.maxFrameSize_eq rfl hfilled hfilled'⟩
    · split
      · exact ⟨rfl, h⟩
      · exact ⟨rfl, alike_of_filled_eq_zero rfl rfl hfilled hfilled'⟩

/-- Acting on a delta looks at the cells of the delta alone. -/
theorem Alike.closeUpdate (h : r.Alike r') (hfilled : r.filled = 0)
    (hcells : r.deltaCells = r'.deltaCells) (header : Header) :
    (r.closeUpdate header).2 = (r'.closeUpdate header).2 ∧
      (r.closeUpdate header).1.Alike (r'.closeUpdate header).1 := by
  have hfilled' : r'.filled = 0 := h.filled_eq.symm.trans hfilled
  have hdelta : r.delta = r'.delta := by rw [delta, delta, hcells]
  simp only [Reader.closeUpdate, hdelta]
  split
  · split
    · exact ⟨rfl, alike_of_filled_eq_zero h.maxFrameSize_eq rfl hfilled hfilled'⟩
    · exact ⟨rfl, h⟩
  · exact ⟨rfl, h⟩

section Turn

variable (hr : r.Sound) (hr' : r'.Sound) (h : r.Alike r') (input : List UInt8)

include hr hr' h

theorem alike_turnHeader (hphase : r.phase = .header) :
    (r.turnHeader input).Alike (r'.turnHeader input) := by
  have hphase' : r'.phase = .header := h.phase_eq.symm.trans hphase
  have hlen : r.headerCells.length = r'.headerCells.length :=
    hr.headerCells.trans hr'.headerCells.symm
  have htake := h.headerCells_eq hphase
  have hfilled : r.filled < headerLength := by
    have hp := hr.phase
    rwa [hphase] at hp
  by_cases hfull : headerLength ≤ r.filled + input.length
  · have hcells := overlay_congr hlen htake (hr.headerCells ▸ hfull)
    have hwhole : (overlay r.headerCells r.filled input).length = headerLength := by
      rw [length_overlay input (by rw [hr.headerCells]; omega), hr.headerCells]
    obtain ⟨header, hparse, -, -⟩ := Header.exists_parse? hwhole
    have hturn := turnHeader_of_parse? hr hfilled hfull hparse
    have hturn' := turnHeader_of_parse? hr' (h.filled_eq ▸ hfilled) (h.filled_eq ▸ hfull)
      (by rw [← h.filled_eq, ← hcells]; exact hparse)
    have hopen : Alike
        { r with headerCells := overlay r.headerCells r.filled input, filled := 0 }
        { r' with headerCells := overlay r'.headerCells r'.filled input, filled := 0 } :=
      alike_of_filled_eq_zero h.maxFrameSize_eq h.phase_eq rfl rfl
    obtain ⟨hnotices, hreader⟩ := hopen.openFrame rfl header
    rw [hturn, hturn', ← h.filled_eq]
    rw [← h.filled_eq] at hnotices hreader
    exact ⟨hreader, hnotices, rfl⟩
  · have hshort : r.filled + input.length < headerLength := Nat.lt_of_not_le hfull
    rw [turnHeader_of_short hr hshort, turnHeader_of_short hr' (h.filled_eq ▸ hshort),
      ← h.filled_eq]
    refine ⟨⟨h.maxFrameSize_eq, h.phase_eq, rfl, fun _ => ?_, fun _ hupdate => ?_⟩, rfl, rfl⟩
    · exact take_overlay_congr hlen htake (by rw [hr.headerCells]; omega)
    · exact nomatch hphase.symm.trans hupdate

theorem alike_turnUpdate {header : Header} (hphase : r.phase = .update header) :
    (r.turnUpdate header input).Alike (r'.turnUpdate header input) := by
  have hlen : r.deltaCells.length = r'.deltaCells.length := hr.deltaCells.trans hr'.deltaCells.symm
  have htake := h.deltaCells_eq header hphase
  have hfilled : r.filled < deltaLength := by
    have hp := hr.phase
    rw [hphase] at hp
    exact hp.1
  by_cases hfull : deltaLength ≤ r.filled + input.length
  · have hcells := overlay_congr hlen htake (hr.deltaCells ▸ hfull)
    have hclose : Alike
        { r with
          deltaCells := overlay r.deltaCells r.filled input, filled := 0, phase := .header }
        { r' with
          deltaCells := overlay r'.deltaCells r.filled input, filled := 0, phase := .header } :=
      alike_of_filled_eq_zero h.maxFrameSize_eq rfl rfl rfl
    obtain ⟨hnotices, hreader⟩ := hclose.closeUpdate rfl hcells header
    rw [turnUpdate_of_full hr header hfilled hfull,
      turnUpdate_of_full hr' header (h.filled_eq ▸ hfilled) (h.filled_eq ▸ hfull), ← h.filled_eq]
    exact ⟨hreader, hnotices, rfl⟩
  · have hshort : r.filled + input.length < deltaLength := Nat.lt_of_not_le hfull
    rw [turnUpdate_of_short hr header hshort,
      turnUpdate_of_short hr' header (h.filled_eq ▸ hshort), ← h.filled_eq]
    refine ⟨⟨h.maxFrameSize_eq, h.phase_eq, rfl, fun hheader => ?_, fun _ _ => ?_⟩, rfl, rfl⟩
    · exact nomatch hphase.symm.trans hheader
    · exact take_overlay_congr hlen htake (by rw [hr.deltaCells]; omega)

omit hr' in
/-- A payload that is passed over never comes into a cell. -/
theorem alike_turnSkip {header : Header} {remaining : Nat}
    (hphase : r.phase = .skip header remaining) :
    (r.turnSkip header remaining input).Alike (r'.turnSkip header remaining input) := by
  have hfilled : r.filled = 0 := by
    have hp := hr.phase
    rw [hphase] at hp
    exact hp.1
  have hfilled' : r'.filled = 0 := h.filled_eq.symm.trans hfilled
  simp only [turnSkip]
  split
  · exact ⟨alike_of_filled_eq_zero h.maxFrameSize_eq rfl hfilled hfilled', rfl, rfl⟩
  · exact ⟨alike_of_filled_eq_zero h.maxFrameSize_eq rfl hfilled hfilled', rfl, rfl⟩

theorem alike_turn : (r.turn input).Alike (r'.turn input) := by
  cases hphase : r.phase with
  | header =>
      simp only [turn, ← h.phase_eq, hphase]
      exact alike_turnHeader hr hr' h input hphase
  | update header =>
      simp only [turn, ← h.phase_eq, hphase]
      exact alike_turnUpdate hr hr' h input hphase
  | skip header remaining =>
      simp only [turn, ← h.phase_eq, hphase]
      exact alike_turnSkip hr h input hphase
  | failed =>
      simp only [turn, ← h.phase_eq, hphase]
      exact ⟨h, rfl, rfl⟩

end Turn

/-- Readers alike take and tell the same of any input. The induction is along the feed of the one,
and the turns of the other keep step with it. -/
theorem alike_feed (hr : r.Sound) (hr' : r'.Sound) (h : r.Alike r') (input : List UInt8) :
    (r.feed input).Alike (r'.feed input) := by
  refine Sound.feed_induction (motive := fun r input => ∀ r' : Reader, r'.Sound → r.Alike r' →
    (r.feed input).Alike (r'.feed input)) ?_ ?_ hr input r' hr' h
  · intro r input _ hended r' _ h
    rw [feed_of_ended hended, feed_of_ended (h.isFailed_eq ▸ hended)]
    exact ⟨h, rfl, rfl⟩
  · intro r input hr _ hne ih r' hr' h
    have hturn := alike_turn hr hr' h input
    have hrest := ih _ (sound_turn hr' input) hturn.reader
    rw [feed_eq_turn hr hne, feed_eq_turn hr' hne, ← hturn.taken_eq]
    exact hturn.andThen hrest

/-! ## What is seen from outside -/

/-- What a reader lets be seen when something befalls it. -/
structure Answer where
  taken : Nat := 0
  notices : List Notice := []
  failed : Bool
  deriving DecidableEq

def answer (r : Reader) : Deed → Answer
  | .feed slice =>
      let t := r.feed slice
      ⟨t.taken, t.notices, t.reader.isFailed⟩
  | .reset => { failed := r.reset.isFailed }

def answers (r : Reader) : List Deed → List Answer
  | [] => []
  | deed :: deeds => r.answer deed :: (r.afterDeed deed).answers deeds

theorem answers_eq_of_alike (hr : r.Sound) (hr' : r'.Sound) (h : r.Alike r')
    (deeds : List Deed) : r.answers deeds = r'.answers deeds := by
  induction deeds generalizing r r' with
  | nil => rfl
  | cons deed deeds ih =>
      cases deed with
      | feed slice =>
          have hfeed := alike_feed hr hr' h slice
          have hrest := ih (sound_feed hr slice) (sound_feed hr' slice) hfeed.reader
          simp only [answers, answer, afterDeed, hfeed.taken_eq, hfeed.notices_eq,
            hfeed.reader.isFailed_eq, hrest]
      | reset =>
          have hrest := ih hr.reset hr'.reset h.reset
          simp only [answers, answer, afterDeed, h.reset.isFailed_eq, hrest]

theorem alike_reset_start (maxFrameSize : UInt32) (history : List Deed) :
    ((start maxFrameSize).after history).reset.Alike (start maxFrameSize) :=
  alike_of_filled_eq_zero (maxFrameSize_after (start maxFrameSize) history) rfl rfl rfl

/-- A stream that breaks off inside the delta of a window update. -/
def brokenOff : List Deed := [.feed [0, 0, 4, 8, 0, 0, 0, 0, 1, 7]]

/-- Whatever has befallen a reader before it is reset, it answers all that befalls it then as a
new reader does, though octets may be left in its cells that a new reader does not have. -/
theorem reset_answers_as_new :
    (∀ maxFrameSize history deeds,
      let r := ((start maxFrameSize).after history).reset
      r.isFailed = (start maxFrameSize).isFailed ∧
        r.answers deeds = (start maxFrameSize).answers deeds) ∧
      ∃ maxFrameSize history,
        let r := ((start maxFrameSize).after history).reset
        r.headerCells ≠ (start maxFrameSize).headerCells ∧
          r.deltaCells ≠ (start maxFrameSize).deltaCells := by
  refine ⟨fun maxFrameSize history deeds => ?_, initialMaxFrameSize, brokenOff, ?_⟩
  · have hsound := (sound_after (sound_start maxFrameSize) history).reset
    have halike := alike_reset_start maxFrameSize history
    exact ⟨halike.isFailed_eq, answers_eq_of_alike hsound (sound_start maxFrameSize) halike deeds⟩
  · decide +kernel

end Reader

end OneShot.Wire
