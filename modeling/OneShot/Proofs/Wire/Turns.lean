import OneShot.Wire.Reader

/-!
# Turns of the reader

Between any two turns the reader is sound: its cells have their sizes, the
count of cells filled is below what the phase calls for, and the header of
a frame begun has passed the checks. A turn takes the octets that the phase
still needs, or all there are if that is fewer.
-/

namespace OneShot.Wire

structure Header.Admitted (h : Header) (maxFrameSize : UInt32) : Prop where
  length_le : h.length ≤ maxFrameSize
  length_lt : h.length.toNat < 16777216
  stream_lt : h.stream.toNat < 2147483648

def Phase.Sound (maxFrameSize : UInt32) (filled : Nat) : Phase → Prop
  | header => filled < headerLength
  | update h =>
      filled < deltaLength ∧ h.type = FrameType.windowUpdate.code ∧
        h.length.toNat = deltaLength ∧ h.Admitted maxFrameSize
  | skip h remaining =>
      filled = 0 ∧ h.type ≠ FrameType.windowUpdate.code ∧
        0 < remaining ∧ remaining ≤ h.length.toNat ∧ h.Admitted maxFrameSize
  | failed => filled = 0

theorem Header.exists_parse? {cells : List UInt8} (h : cells.length = headerLength) :
    ∃ header, Header.parse? cells = some header ∧
      header.length.toNat < 16777216 ∧ header.stream.toNat < 2147483648 := by
  match cells, h with
  | [l₀, l₁, l₂, type, flags, s₀, s₁, s₂, s₃], _ =>
      refine ⟨_, rfl, ?_, ?_⟩
      · have h₀ := l₀.toNat_lt
        have h₁ := l₁.toNat_lt
        have h₂ := l₂.toNat_lt
        simp only [toNat_word, UInt8.toNat_zero]
        omega
      · rw [toNat_clearReserved]
        exact Nat.mod_lt _ (by decide)

section Overlay

variable {cells : List UInt8} {filled : Nat}

theorem overlay_of_le {input : List UInt8} (h : filled + input.length ≤ cells.length) :
    overlay cells filled input =
      cells.take filled ++ input ++ cells.drop (filled + input.length) := by
  have hfresh : input.take (cells.length - filled) = input := List.take_of_length_le (by omega)
  rw [overlay, hfresh]

theorem take_overlay {input : List UInt8} (h : filled + input.length ≤ cells.length) :
    (overlay cells filled input).take (filled + input.length) = cells.take filled ++ input := by
  have hfront : (cells.take filled ++ input).length = filled + input.length := by
    rw [List.length_append, List.length_take]
    omega
  rw [overlay_of_le h, List.take_left' hfront]

theorem overlay_append_of_le {xs : List UInt8} (ys : List UInt8)
    (h : cells.length ≤ filled + xs.length) :
    overlay cells filled (xs ++ ys) = overlay cells filled xs := by
  rw [overlay, List.take_append_of_le_length (by omega), overlay]

theorem room_append_of_le {xs : List UInt8} (ys : List UInt8)
    (h : cells.length ≤ filled + xs.length) :
    room cells filled (xs ++ ys) = room cells filled xs := by
  rw [room, List.take_append_of_le_length (by omega), room]

/-- Cells filled in two goes are filled as in one. -/
theorem overlay_overlay {xs : List UInt8} (ys : List UInt8)
    (h : filled + xs.length ≤ cells.length) :
    overlay (overlay cells filled xs) (filled + xs.length) ys =
      overlay cells filled (xs ++ ys) := by
  have hlen : (overlay cells filled xs).length = cells.length := length_overlay xs (by omega)
  have hfront : (cells.take filled ++ xs).length = filled + xs.length := by
    rw [List.length_append, List.length_take]
    omega
  have hfresh : (xs ++ ys).take (cells.length - filled) =
      xs ++ ys.take (cells.length - (filled + xs.length)) := by
    rw [List.take_append, List.take_of_length_le (by omega), Nat.sub_sub]
  have hdrop (k : Nat) : (overlay cells filled xs).drop (filled + xs.length + k) =
      cells.drop (filled + xs.length + k) := by
    rw [overlay_of_le h, ← List.drop_drop, List.drop_left' hfront, List.drop_drop]
  rw [overlay, hlen, take_overlay h, hdrop, overlay, hfresh]
  simp only [List.append_assoc, List.length_append, Nat.add_assoc]

theorem room_overlay {xs : List UInt8} (ys : List UInt8)
    (h : filled + xs.length ≤ cells.length) :
    xs.length + room (overlay cells filled xs) (filled + xs.length) ys =
      room cells filled (xs ++ ys) := by
  have hlen : (overlay cells filled xs).length = cells.length := length_overlay xs (by omega)
  rw [room_eq, room_eq, hlen, List.length_append]
  omega

theorem overlay_of_length_eq {input : List UInt8} (h : input.length = cells.length) :
    overlay cells 0 input = input := by
  rw [overlay_of_le (by omega), List.drop_of_length_le (by omega), List.take_zero,
    List.nil_append, List.append_nil]

theorem room_of_length_eq {input : List UInt8} (h : input.length = cells.length) :
    room cells 0 input = input.length := by
  rw [room_eq]
  omega

end Overlay

/-- First the one, then from the reader it leaves the other. -/
def Progress.andThen (p : Progress) (more : Reader → Progress) : Progress :=
  let q := more p.reader
  ⟨q.reader, p.notices ++ q.notices, p.taken + q.taken⟩

@[simp] theorem Progress.andThen_assoc (p : Progress) (f g : Reader → Progress) :
    (p.andThen f).andThen g = p.andThen fun r => (f r).andThen g := by
  simp [andThen, Nat.add_assoc]

@[simp] theorem Progress.andThen_nothing (p : Progress) :
    (p.andThen fun r => ⟨r, [], 0⟩) = p := by
  simp [andThen]

namespace Reader

structure Sound (r : Reader) : Prop where
  headerCells : r.headerCells.length = headerLength
  deltaCells : r.deltaCells.length = deltaLength
  phase : r.phase.Sound r.maxFrameSize r.filled

def need (r : Reader) : Nat :=
  match r.phase with
  | .header => headerLength - r.filled
  | .update _ => deltaLength - r.filled
  | .skip _ remaining => remaining
  | .failed => 0

theorem sound_start (maxFrameSize : UInt32) : (start maxFrameSize).Sound :=
  ⟨rfl, rfl, (by decide : 0 < headerLength)⟩

theorem Sound.reset {r : Reader} (hr : r.Sound) : r.reset.Sound :=
  ⟨hr.headerCells, hr.deltaCells, (by decide : 0 < headerLength)⟩

theorem Sound.giveUp {r : Reader} (hr : r.Sound) (h : r.filled = 0) (code : ErrorCode)
    (flaw : Flaw) : (r.giveUp code flaw).1.Sound :=
  ⟨hr.headerCells, hr.deltaCells, h⟩

theorem need_pos {r : Reader} (hr : r.Sound) (hf : r.isFailed = false) : 0 < r.need := by
  have hp := hr.phase
  cases h : r.phase with
  | header =>
      rw [h] at hp
      simpa [need, h] using Nat.sub_pos_of_lt hp
  | update header =>
      rw [h] at hp
      simpa [need, h] using Nat.sub_pos_of_lt hp.1
  | skip header remaining =>
      rw [h] at hp
      simpa [need, h] using hp.2.2.1
  | failed => simp [isFailed, h] at hf

/-- Acting on a header leaves a reader sound whose cells are all free again. -/
theorem Sound.openFrame {r : Reader} (hr : r.Sound) (hfilled : r.filled = 0) {h : Header}
    (hlength : h.length.toNat < 16777216) (hstream : h.stream.toNat < 2147483648) :
    (r.openFrame h).1.Sound := by
  unfold Reader.openFrame
  split
  · exact hr.giveUp hfilled _ _
  · rename_i hle
    have hadmitted : h.Admitted r.maxFrameSize := ⟨UInt32.not_lt.mp hle, hlength, hstream⟩
    split
    · rename_i htype
      split
      · rename_i hdelta
        refine ⟨hr.headerCells, hr.deltaCells, ?_, htype, hdelta, hadmitted⟩
        rw [hfilled]
        decide
      · exact hr.giveUp hfilled _ _
    · rename_i htype
      split
      · exact hr
      · rename_i hzero
        have hpos : 0 < h.length.toNat :=
          Nat.pos_of_ne_zero fun he => hzero (UInt32.toNat_inj.mp he)
        exact ⟨hr.headerCells, hr.deltaCells, hfilled, htype, hpos, Nat.le_refl _, hadmitted⟩

theorem Sound.closeUpdate {r : Reader} (hr : r.Sound) (hfilled : r.filled = 0) (h : Header) :
    (r.closeUpdate h).1.Sound := by
  unfold Reader.closeUpdate
  split
  · split
    · exact hr.giveUp hfilled _ _
    · exact hr
  · exact hr

/-! ## One turn -/

variable {r : Reader}

theorem maxFrameSize_openFrame (r : Reader) (header : Header) :
    (r.openFrame header).1.maxFrameSize = r.maxFrameSize := by
  rw [openFrame]
  split
  · rfl
  · split
    · split <;> rfl
    · split <;> rfl

theorem maxFrameSize_closeUpdate (r : Reader) (header : Header) :
    (r.closeUpdate header).1.maxFrameSize = r.maxFrameSize := by
  rw [closeUpdate]
  split
  · split <;> rfl
  · rfl

@[simp] theorem maxFrameSize_turn (r : Reader) (input : List UInt8) :
    (r.turn input).reader.maxFrameSize = r.maxFrameSize := by
  rw [turn]
  split
  · rfl
  · simp only [turnHeader]
    split
    · split
      · exact maxFrameSize_openFrame _ _
      · rfl
    · rfl
  · simp only [turnUpdate]
    split
    · exact maxFrameSize_closeUpdate _ _
    · rfl
  · simp only [turnSkip]
    split <;> rfl

theorem turnHeader_of_short (hr : r.Sound) {input : List UInt8}
    (h : r.filled + input.length < headerLength) :
    r.turnHeader input =
      ⟨{ r with
        headerCells := overlay r.headerCells r.filled input
        filled := r.filled + input.length }, [], input.length⟩ := by
  have hroom : room r.headerCells r.filled input = input.length := by
    rw [room_eq, hr.headerCells]
    omega
  have hne : ¬ r.filled + input.length = headerLength := by omega
  simp only [turnHeader, hroom, if_neg hne]

/-- The octets that make a header whole bring the reader to act on it. -/
theorem turnHeader_of_parse? (hr : r.Sound) {input : List UInt8} (hfilled : r.filled < headerLength)
    (h : headerLength ≤ r.filled + input.length) {header : Header}
    (hparse : Header.parse? (overlay r.headerCells r.filled input) = some header) :
    r.turnHeader input =
      let opened := { r with
        headerCells := overlay r.headerCells r.filled input, filled := 0 }.openFrame header
      ⟨opened.1, opened.2, headerLength - r.filled⟩ := by
  have hroom : room r.headerCells r.filled input = headerLength - r.filled := by
    rw [room_eq, hr.headerCells]
    omega
  have hfull : r.filled + (headerLength - r.filled) = headerLength := by omega
  simp only [turnHeader, hroom, hfull, if_true, hparse]

theorem turnHeader_of_full (hr : r.Sound) {input : List UInt8} (hfilled : r.filled < headerLength)
    (h : headerLength ≤ r.filled + input.length) :
    ∃ header : Header,
      header.length.toNat < 16777216 ∧ header.stream.toNat < 2147483648 ∧
      r.turnHeader input =
        let opened := { r with
          headerCells := overlay r.headerCells r.filled input, filled := 0 }.openFrame header
        ⟨opened.1, opened.2, headerLength - r.filled⟩ := by
  have hcells : (overlay r.headerCells r.filled input).length = headerLength := by
    rw [length_overlay input (by rw [hr.headerCells]; omega), hr.headerCells]
  obtain ⟨header, hparse, hlength, hstream⟩ := Header.exists_parse? hcells
  exact ⟨header, hlength, hstream, turnHeader_of_parse? hr hfilled h hparse⟩

theorem turnUpdate_of_short (hr : r.Sound) (header : Header) {input : List UInt8}
    (h : r.filled + input.length < deltaLength) :
    r.turnUpdate header input =
      ⟨{ r with
        deltaCells := overlay r.deltaCells r.filled input
        filled := r.filled + input.length }, [], input.length⟩ := by
  have hroom : room r.deltaCells r.filled input = input.length := by
    rw [room_eq, hr.deltaCells]
    omega
  have hne : ¬ r.filled + input.length = deltaLength := by omega
  simp only [turnUpdate, hroom, if_neg hne]

theorem turnUpdate_of_full (hr : r.Sound) (header : Header) {input : List UInt8}
    (hfilled : r.filled < deltaLength) (h : deltaLength ≤ r.filled + input.length) :
    r.turnUpdate header input =
      let closed := { r with
        deltaCells := overlay r.deltaCells r.filled input
        filled := 0, phase := .header }.closeUpdate header
      ⟨closed.1, closed.2, deltaLength - r.filled⟩ := by
  have hroom : room r.deltaCells r.filled input = deltaLength - r.filled := by
    rw [room_eq, hr.deltaCells]
    omega
  have hfull : r.filled + (deltaLength - r.filled) = deltaLength := by omega
  simp only [turnUpdate, hroom, hfull, if_true]

theorem turnSkip_of_short (header : Header) {remaining : Nat} {input : List UInt8}
    (h : input.length < remaining) :
    r.turnSkip header remaining input =
      ⟨{ r with phase := .skip header (remaining - input.length) }, [], input.length⟩ := by
  have htake : input.take remaining = input := List.take_of_length_le (by omega)
  simp only [turnSkip, htake, if_neg (Nat.ne_of_lt h)]

theorem turnSkip_of_full (header : Header) {remaining : Nat} {input : List UInt8}
    (h : remaining ≤ input.length) :
    r.turnSkip header remaining input =
      ⟨{ r with phase := .header }, [.skipped header], remaining⟩ := by
  have htake : (input.take remaining).length = remaining := List.length_take_of_le h
  simp only [turnSkip, htake, if_true]

theorem turnHeader_append (hr : r.Sound) {xs : List UInt8} (ys : List UInt8)
    (h : r.filled + xs.length < headerLength) :
    r.turnHeader (xs ++ ys) = (r.turnHeader xs).andThen fun next => next.turnHeader ys := by
  have hle : r.filled + xs.length ≤ r.headerCells.length := by
    rw [hr.headerCells]
    omega
  have hroom := room_overlay ys hle
  rw [turnHeader_of_short hr h]
  simp only [turnHeader, Progress.andThen, List.nil_append, overlay_overlay ys hle, Nat.add_assoc,
    hroom]
  split
  · split <;> simp only [hroom]
  · simp only [hroom]

theorem turnUpdate_append (hr : r.Sound) (header : Header) {xs : List UInt8} (ys : List UInt8)
    (h : r.filled + xs.length < deltaLength) :
    r.turnUpdate header (xs ++ ys) =
      (r.turnUpdate header xs).andThen fun next => next.turnUpdate header ys := by
  have hle : r.filled + xs.length ≤ r.deltaCells.length := by
    rw [hr.deltaCells]
    omega
  have hroom := room_overlay ys hle
  rw [turnUpdate_of_short hr header h]
  simp only [turnUpdate, Progress.andThen, List.nil_append, overlay_overlay ys hle, Nat.add_assoc,
    hroom]
  split <;> simp only [hroom]

theorem turnSkip_append (header : Header) {remaining : Nat} {xs : List UInt8} (ys : List UInt8)
    (h : xs.length < remaining) :
    r.turnSkip header remaining (xs ++ ys) =
      (r.turnSkip header remaining xs).andThen fun next =>
        next.turnSkip header (remaining - xs.length) ys := by
  have htake : (xs ++ ys).take remaining = xs ++ ys.take (remaining - xs.length) := by
    rw [List.take_append, List.take_of_length_le (by omega)]
  rw [turnSkip_of_short header h]
  simp only [turnSkip, Progress.andThen, List.nil_append, htake, List.length_append]
  by_cases hfull : (ys.take (remaining - xs.length)).length = remaining - xs.length
  · have hsum : xs.length + (remaining - xs.length) = remaining := by omega
    simp only [hfull, hsum, if_true]
  · have hsum : ¬ xs.length + (ys.take (remaining - xs.length)).length = remaining := by omega
    simp only [if_neg hfull, if_neg hsum, Nat.sub_sub]

/-- Input that falls short of the need is taken whole, and the turn goes on with more input as
if there had been no cut. -/
theorem turn_of_lt_need (hr : r.Sound) {xs : List UInt8} (h : xs.length < r.need) :
    (r.turn xs).taken = xs.length ∧ (r.turn xs).notices = [] ∧ (r.turn xs).reader.Sound ∧
      ∀ ys, r.turn (xs ++ ys) = (r.turn xs).andThen fun next => next.turn ys := by
  have hp := hr.phase
  cases hphase : r.phase with
  | header =>
      have hlt : r.filled + xs.length < headerLength := by
        simp only [need, hphase] at h
        omega
      have hcells := length_overlay xs (show r.filled ≤ r.headerCells.length by
        rw [hr.headerCells]
        omega)
      simp only [turn, hphase]
      refine ⟨?_, ?_, ?_, fun ys => ?_⟩
      · rw [turnHeader_of_short hr hlt]
      · rw [turnHeader_of_short hr hlt]
      · rw [turnHeader_of_short hr hlt]
        refine ⟨hcells.trans hr.headerCells, hr.deltaCells, ?_⟩
        simp only [hphase]
        exact hlt
      · rw [turnHeader_append hr ys hlt, turnHeader_of_short hr hlt]
        simp only [Progress.andThen, hphase]
  | update header =>
      rw [hphase] at hp
      have hlt : r.filled + xs.length < deltaLength := by
        simp only [need, hphase] at h
        omega
      have hcells := length_overlay xs (show r.filled ≤ r.deltaCells.length by
        rw [hr.deltaCells]
        omega)
      simp only [turn, hphase]
      refine ⟨?_, ?_, ?_, fun ys => ?_⟩
      · rw [turnUpdate_of_short hr header hlt]
      · rw [turnUpdate_of_short hr header hlt]
      · rw [turnUpdate_of_short hr header hlt]
        refine ⟨hr.headerCells, hcells.trans hr.deltaCells, ?_⟩
        simp only [hphase]
        exact ⟨hlt, hp.2⟩
      · rw [turnUpdate_append hr header ys hlt, turnUpdate_of_short hr header hlt]
        simp only [Progress.andThen, hphase]
  | skip header remaining =>
      rw [hphase] at hp
      have hlt : xs.length < remaining := by simpa only [need, hphase] using h
      simp only [turn, hphase]
      refine ⟨?_, ?_, ?_, fun ys => ?_⟩
      · rw [turnSkip_of_short header hlt]
      · rw [turnSkip_of_short header hlt]
      · rw [turnSkip_of_short header hlt]
        obtain ⟨hfilled, htype, hpos, hle, hadmitted⟩ := hp
        exact ⟨hr.headerCells, hr.deltaCells, hfilled, htype, Nat.sub_pos_of_lt hlt,
          Nat.le_trans (Nat.sub_le _ _) hle, hadmitted⟩
      · rw [turnSkip_append header ys hlt, turnSkip_of_short header hlt]
        simp only [Progress.andThen]
  | failed => simp [need, hphase] at h

/-- Input that covers the need is taken as far as the need goes; what lies behind it is not
looked at. -/
theorem turn_of_need_le (hr : r.Sound) {xs : List UInt8} (h : r.need ≤ xs.length) :
    (r.turn xs).taken = r.need ∧ (r.turn xs).reader.Sound ∧
      ∀ ys, r.turn (xs ++ ys) = r.turn xs := by
  have hp := hr.phase
  cases hphase : r.phase with
  | header =>
      rw [hphase] at hp
      have hle : headerLength ≤ r.filled + xs.length := by
        simp only [need, hphase] at h
        omega
      have hroom : r.headerCells.length ≤ r.filled + xs.length := hr.headerCells.symm ▸ hle
      have hcells := length_overlay xs (show r.filled ≤ r.headerCells.length by
        rw [hr.headerCells]
        exact Nat.le_of_lt hp)
      obtain ⟨header, hlength, hstream, hturn⟩ := turnHeader_of_full hr hp hle
      simp only [turn, hphase, need]
      refine ⟨by rw [hturn], ?_, fun ys => ?_⟩
      · have hfull : Sound { r with
            headerCells := overlay r.headerCells r.filled xs, filled := 0 } := by
          refine ⟨hcells.trans hr.headerCells, hr.deltaCells, ?_⟩
          simp only [hphase]
          exact (by decide : 0 < headerLength)
        rw [hturn]
        exact hfull.openFrame rfl hlength hstream
      · simp only [turnHeader, overlay_append_of_le ys hroom, room_append_of_le ys hroom]
  | update header =>
      rw [hphase] at hp
      have hle : deltaLength ≤ r.filled + xs.length := by
        simp only [need, hphase] at h
        omega
      have hroom : r.deltaCells.length ≤ r.filled + xs.length := hr.deltaCells.symm ▸ hle
      have hcells := length_overlay xs (show r.filled ≤ r.deltaCells.length by
        rw [hr.deltaCells]
        exact Nat.le_of_lt hp.1)
      have hturn := turnUpdate_of_full hr header hp.1 hle
      simp only [turn, hphase, need]
      refine ⟨by rw [hturn], ?_, fun ys => ?_⟩
      · have hfull : Sound { r with
            deltaCells := overlay r.deltaCells r.filled xs, filled := 0, phase := .header } :=
          ⟨hr.headerCells, hcells.trans hr.deltaCells, (by decide : 0 < headerLength)⟩
        rw [hturn]
        exact hfull.closeUpdate rfl header
      · simp only [turnUpdate, overlay_append_of_le ys hroom, room_append_of_le ys hroom]
  | skip header remaining =>
      rw [hphase] at hp
      have hle : remaining ≤ xs.length := by simpa only [need, hphase] using h
      have hturn := turnSkip_of_full (r := r) header hle
      simp only [turn, hphase, need]
      refine ⟨by rw [hturn], ?_, fun ys => ?_⟩
      · rw [hturn]
        refine ⟨hr.headerCells, hr.deltaCells, ?_⟩
        change r.filled < headerLength
        rw [hp.1]
        decide
      · simp only [turnSkip, List.take_append_of_le_length hle]
  | failed =>
      simp only [turn, hphase, need]
      exact ⟨trivial, hr, fun _ => trivial⟩

end Reader

end OneShot.Wire
