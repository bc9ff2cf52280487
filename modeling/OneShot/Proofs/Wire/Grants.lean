import OneShot.Proofs.Wire.RoundTrip

/-!
# Updates that grant nothing

The writer looks at the upper end of a delta only, the reader at the lower
end as well: to it an update of zero octets is a flaw, of the stream or of
the whole connection. Every other update that can be written is read as
itself.
-/

namespace OneShot.Wire

namespace WindowUpdate

variable {u : WindowUpdate}

/-- What a reader tells of an update that was written. -/
def notice (u : WindowUpdate) : Notice :=
  if u.delta = 0 then
    if u.stream = 0 then .connectionFailure .protocolError .windowUpdateFrame
    else .streamFailure u.stream .protocolError .windowUpdateFrame
  else .windowUpdate u

theorem notice_eq_windowUpdate_iff : u.notice = .windowUpdate u ↔ u.delta ≠ 0 := by
  constructor
  · intro h hzero
    rw [notice, if_pos hzero] at h
    split at h <;> nomatch h
  · intro hne
    rw [notice, if_neg hne]

theorem refusal?_eq_none_iff :
    u.refusal? = none ↔ u.stream.toNat < 2147483648 ∧ u.delta.toNat < 2147483648 := by
  constructor
  · exact lt_of_refusal?_eq_none
  · rintro ⟨hstream, hdelta⟩
    rw [refusal?, if_neg (Nat.not_le_of_lt hstream), if_neg (Nat.not_le_of_lt hdelta)]

theorem frame_eq_ok_iff {octets : List UInt8} :
    u.frame = .ok octets ↔ u.refusal? = none ∧ u.encode = octets := by
  rw [frame_eq]
  cases u.refusal? with
  | none => simp
  | some refusal => simp

/-- A reader between two frames takes an update that was written as a whole; only one for the
connection that grants nothing makes it fail. -/
theorem feed_encode {r : Reader} (hr : r.BetweenFrames) (hmax : 4 ≤ r.maxFrameSize)
    (h : u.refusal? = none) :
    ∃ next : Reader, r.feed u.encode = ⟨next, [u.notice], 13⟩ ∧
      (next.isFailed = true ↔ u.stream = 0 ∧ u.delta = 0) := by
  obtain ⟨next, hnext, -, hfeed⟩ := feed_encode_append hr hmax h []
  rw [List.append_nil] at hfeed
  have hsound : next.isFailed = false := by
    rw [Reader.isFailed, hnext.phase_eq]
    rfl
  by_cases hzero : u.delta = 0
  · by_cases hstream : u.stream = 0
    · refine ⟨{ next with phase := .failed }, ?_, ?_⟩
      · rw [hfeed, if_pos hzero, if_pos hstream, notice, if_pos hzero, if_pos hstream]
      · exact iff_of_true rfl ⟨hstream, hzero⟩
    · refine ⟨next, ?_, ?_⟩
      · rw [hfeed, if_pos hzero, if_neg hstream, notice, if_pos hzero, if_neg hstream]
        simp [Progress.andThen]
      · rw [hsound]
        simp [hstream]
  · refine ⟨next, ?_, ?_⟩
    · rw [hfeed, if_neg hzero, notice, if_neg hzero]
      simp [Progress.andThen]
    · rw [hsound]
      simp [hzero]

/-- An update is written as a frame exactly if both its numbers leave the reserved bit alone.
However the frame is cut, a new reader takes all of it and tells of one thing. That is the update,
and the reader has not failed, exactly if the update grants anything; only an update of the
connection that grants nothing makes the reader fail. -/
theorem feedAll_frame (u : WindowUpdate) {maxFrameSize : UInt32} (hmax : 4 ≤ maxFrameSize) :
    ((∃ octets, u.frame = .ok octets) ↔ u.stream.toNat < 2 ^ 31 ∧ u.delta.toNat < 2 ^ 31) ∧
    ∀ octets, u.frame = .ok octets →
      ∀ slices : List (List UInt8), slices.flatten = octets →
        ∃ reader counts,
          (Reader.start maxFrameSize).feedAll slices = (reader, [u.notice], counts) ∧
          counts.sum = octets.length ∧
          (u.notice = .windowUpdate u ∧ reader.isFailed = false ↔ u.delta ≠ 0) ∧
          (reader.isFailed = true ↔ u.stream = 0 ∧ u.delta = 0) := by
  constructor
  · refine Iff.trans ?_ refusal?_eq_none_iff
    constructor
    · rintro ⟨octets, hframe⟩
      exact (frame_eq_ok_iff.mp hframe).1
    · intro h
      exact ⟨u.encode, frame_eq_ok_iff.mpr ⟨h, rfl⟩⟩
  · intro octets hframe slices hslices
    obtain ⟨hrefusal, hencode⟩ := frame_eq_ok_iff.mp hframe
    obtain ⟨last, hfeed, hfailed⟩ :=
      feed_encode (Reader.betweenFrames_start maxFrameSize) hmax hrefusal
    obtain ⟨hreader, hnotices, hcounts⟩ :=
      Reader.feedAll_eq_feed (Reader.sound_start maxFrameSize) slices
    rw [hslices, ← hencode, hfeed] at hreader hnotices hcounts
    refine ⟨last, _, Prod.ext hreader (Prod.ext hnotices rfl), ?_, ?_, hfailed⟩
    · rw [hcounts, ← hencode]
      rfl
    · constructor
      · rintro ⟨hnotice, -⟩
        exact notice_eq_windowUpdate_iff.mp hnotice
      · intro hdelta
        refine ⟨notice_eq_windowUpdate_iff.mpr hdelta, ?_⟩
        rw [← Bool.not_eq_true, hfailed]
        exact fun h => hdelta h.2

/-- The largest update of the last stream, an octet at a time. -/
theorem feedAll_frame_largest :
    frame ⟨2147483647, 2147483647⟩ =
        .ok [0, 0, 4, 8, 0, 127, 255, 255, 255, 127, 255, 255, 255] ∧
      (4 : UInt32) ≤ 4 ∧
      ∃ reader counts,
        (Reader.start 4).feedAll
            [[0], [0], [4], [8], [0], [127], [255], [255], [255], [127], [255], [255], [255]] =
          (reader, [.windowUpdate ⟨2147483647, 2147483647⟩], counts) ∧
        counts.sum = 13 ∧ reader.isFailed = false := by
  have hframe : frame ⟨2147483647, 2147483647⟩ =
      .ok [0, 0, 4, 8, 0, 127, 255, 255, 255, 127, 255, 255, 255] := by rfl
  have hmax : (4 : UInt32) ≤ 4 := by decide
  obtain ⟨reader, counts, hfed, hsum, htold, -⟩ :=
    (feedAll_frame ⟨2147483647, 2147483647⟩ hmax).2 _ hframe
      [[0], [0], [4], [8], [0], [127], [255], [255], [255], [127], [255], [255], [255]] rfl
  obtain ⟨hnotice, hfailed⟩ := htold.mpr (by decide)
  rw [hnotice] at hfed
  exact ⟨hframe, hmax, reader, counts, hfed, hsum, hfailed⟩

/-- An update of the connection that grants nothing is written, and what was written makes a new
reader fail instead of telling it the update. -/
theorem not_feedAll_frame_windowUpdate :
    ¬ ∀ (u : WindowUpdate) (octets : List UInt8), u.frame = .ok octets →
      ∀ maxFrameSize : UInt32, 4 ≤ maxFrameSize →
        ∃ reader counts,
          (Reader.start maxFrameSize).feedAll [octets] = (reader, [.windowUpdate u], counts) ∧
          reader.isFailed = false := by
  intro h
  have hframe : frame ⟨0, 0⟩ = .ok [0, 0, 4, 8, 0, 0, 0, 0, 0, 0, 0, 0, 0] := by rfl
  obtain ⟨reader, counts, hfed, -⟩ := h ⟨0, 0⟩ _ hframe initialMaxFrameSize (by decide)
  have htold : ((Reader.start initialMaxFrameSize).feedAll
      [[0, 0, 4, 8, 0, 0, 0, 0, 0, 0, 0, 0, 0]]).2.1 =
        [.connectionFailure .protocolError .windowUpdateFrame] := by
    decide +kernel
  rw [hfed] at htold
  nomatch htold

end WindowUpdate

end OneShot.Wire
