import OneShot.Proofs.Wire.Slices

/-!
# Frames in a buffer

The stream of frames as it is defined: a buffer is decoded frame by frame,
each looked at as a whole. The reader, which sees the same octets through
its phases and cells, gives the same notices and takes the same octets.
-/

namespace OneShot.Wire

/-- The number that octets spell, the highest first. -/
def bigEndian (octets : List UInt8) : Nat :=
  octets.foldl (fun n octet => n * 256 + octet.toNat) 0

/-- What a buffer holds: the notices to be given, and the number of octets
they account for. -/
structure Decoded where
  notices : List Notice := []
  taken : Nat := 0
  deriving DecidableEq

/-- One notice about the first `taken` octets, then the rest. -/
def Decoded.after (notice : Notice) (taken : Nat) (rest : Decoded) : Decoded :=
  ⟨notice :: rest.notices, taken + rest.taken⟩

/-- Decodes a buffer frame by frame. A frame that is not there as a whole
is left without a notice, but its octets are taken; after a connection
failure nothing more is. -/
def decode (maxFrameSize : UInt32) : List UInt8 → Decoded
  | l₀ :: l₁ :: l₂ :: type :: flags :: s₀ :: s₁ :: s₂ :: s₃ :: rest =>
      let length := bigEndian [l₀, l₁, l₂]
      let stream := UInt32.ofNat (bigEndian [s₀, s₁, s₂, s₃] % 2147483648)
      let payload := rest.take length
      let delta := UInt32.ofNat (bigEndian payload % 2147483648)
      if maxFrameSize.toNat < length then
        ⟨[.connectionFailure .frameSizeError .frameLength], 9⟩
      else if type = 8 ∧ length ≠ 4 then
        ⟨[.connectionFailure .frameSizeError .windowUpdateFrame], 9⟩
      else if rest.length < length then
        ⟨[], 9 + rest.length⟩
      else if type = 8 ∧ delta ≠ 0 then
        (decode maxFrameSize (rest.drop length)).after (.windowUpdate ⟨stream, delta⟩) (9 + length)
      else if type = 8 ∧ stream = 0 then
        ⟨[.connectionFailure .protocolError .windowUpdateFrame], 9 + length⟩
      else if type = 8 then
        (decode maxFrameSize (rest.drop length)).after
          (.streamFailure stream .protocolError .windowUpdateFrame) (9 + length)
      else
        (decode maxFrameSize (rest.drop length)).after
          (.skipped ⟨UInt32.ofNat length, type, flags, stream⟩) (9 + length)
  | short => ⟨[], short.length⟩
termination_by input => input.length
decreasing_by all_goals (simp only [List.length_drop, List.length_cons]; omega)

theorem word_eq_bigEndian (a b c d : UInt8) :
    word a b c d = UInt32.ofNat (bigEndian [a, b, c, d]) := by
  have h : bigEndian [a, b, c, d] =
      a.toNat * 16777216 + b.toNat * 65536 + c.toNat * 256 + d.toNat := by
    simp only [bigEndian, List.foldl_cons, List.foldl_nil]
    omega
  rw [h, word]

theorem clearReserved_ofNat (n : Nat) :
    clearReserved (UInt32.ofNat n) = UInt32.ofNat (n % 2147483648) := by
  apply UInt32.toNat_inj.mp
  rw [toNat_clearReserved, UInt32.toNat_ofNat', UInt32.toNat_ofNat']
  omega

theorem Header.parse?_eq_bigEndian (l₀ l₁ l₂ type flags s₀ s₁ s₂ s₃ : UInt8) :
    Header.parse? [l₀, l₁, l₂, type, flags, s₀, s₁, s₂, s₃] =
      some ⟨UInt32.ofNat (bigEndian [l₀, l₁, l₂]), type, flags,
        UInt32.ofNat (bigEndian [s₀, s₁, s₂, s₃] % 2147483648)⟩ := by
  have hlength : word 0 l₀ l₁ l₂ = UInt32.ofNat (bigEndian [l₀, l₁, l₂]) := by
    rw [word_eq_bigEndian]
    simp [bigEndian]
  rw [Header.parse?, hlength, word_eq_bigEndian, clearReserved_ofNat]

@[simp] theorem toNat_ofNat_bigEndian (l₀ l₁ l₂ : UInt8) :
    (UInt32.ofNat (bigEndian [l₀, l₁, l₂])).toNat = bigEndian [l₀, l₁, l₂] := by
  have h₀ := l₀.toNat_lt
  have h₁ := l₁.toNat_lt
  have h₂ := l₂.toNat_lt
  apply UInt32.toNat_ofNat_of_lt'
  simp only [bigEndian, List.foldl_cons, List.foldl_nil, UInt32.size]
  omega

theorem lt_ofNat_bigEndian_iff {n maxFrameSize : UInt32} (h : n = maxFrameSize)
    (l₀ l₁ l₂ : UInt8) :
    n < UInt32.ofNat (bigEndian [l₀, l₁, l₂]) ↔ maxFrameSize.toNat < bigEndian [l₀, l₁, l₂] := by
  rw [UInt32.lt_iff_toNat_lt, toNat_ofNat_bigEndian, h]

namespace Reader

variable {r : Reader}

/-- A reader that stands between two frames. -/
structure BetweenFrames (r : Reader) : Prop extends r.Sound where
  phase_eq : r.phase = .header
  filled_eq : r.filled = 0

theorem betweenFrames_start (maxFrameSize : UInt32) : (start maxFrameSize).BetweenFrames :=
  ⟨sound_start maxFrameSize, rfl, rfl⟩

theorem feed_of_lt_need (hr : r.Sound) {input : List UInt8} (h : input.length < r.need) :
    (r.feed input).notices = [] ∧ (r.feed input).taken = input.length := by
  by_cases hne : input = []
  · simp [hne]
  · obtain ⟨htaken, hnotices, -, -⟩ := turn_of_lt_need hr h
    rw [feed_eq_turn hr hne, htaken, List.drop_length]
    simp [Progress.andThen, htaken, hnotices]

theorem feed_append_of_eq_need (hr : r.Sound) {xs : List UInt8} (hne : xs ≠ [])
    (h : xs.length = r.need) (ys : List UInt8) :
    r.feed (xs ++ ys) = (r.turn xs).andThen fun next => next.feed ys := by
  have hfeed : r.feed xs = r.turn xs := by
    rw [feed_eq_turn hr hne, (turn_of_need_le hr (Nat.le_of_eq h.symm)).1, ← h, List.drop_length]
    simp [Progress.andThen]
  rw [feed_append hr, hfeed]

/-- A whole header between two frames is acted on at once, whatever was left in the cells. -/
theorem feed_header (hr : r.BetweenFrames) {head : List UInt8} {h : Header}
    (hlen : head.length = headerLength) (hparse : Header.parse? head = some h)
    (rest : List UInt8) :
    r.feed (head ++ rest) =
      let opened := { r with headerCells := head }.openFrame h
      (⟨opened.1, opened.2, 9⟩ : Progress).andThen fun next => next.feed rest := by
  have hneed : head.length = r.need := by
    simp only [need, hr.phase_eq, hr.filled_eq, hlen, Nat.sub_zero]
  have hne : head ≠ [] := by
    intro he
    rw [he] at hlen
    exact absurd hlen (by decide)
  have hcells : head.length = r.headerCells.length := hlen.trans hr.headerCells.symm
  have hturn : r.turn head =
      let opened := { r with headerCells := head }.openFrame h
      ⟨opened.1, opened.2, 9⟩ := by
    simp only [turn, hr.phase_eq, turnHeader, hr.filled_eq, overlay_of_length_eq hcells,
      room_of_length_eq hcells, hlen, hparse, Nat.zero_add, if_true]
    rfl
  rw [feed_append_of_eq_need hr.toSound hne hneed, hturn]

theorem delta_eq_bigEndian (h : r.deltaCells.length = deltaLength) :
    r.delta = UInt32.ofNat (bigEndian r.deltaCells % 2147483648) := by
  match hcells : r.deltaCells, h with
  | [a, b, c, d], _ =>
      simp only [delta, hcells]
      rw [word_eq_bigEndian, clearReserved_ofNat]

theorem feed_update (hr : r.Sound) {h : Header} (hphase : r.phase = .update h)
    (hfilled : r.filled = 0) {payload : List UInt8} (hlen : payload.length = deltaLength)
    (rest : List UInt8) :
    r.feed (payload ++ rest) =
      let closed := { r with deltaCells := payload, phase := .header }.closeUpdate h
      (⟨closed.1, closed.2, 4⟩ : Progress).andThen fun next => next.feed rest := by
  have hneed : payload.length = r.need := by
    simp only [need, hphase, hfilled, hlen, Nat.sub_zero]
  have hne : payload ≠ [] := by
    intro he
    rw [he] at hlen
    exact absurd hlen (by decide)
  have hcells : payload.length = r.deltaCells.length := hlen.trans hr.deltaCells.symm
  have hturn : r.turn payload =
      let closed := { r with deltaCells := payload, phase := .header }.closeUpdate h
      ⟨closed.1, closed.2, 4⟩ := by
    simp only [turn, hphase, turnUpdate, hfilled, overlay_of_length_eq hcells,
      room_of_length_eq hcells, hlen, Nat.zero_add, if_true]
    rfl
  rw [feed_append_of_eq_need hr hne hneed, hturn]

theorem feed_skip (hr : r.Sound) {h : Header} {payload : List UInt8}
    (hphase : r.phase = .skip h payload.length) (rest : List UInt8) :
    r.feed (payload ++ rest) =
      (⟨{ r with phase := .header }, [.skipped h], payload.length⟩ : Progress).andThen
        fun next => next.feed rest := by
  have hpos := hr.phase
  rw [hphase] at hpos
  have hneed : payload.length = r.need := by simp only [need, hphase]
  rw [feed_append_of_eq_need hr (List.length_pos_iff.mp hpos.2.2.1) hneed]
  simp only [turn, hphase, turnSkip_of_full h (Nat.le_refl payload.length)]

/-! ## Whole frames -/

section Frame

variable {head : List UInt8} {h : Header}

theorem sound_openFrame (hr : r.BetweenFrames) (hlen : head.length = headerLength)
    (hparse : Header.parse? head = some h) :
    ({ r with headerCells := head }.openFrame h).1.Sound := by
  have hr' : Sound { r with headerCells := head } := ⟨hlen, hr.deltaCells, hr.phase⟩
  obtain ⟨_, hparsed, hlength, hstream⟩ := Header.exists_parse? hlen
  obtain rfl : _ = h := Option.some.inj (hparsed.symm.trans hparse)
  exact hr'.openFrame hr.filled_eq hlength hstream

theorem feed_giveUp (r : Reader) (code : ErrorCode) (flaw : Flaw) (n : Nat) (rest : List UInt8) :
    ((⟨(r.giveUp code flaw).1, (r.giveUp code flaw).2, n⟩ : Progress).andThen fun next =>
      next.feed rest) = ⟨(r.giveUp code flaw).1, [.connectionFailure code flaw], n⟩ := by
  have hfailed : (r.giveUp code flaw).1.isFailed = true := rfl
  simp only [Progress.andThen, feed_of_isFailed hfailed]
  rfl

theorem feed_of_tooLong (hr : r.BetweenFrames) (hlen : head.length = headerLength)
    (hparse : Header.parse? head = some h) (hlong : r.maxFrameSize < h.length)
    (rest : List UInt8) :
    (r.feed (head ++ rest)).notices = [.connectionFailure .frameSizeError .frameLength] ∧
      (r.feed (head ++ rest)).taken = 9 := by
  rw [feed_header hr hlen hparse]
  simp only [openFrame, if_pos hlong, feed_giveUp]
  exact ⟨trivial, trivial⟩

variable (hr : r.BetweenFrames) (hlen : head.length = headerLength)
  (hparse : Header.parse? head = some h) (hle : ¬ r.maxFrameSize < h.length)

include hr hlen hparse hle

theorem feed_of_wrongSize (htype : h.type = FrameType.windowUpdate.code)
    (hsize : h.length.toNat ≠ deltaLength) (rest : List UInt8) :
    (r.feed (head ++ rest)).notices = [.connectionFailure .frameSizeError .windowUpdateFrame] ∧
      (r.feed (head ++ rest)).taken = 9 := by
  rw [feed_header hr hlen hparse]
  simp only [openFrame, if_neg hle, if_pos htype, if_neg hsize, feed_giveUp]
  exact ⟨trivial, trivial⟩

theorem feed_of_update (htype : h.type = FrameType.windowUpdate.code)
    (hsize : h.length.toNat = deltaLength) {rest : List UInt8} (hrest : deltaLength ≤ rest.length)
    {delta : UInt32}
    (hdelta : UInt32.ofNat (bigEndian (rest.take deltaLength) % 2147483648) = delta) :
    ∃ next : Reader, next.BetweenFrames ∧ next.maxFrameSize = r.maxFrameSize ∧
      r.feed (head ++ rest) =
        if delta = 0 then
          if h.stream = 0 then
            ⟨{ next with phase := .failed },
              [.connectionFailure .protocolError .windowUpdateFrame], 13⟩
          else
            (⟨next, [.streamFailure h.stream .protocolError .windowUpdateFrame], 13⟩ :
              Progress).andThen fun next => next.feed (rest.drop deltaLength)
        else
          (⟨next, [.windowUpdate ⟨h.stream, delta⟩], 13⟩ : Progress).andThen fun next =>
            next.feed (rest.drop deltaLength) := by
  have hpayload : (rest.take deltaLength).length = deltaLength := List.length_take_of_le hrest
  have hopen : { r with headerCells := head }.openFrame h =
      ({ r with headerCells := head, phase := .update h }, []) := by
    simp only [openFrame, if_neg hle, if_pos htype, if_pos hsize]
  have hsound := sound_openFrame hr hlen hparse
  rw [hopen] at hsound
  have hfeed := feed_update hsound rfl hr.filled_eq hpayload (rest.drop deltaLength)
  rw [List.take_append_drop] at hfeed
  let next : Reader := { r with
    headerCells := head, phase := .header, deltaCells := rest.take deltaLength }
  have hnext : next.BetweenFrames := by
    refine ⟨⟨hlen, hpayload, ?_⟩, rfl, hr.filled_eq⟩
    have h := hr.phase
    rwa [hr.phase_eq] at h
  have hclosed : r.feed (head ++ rest) =
      (⟨(next.closeUpdate h).1, (next.closeUpdate h).2, 13⟩ : Progress).andThen fun next =>
        next.feed (rest.drop deltaLength) := by
    rw [feed_header hr hlen hparse, hopen]
    simp only [Progress.andThen, hfeed, List.nil_append, ← Nat.add_assoc]
    rfl
  refine ⟨next, hnext, rfl, ?_⟩
  rw [hclosed, closeUpdate, (delta_eq_bigEndian hpayload).trans hdelta]
  by_cases hd : delta = 0
  · by_cases hs : h.stream = 0
    · simp only [if_pos hd, if_pos hs, feed_giveUp]
      rfl
    · simp only [if_pos hd, if_neg hs]
  · simp only [if_neg hd]

theorem feed_of_other (htype : h.type ≠ FrameType.windowUpdate.code) {rest : List UInt8}
    (hrest : h.length.toNat ≤ rest.length) :
    ∃ next : Reader, next.BetweenFrames ∧ next.maxFrameSize = r.maxFrameSize ∧
      r.feed (head ++ rest) =
        (⟨next, [.skipped h], 9 + h.length.toNat⟩ : Progress).andThen fun next =>
          next.feed (rest.drop h.length.toNat) := by
  refine ⟨{ r with headerCells := head },
    ⟨⟨hlen, hr.deltaCells, hr.phase⟩, hr.phase_eq, hr.filled_eq⟩, rfl, ?_⟩
  by_cases hzero : h.length = 0
  · have hopen : { r with headerCells := head }.openFrame h =
        ({ r with headerCells := head }, [.skipped h]) := by
      simp only [openFrame, if_neg hle, if_neg htype, if_pos hzero]
    rw [feed_header hr hlen hparse, hopen, hzero]
    rfl
  · have hopen : { r with headerCells := head }.openFrame h =
        ({ r with headerCells := head, phase := .skip h h.length.toNat }, []) := by
      simp only [openFrame, if_neg hle, if_neg htype, if_neg hzero]
    have hpayload : (rest.take h.length.toNat).length = h.length.toNat :=
      List.length_take_of_le hrest
    have hsound := sound_openFrame hr hlen hparse
    rw [hopen, ← hpayload] at hsound
    have hfeed := feed_skip hsound rfl (rest.drop h.length.toNat)
    rw [List.take_append_drop, hpayload] at hfeed
    rw [feed_header hr hlen hparse, hopen]
    simp only [Progress.andThen, hfeed, List.nil_append, Nat.add_assoc, hr.phase_eq]

/-- Of a frame that is not there as a whole, all that is there is taken. -/
theorem feed_of_incomplete
    (hsize : h.type = FrameType.windowUpdate.code → h.length.toNat = deltaLength)
    {rest : List UInt8} (hrest : rest.length < h.length.toNat) :
    (r.feed (head ++ rest)).notices = [] ∧ (r.feed (head ++ rest)).taken = 9 + rest.length := by
  have hsound := sound_openFrame hr hlen hparse
  by_cases htype : h.type = FrameType.windowUpdate.code
  · have hopen : { r with headerCells := head }.openFrame h =
        ({ r with headerCells := head, phase := .update h }, []) := by
      simp only [openFrame, if_neg hle, if_pos htype, if_pos (hsize htype)]
    have hneed : rest.length < need { r with headerCells := head, phase := .update h } := by
      simp only [need, hr.filled_eq]
      rw [hsize htype] at hrest
      exact hrest
    rw [hopen] at hsound
    rw [feed_header hr hlen hparse, hopen]
    obtain ⟨hnotices, htaken⟩ := feed_of_lt_need hsound hneed
    simp only [Progress.andThen, hnotices, htaken, List.nil_append, and_self]
  · have hzero : h.length ≠ 0 := by
      intro he
      rw [he] at hrest
      exact absurd hrest (Nat.not_lt_zero _)
    have hopen : { r with headerCells := head }.openFrame h =
        ({ r with headerCells := head, phase := .skip h h.length.toNat }, []) := by
      simp only [openFrame, if_neg hle, if_neg htype, if_neg hzero]
    rw [hopen] at hsound
    rw [feed_header hr hlen hparse, hopen]
    obtain ⟨hnotices, htaken⟩ := feed_of_lt_need hsound hrest
    simp only [Progress.andThen, hnotices, htaken, List.nil_append, and_self]

end Frame

theorem andThen_agree {p : Progress} {rest : List UInt8} {maxFrameSize : UInt32}
    {notice : Notice} (hnotices : p.notices = [notice])
    (h : (p.reader.feed rest).notices = (decode maxFrameSize rest).notices ∧
      (p.reader.feed rest).taken = (decode maxFrameSize rest).taken) :
    (p.andThen fun next => next.feed rest).notices =
        ((decode maxFrameSize rest).after notice p.taken).notices ∧
      (p.andThen fun next => next.feed rest).taken =
        ((decode maxFrameSize rest).after notice p.taken).taken := by
  simp only [Progress.andThen, Decoded.after, hnotices, h.1, h.2]
  exact ⟨rfl, trivial⟩

section Octets

variable {maxFrameSize : UInt32} {l₀ l₁ l₂ type flags s₀ s₁ s₂ s₃ : UInt8} {rest : List UInt8}
  {length : Nat} {stream : UInt32}

/-- A window update that is there as a whole, as the decoder takes it apart. -/
theorem feed_octets_of_update (hr : r.BetweenFrames) (hmax : r.maxFrameSize = maxFrameSize)
    (hlength : bigEndian [l₀, l₁, l₂] = length)
    (hstream : UInt32.ofNat (bigEndian [s₀, s₁, s₂, s₃] % 2147483648) = stream)
    {delta : UInt32} (hdelta : UInt32.ofNat (bigEndian (rest.take length) % 2147483648) = delta)
    (hle : ¬ maxFrameSize.toNat < length) (hsize : ¬(type = 8 ∧ length ≠ 4))
    (hrest : ¬ rest.length < length) (htype : type = 8) :
    ∃ next : Reader, next.BetweenFrames ∧ next.maxFrameSize = maxFrameSize ∧
      r.feed (l₀ :: l₁ :: l₂ :: type :: flags :: s₀ :: s₁ :: s₂ :: s₃ :: rest) =
        if delta = 0 then
          if stream = 0 then
            ⟨{ next with phase := .failed },
              [.connectionFailure .protocolError .windowUpdateFrame], 9 + length⟩
          else
            (⟨next, [.streamFailure stream .protocolError .windowUpdateFrame], 9 + length⟩ :
              Progress).andThen fun next => next.feed (rest.drop length)
        else
          (⟨next, [.windowUpdate ⟨stream, delta⟩], 9 + length⟩ : Progress).andThen fun next =>
            next.feed (rest.drop length) := by
  have hfour : length = 4 := Decidable.byContradiction fun hne => hsize ⟨htype, hne⟩
  subst hfour
  have hparse := Header.parse?_eq_bigEndian l₀ l₁ l₂ type flags s₀ s₁ s₂ s₃
  rw [hstream] at hparse
  have hlong := mt (lt_ofNat_bigEndian_iff hmax l₀ l₁ l₂).mp (hlength.symm ▸ hle)
  obtain ⟨next, hnext, hmax', hfeed⟩ := feed_of_update hr rfl hparse hlong htype
    ((toNat_ofNat_bigEndian l₀ l₁ l₂).trans hlength) (Nat.le_of_not_lt hrest) hdelta
  exact ⟨next, hnext, hmax'.trans hmax, hfeed⟩

theorem feed_octets_of_other (hr : r.BetweenFrames) (hmax : r.maxFrameSize = maxFrameSize)
    (hlength : bigEndian [l₀, l₁, l₂] = length)
    (hstream : UInt32.ofNat (bigEndian [s₀, s₁, s₂, s₃] % 2147483648) = stream)
    (hle : ¬ maxFrameSize.toNat < length) (hrest : ¬ rest.length < length) (htype : type ≠ 8) :
    ∃ next : Reader, next.BetweenFrames ∧ next.maxFrameSize = maxFrameSize ∧
      r.feed (l₀ :: l₁ :: l₂ :: type :: flags :: s₀ :: s₁ :: s₂ :: s₃ :: rest) =
        (⟨next, [.skipped ⟨UInt32.ofNat length, type, flags, stream⟩], 9 + length⟩ :
          Progress).andThen fun next => next.feed (rest.drop length) := by
  have hparse := Header.parse?_eq_bigEndian l₀ l₁ l₂ type flags s₀ s₁ s₂ s₃
  have hlong := mt (lt_ofNat_bigEndian_iff hmax l₀ l₁ l₂).mp (hlength.symm ▸ hle)
  have htoNat := (toNat_ofNat_bigEndian l₀ l₁ l₂).trans hlength
  rw [hlength] at htoNat hlong
  rw [hlength, hstream] at hparse
  obtain ⟨next, hnext, hmax', hfeed⟩ :=
    feed_of_other hr rfl hparse hlong htype (htoNat ▸ Nat.le_of_not_lt hrest)
  simp only [htoNat] at hfeed
  exact ⟨next, hnext, hmax'.trans hmax, hfeed⟩

end Octets

theorem feed_eq_decode (hr : r.BetweenFrames) {maxFrameSize : UInt32}
    (hmax : r.maxFrameSize = maxFrameSize) (input : List UInt8) :
    (r.feed input).notices = (decode maxFrameSize input).notices ∧
      (r.feed input).taken = (decode maxFrameSize input).taken := by
  -- The reader may have read other frames before: all that counts is that it stands between two.
  fun_induction decode maxFrameSize input generalizing r with
  | case1 l₀ l₁ l₂ type flags s₀ s₁ s₂ s₃ rest =>
      rename_i length hlong
      have hparse := Header.parse?_eq_bigEndian l₀ l₁ l₂ type flags s₀ s₁ s₂ s₃
      exact feed_of_tooLong hr rfl hparse ((lt_ofNat_bigEndian_iff hmax ..).mpr hlong) rest
  | case2 l₀ l₁ l₂ type flags s₀ s₁ s₂ s₃ rest =>
      rename_i length hle hsize
      have hparse := Header.parse?_eq_bigEndian l₀ l₁ l₂ type flags s₀ s₁ s₂ s₃
      apply feed_of_wrongSize hr rfl hparse (mt (lt_ofNat_bigEndian_iff hmax ..).mp hle) hsize.1
      rw [toNat_ofNat_bigEndian]
      exact hsize.2
  | case3 l₀ l₁ l₂ type flags s₀ s₁ s₂ s₃ rest =>
      rename_i length hle hsize hrest
      have hparse := Header.parse?_eq_bigEndian l₀ l₁ l₂ type flags s₀ s₁ s₂ s₃
      apply feed_of_incomplete hr rfl hparse (mt (lt_ofNat_bigEndian_iff hmax ..).mp hle)
      · rw [toNat_ofNat_bigEndian]
        exact fun htype => Decidable.byContradiction fun hne => hsize ⟨htype, hne⟩
      · rw [toNat_ofNat_bigEndian]
        exact hrest
  | case4 =>
      rename_i hle hsize hrest hdelta ih
      obtain ⟨next, hnext, hmax', hfeed⟩ :=
        feed_octets_of_update hr hmax rfl rfl rfl hle hsize hrest hdelta.1
      rw [hfeed, if_neg hdelta.2]
      exact andThen_agree rfl (ih hnext hmax')
  | case5 =>
      rename_i hle hsize hrest hdelta hstream
      obtain ⟨next, hnext, hmax', hfeed⟩ :=
        feed_octets_of_update hr hmax rfl rfl rfl hle hsize hrest hstream.1
      rw [hfeed, if_pos (Decidable.byContradiction fun h => hdelta ⟨hstream.1, h⟩),
        if_pos hstream.2]
      exact ⟨rfl, rfl⟩
  | case6 =>
      rename_i hle hrest hsize hdelta hstream ih
      obtain ⟨next, hnext, hmax', hfeed⟩ :=
        feed_octets_of_update hr hmax rfl rfl rfl hle hsize hrest rfl
      rw [hfeed, if_pos (Decidable.byContradiction fun h => hdelta ⟨rfl, h⟩),
        if_neg fun h => hstream ⟨rfl, h⟩]
      exact andThen_agree rfl (ih hnext hmax')
  | case7 =>
      rename_i hle hsize hrest hdelta hstream htype ih
      obtain ⟨next, hnext, hmax', hfeed⟩ :=
        feed_octets_of_other hr hmax rfl rfl hle hrest htype
      rw [hfeed]
      exact andThen_agree rfl (ih hnext hmax')
  | case8 short hshort =>
      apply feed_of_lt_need hr.toSound
      simp only [need, hr.phase_eq, hr.filled_eq]
      rcases short with _ | ⟨l₀, _ | ⟨l₁, _ | ⟨l₂, _ | ⟨type, _ | ⟨flags, _ | ⟨s₀, _ | ⟨s₁,
        _ | ⟨s₂, _ | ⟨s₃, rest⟩⟩⟩⟩⟩⟩⟩⟩⟩
      iterate 9
        simp only [List.length_cons, List.length_nil]
        decide
      exact (hshort l₀ l₁ l₂ type flags s₀ s₁ s₂ s₃ rest rfl).elim

/-- A fresh reader that is fed a buffer gives, frame by frame, the notices that the buffer holds,
and takes the octets they account for. -/
theorem feed_start_eq_decode (maxFrameSize : UInt32) (input : List UInt8) :
    let progress : Progress := (Reader.start maxFrameSize).feed input
    progress.notices = (decode maxFrameSize input).notices ∧
      progress.taken = (decode maxFrameSize input).taken :=
  feed_eq_decode (betweenFrames_start maxFrameSize) rfl input

end Reader

end OneShot.Wire
