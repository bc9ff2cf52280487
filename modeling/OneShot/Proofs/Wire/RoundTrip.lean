import OneShot.Proofs.Wire.Frames

/-!
# Writing and reading back

Window updates and frames of other types are written to one buffer, one
after the other; an update that is refused leaves no trace in it. However
what was written is cut, a new reader tells of every frame in order and of
nothing else.
-/

namespace OneShot.Wire

theorem bigEndian_octets (w : UInt32) : bigEndian (octets w) = w.toNat := by
  have hw := w.toNat_lt
  simp only [octets, bigEndian, List.foldl_cons, List.foldl_nil, UInt8.toNat_ofNat']
  omega

/-- A delta reads back whatever follows it, if it leaves the reserved bit alone. -/
theorem bigEndian_take_octets {delta : UInt32} (h : delta.toNat < 2147483648)
    (rest : List UInt8) :
    UInt32.ofNat (bigEndian ((octets delta ++ rest).take deltaLength) % 2147483648) = delta := by
  have htake : (octets delta ++ rest).take deltaLength = octets delta :=
    List.take_left' (length_octets delta)
  rw [htake, bigEndian_octets, Nat.mod_eq_of_lt h]
  exact UInt32.ofNat_toNat

namespace Header

/-- A header reads back with as much of the length and of the stream as the wire has room for. -/
theorem parse?_encode (h : Header) :
    parse? h.encode = some ⟨h.length % 16777216, h.type, h.flags, clearReserved h.stream⟩ := by
  have hlength : (word 0 (UInt8.ofNat (h.length.toNat / 65536))
      (UInt8.ofNat (h.length.toNat / 256)) (UInt8.ofNat h.length.toNat)) =
        h.length % 16777216 := by
    apply UInt32.toNat_inj.mp
    rw [toNat_word, UInt32.toNat_mod]
    simp only [UInt8.toNat_ofNat', UInt8.toNat_zero, UInt32.reduceToNat]
    omega
  have hstream : clearReserved (clearReserved h.stream) = clearReserved h.stream := by
    apply UInt32.toNat_inj.mp
    simp only [toNat_clearReserved]
    omega
  rw [encode, octets, List.drop_succ_cons, List.drop_zero]
  simp only [octets, List.cons_append, List.nil_append, parse?, hlength]
  rw [word_octets rfl, hstream]

theorem Admitted.parse?_encode {h : Header} {maxFrameSize : UInt32}
    (hadmitted : h.Admitted maxFrameSize) : parse? h.encode = some h := by
  have hlength : h.length % 16777216 = h.length := by
    apply UInt32.toNat_inj.mp
    rw [UInt32.toNat_mod]
    exact Nat.mod_eq_of_lt hadmitted.length_lt
  have hstream : clearReserved h.stream = h.stream := by
    apply UInt32.toNat_inj.mp
    rw [toNat_clearReserved]
    exact Nat.mod_eq_of_lt hadmitted.stream_lt
  rw [h.parse?_encode, hlength, hstream]

end Header

/-! ## What is written -/

namespace WindowUpdate

/-- Why an update is refused, if it is; the stream is looked at first. -/
def refusal? (u : WindowUpdate) : Option Refusal :=
  if 2147483648 ≤ u.stream.toNat then some (.reservedStream u.stream)
  else if 2147483648 ≤ u.delta.toNat then some (.deltaTooLarge u.delta)
  else none

theorem lt_of_refusal?_eq_none {u : WindowUpdate} (h : u.refusal? = none) :
    u.stream.toNat < 2147483648 ∧ u.delta.toNat < 2147483648 := by
  rw [refusal?] at h
  split at h
  · nomatch h
  · rename_i hstream
    split at h
    · nomatch h
    · rename_i hdelta
      exact ⟨Nat.lt_of_not_le hstream, Nat.lt_of_not_le hdelta⟩

theorem frame_eq (u : WindowUpdate) :
    u.frame = match u.refusal? with
      | some refusal => .error refusal
      | none => .ok u.encode := by
  have hmax (w : UInt32) : maxWord31 < w ↔ 2147483648 ≤ w.toNat := by
    rw [UInt32.lt_iff_toNat_lt]
    exact Nat.lt_iff_add_one_le
  simp only [frame, refusal?, hmax]
  split
  · rfl
  · split <;> rfl

theorem header_admitted {u : WindowUpdate} {maxFrameSize : UInt32} (hmax : 4 ≤ maxFrameSize)
    (h : u.refusal? = none) : u.header.Admitted maxFrameSize :=
  ⟨hmax, (by decide : (4 : Nat) < 16777216), (lt_of_refusal?_eq_none h).1⟩

/-- A reader between two frames comes to the end of an update that was written. An update that
grants nothing is a flaw to it. -/
theorem feed_encode_append {u : WindowUpdate} {r : Reader} (hr : r.BetweenFrames)
    (hmax : 4 ≤ r.maxFrameSize) (h : u.refusal? = none) (rest : List UInt8) :
    ∃ next : Reader, next.BetweenFrames ∧ next.maxFrameSize = r.maxFrameSize ∧
      r.feed (u.encode ++ rest) =
        if u.delta = 0 then
          if u.stream = 0 then
            ⟨{ next with phase := .failed },
              [.connectionFailure .protocolError .windowUpdateFrame], 13⟩
          else
            (⟨next, [.streamFailure u.stream .protocolError .windowUpdateFrame], 13⟩ :
              Progress).andThen fun next => next.feed rest
        else
          (⟨next, [.windowUpdate u], 13⟩ : Progress).andThen fun next => next.feed rest := by
  have hadmitted := header_admitted hmax h
  have hle : ¬ r.maxFrameSize < u.header.length := UInt32.not_lt.mpr hadmitted.length_le
  have hlen := Wire.length_octets u.delta
  have hdrop : (Wire.octets u.delta ++ rest).drop deltaLength = rest := List.drop_left' hlen
  have hrest : deltaLength ≤ (Wire.octets u.delta ++ rest).length := by
    rw [List.length_append, hlen]
    exact Nat.le_add_right _ _
  have hdelta := bigEndian_take_octets (lt_of_refusal?_eq_none h).2 rest
  have hfeed := Reader.feed_of_update hr u.header.length_encode hadmitted.parse?_encode hle
    rfl rfl hrest hdelta
  rw [hdrop, ← List.append_assoc] at hfeed
  exact hfeed

end WindowUpdate

/-- A frame of a type that the reader passes over. -/
structure Foreign (maxFrameSize : UInt32) where
  header : Header
  payload : List UInt8
  type_ne : header.type ≠ FrameType.windowUpdate.code
  length_eq : header.length.toNat = payload.length
  admitted : header.Admitted maxFrameSize

/-- An update that grants something, be it one that is refused, or a frame of another type. -/
inductive Item (maxFrameSize : UInt32)
  | update (u : WindowUpdate) (delta_ne : u.delta ≠ 0)
  | foreign (f : Foreign maxFrameSize)

namespace Item

variable {maxFrameSize : UInt32}

/-- Appends an item to `buffer`; only updates are answered. -/
def write : Item maxFrameSize → List UInt8 → Option (Except Refusal Nat) × List UInt8
  | update u _, buffer =>
      let (answer, buffer) := u.write buffer
      (some answer, buffer)
  | foreign f, buffer => (none, f.header.write buffer ++ f.payload)

/-- Writes the items to one buffer, going on after refusals. -/
def writeAll : List (Item maxFrameSize) → List UInt8 →
    List (Option (Except Refusal Nat)) × List UInt8
  | [], buffer => ([], buffer)
  | item :: items, buffer =>
      let (answer, buffer) := item.write buffer
      let (answers, buffer) := writeAll items buffer
      (answer :: answers, buffer)

def answer : Item maxFrameSize → Option (Except Refusal Nat)
  | update u _ =>
      match u.refusal? with
      | some refusal => some (.error refusal)
      | none => some (.ok 13)
  | foreign _ => none

/-- The number of octets that an item takes in the buffer. -/
def size : Item maxFrameSize → Nat
  | update u _ => if u.refusal? = none then 13 else 0
  | foreign f => 9 + f.payload.length

/-- What a reader is to tell of an item. -/
def notices : Item maxFrameSize → List Notice
  | update u _ => if u.refusal? = none then [.windowUpdate u] else []
  | foreign f => [.skipped f.header]

def octets : Item maxFrameSize → List UInt8
  | update u _ => if u.refusal? = none then u.encode else []
  | foreign f => f.header.encode ++ f.payload

theorem write_eq (item : Item maxFrameSize) (buffer : List UInt8) :
    item.write buffer = (item.answer, buffer ++ item.octets) := by
  cases item with
  | update u hdelta =>
      rw [write, WindowUpdate.write, u.frame_eq, answer, octets]
      cases hrefusal : u.refusal? with
      | some refusal => simp
      | none => simp [headerLength, deltaLength]
  | foreign f => rw [write, Header.write, List.append_assoc, answer, octets]

theorem length_octets (item : Item maxFrameSize) : item.octets.length = item.size := by
  cases item with
  | update u hdelta =>
      rw [octets, size]
      split <;> rfl
  | foreign f =>
      rw [octets, List.length_append, Header.length_encode]
      rfl

theorem writeAll_eq (items : List (Item maxFrameSize)) (buffer : List UInt8) :
    writeAll items buffer = (items.map answer, buffer ++ items.flatMap octets) := by
  induction items generalizing buffer with
  | nil => simp [writeAll]
  | cons item items ih => simp [writeAll, write_eq, ih]

/-! ## What is read -/

variable {r : Reader}

/-- A reader between two frames that is fed an item tells of it and stands between two frames
again. -/
theorem feed_octets (hr : r.BetweenFrames) (hsize : r.maxFrameSize = maxFrameSize)
    (hmax : 4 ≤ maxFrameSize) (item : Item maxFrameSize) (rest : List UInt8) :
    ∃ next : Reader, next.BetweenFrames ∧ next.maxFrameSize = maxFrameSize ∧
      r.feed (item.octets ++ rest) =
        (⟨next, item.notices, item.size⟩ : Progress).andThen fun next => next.feed rest := by
  cases item with
  | update u hne =>
      by_cases hrefusal : u.refusal? = none
      · obtain ⟨next, hnext, hkept, hfeed⟩ :=
          WindowUpdate.feed_encode_append hr (hsize ▸ hmax) hrefusal rest
        refine ⟨next, hnext, hkept.trans hsize, ?_⟩
        rw [octets, notices, size, if_pos hrefusal, if_pos hrefusal, if_pos hrefusal, hfeed,
          if_neg hne]
      · refine ⟨r, hr, hsize, ?_⟩
        rw [octets, notices, size, if_neg hrefusal, if_neg hrefusal, if_neg hrefusal]
        simp [Progress.andThen]
  | foreign f =>
      have hle : ¬ r.maxFrameSize < f.header.length := by
        rw [hsize]
        exact UInt32.not_lt.mpr f.admitted.length_le
      have hrest : f.header.length.toNat ≤ (f.payload ++ rest).length := by
        rw [List.length_append, f.length_eq]
        exact Nat.le_add_right _ _
      obtain ⟨next, hnext, hkept, hfeed⟩ := Reader.feed_of_other hr f.header.length_encode
        f.admitted.parse?_encode hle f.type_ne hrest
      refine ⟨next, hnext, hkept.trans hsize, ?_⟩
      rw [octets, List.append_assoc, hfeed, f.length_eq, List.drop_left]
      rfl

theorem feed_flatMap_octets (hr : r.BetweenFrames) (hsize : r.maxFrameSize = maxFrameSize)
    (hmax : 4 ≤ maxFrameSize) (items : List (Item maxFrameSize)) :
    ∃ last : Reader, last.BetweenFrames ∧
      r.feed (items.flatMap octets) = ⟨last, items.flatMap notices, (items.map size).sum⟩ := by
  induction items generalizing r with
  | nil => exact ⟨r, hr, Reader.feed_nil r⟩
  | cons item items ih =>
      obtain ⟨next, hnext, hkept, hfeed⟩ :=
        item.feed_octets hr hsize hmax (items.flatMap octets)
      obtain ⟨last, hlast, hrest⟩ := ih hnext hkept
      refine ⟨last, hlast, ?_⟩
      rw [List.flatMap_cons, hfeed]
      simp only [Progress.andThen, hrest, List.flatMap_cons, List.map_cons, List.sum_cons]

/-- An update that is refused answers why and leaves the buffer as it is; anything else is
appended to it. Whatever was written, a new reader that is fed it in slices tells of each frame
in order, takes every octet and ends between two frames. -/
theorem feedAll_writeAll (hmax : 4 ≤ maxFrameSize) :
    (∀ (item : Item maxFrameSize) (buffer : List UInt8), ∃ appended,
      item.write buffer = (item.answer, buffer ++ appended) ∧ appended.length = item.size) ∧
    ∀ (items : List (Item maxFrameSize)) (buffer : List UInt8), ∃ appended,
      writeAll items buffer = (items.map answer, buffer ++ appended) ∧
        appended.length = (items.map size).sum ∧
        ∀ slices : List (List UInt8), slices.flatten = appended →
          ∃ reader counts,
            (Reader.start maxFrameSize).feedAll slices =
              (reader, items.flatMap notices, counts) ∧
            counts.sum = appended.length ∧ reader.BetweenFrames := by
  refine ⟨fun item buffer => ⟨item.octets, item.write_eq buffer, item.length_octets⟩,
    fun items buffer => ⟨items.flatMap octets, writeAll_eq items buffer, ?_, ?_⟩⟩
  · rw [List.length_flatMap]
    simp only [length_octets]
  · intro slices hslices
    have hsize : (Reader.start maxFrameSize).maxFrameSize = maxFrameSize := rfl
    obtain ⟨last, hlast, hfeed⟩ :=
      feed_flatMap_octets (Reader.betweenFrames_start maxFrameSize) hsize hmax items
    obtain ⟨hreader, hnotices, hcounts⟩ :=
      Reader.feedAll_eq_feed (Reader.sound_start maxFrameSize) slices
    rw [hslices, hfeed] at hreader hnotices hcounts
    refine ⟨last, _, Prod.ext hreader (Prod.ext hnotices rfl), ?_, hlast⟩
    rw [hcounts, List.length_flatMap]
    simp only [length_octets]

/-! ## A mixed stream -/

/-- The payload of the third item looks like the header of a window update. -/
def mixed : List (Item initialMaxFrameSize) :=
  [.update ⟨2147483648, 5⟩ (by decide), .update ⟨1, 2147483647⟩ (by decide),
    .foreign ⟨⟨9, 0, 1, 3⟩, [0, 0, 4, 8, 0, 0, 0, 0, 1], by decide, by decide,
      by decide, by decide, by decide⟩,
    .update ⟨0, 2147483648⟩ (by decide), .update ⟨0, 1⟩ (by decide)]

def mixedSlices : List (List UInt8) :=
  [[0, 0, 4, 8], [0, 0, 0, 0, 1, 127, 255], [], [255, 255, 0, 0, 9, 0, 1, 0, 0, 0, 3, 0, 0, 4, 8],
    [0, 0, 0, 0, 1, 0, 0, 4, 8, 0, 0, 0, 0, 0, 0, 0, 0], [1]]

theorem feedAll_writeAll_mixed :
    4 ≤ initialMaxFrameSize ∧
      (writeAll mixed [7]).1 =
        [some (.error (.reservedStream 2147483648)), some (.ok 13), none,
          some (.error (.deltaTooLarge 2147483648)), some (.ok 13)] ∧
      (writeAll mixed [7]).2 = [7] ++ mixedSlices.flatten ∧
      ∃ reader counts,
        (Reader.start initialMaxFrameSize).feedAll mixedSlices =
          (reader, [.windowUpdate ⟨1, 2147483647⟩, .skipped ⟨9, 0, 1, 3⟩, .windowUpdate ⟨0, 1⟩],
            counts) ∧
        counts.sum = 44 ∧ reader.BetweenFrames := by
  have hmax : 4 ≤ initialMaxFrameSize := by decide
  obtain ⟨appended, hwrite, hlength, hread⟩ := (feedAll_writeAll hmax).2 mixed [7]
  have hbuffer : (writeAll mixed [7]).2 = [7] ++ mixedSlices.flatten := by decide
  have hslices : mixedSlices.flatten = appended := by
    rw [hwrite] at hbuffer
    exact (List.append_cancel_left hbuffer).symm
  obtain ⟨reader, counts, hfed, hsum, hbetween⟩ := hread mixedSlices hslices
  refine ⟨hmax, ?_, hbuffer, reader, counts, hfed, hsum.trans hlength, hbetween⟩
  rw [hwrite]
  rfl

end Item

end OneShot.Wire
