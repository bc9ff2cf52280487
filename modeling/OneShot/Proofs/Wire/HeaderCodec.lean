import OneShot.Proofs.Wire.RoundTrip

/-!
# Headers in octets

Writing a header keeps what the wire has room for: 24 bits of the length
and 31 of the stream. Reading looks at nine octets and at nothing behind
them, and all it drops from them is the reserved bit.
-/

namespace OneShot.Wire

theorem clearReserved_word (a b c d : UInt8) :
    clearReserved (word a b c d) = word (a &&& 0x7F) b c d := by
  have hmask : (a &&& 0x7F).toNat = a.toNat % 128 := by
    rw [UInt8.toNat_and]
    exact Nat.and_two_pow_sub_one_eq_mod a.toNat 7
  have hb := b.toNat_lt
  have hc := c.toNat_lt
  have hd := d.toNat_lt
  apply UInt32.toNat_inj.mp
  rw [toNat_clearReserved, toNat_word, toNat_word, hmask]
  omega

theorem clearReserved_eq_self_iff (w : UInt32) :
    clearReserved w = w ↔ w.toNat < 2147483648 := by
  rw [← UInt32.toNat_inj, toNat_clearReserved]
  constructor
  · intro h
    rw [← h]
    exact Nat.mod_lt _ (by decide)
  · exact Nat.mod_eq_of_lt

@[simp] theorem clearReserved_clearReserved (w : UInt32) :
    clearReserved (clearReserved w) = clearReserved w := by
  rw [clearReserved_eq_self_iff, toNat_clearReserved]
  exact Nat.mod_lt _ (by decide)

namespace Header

/-- What the wire has room for of a header. -/
def carried (h : Header) : Header :=
  ⟨h.length % 16777216, h.type, h.flags, h.stream % 2147483648⟩

theorem carried_eq_self_iff (h : Header) :
    h.carried = h ↔ h.length.toNat < 16777216 ∧ h.stream.toNat < 2147483648 := by
  have hlength : h.length % 16777216 = h.length ↔ h.length.toNat < 16777216 := by
    rw [← UInt32.toNat_inj, UInt32.toNat_mod]
    exact Nat.mod_eq_iff_lt (by decide)
  rw [← hlength, ← clearReserved_eq_self_iff]
  constructor
  · intro heq
    exact ⟨congrArg Header.length heq, congrArg Header.stream heq⟩
  · rintro ⟨hlen, hstream⟩
    rw [clearReserved] at hstream
    rw [carried, hlen, hstream]

/-- Nine octets are the encoding of what is read from them, up to the reserved bit. -/
theorem exists_encode_eq {head : List UInt8} (hhead : head.length = headerLength) :
    ∃ h : Header, h.encode = head.modify 5 (· &&& 0x7F) ∧
      ∀ later, parse? (head ++ later) = some h := by
  match head, hhead with
  | [l₀, l₁, l₂, type, flags, s₀, s₁, s₂, s₃], _ =>
      refine ⟨⟨word 0 l₀ l₁ l₂, type, flags, clearReserved (word s₀ s₁ s₂ s₃)⟩, ?_,
        fun later => rfl⟩
      rw [encode, octets_word, clearReserved_clearReserved, clearReserved_word, octets_word]
      rfl

/-- What is read depends on nine octets only. -/
theorem parse?_append {head : List UInt8} (hhead : head.length = headerLength)
    (later : List UInt8) : parse? (head ++ later) = parse? head := by
  obtain ⟨h, -, hread⟩ := exists_encode_eq hhead
  rw [hread later, ← head.append_nil, hread []]

theorem headerLength_le_of_parse? {data : List UInt8} {h : Header}
    (hparse : parse? data = some h) : headerLength ≤ data.length := by
  unfold parse? at hparse
  split at hparse
  · simp only [List.length_cons, headerLength]
    omega
  · nomatch hparse

theorem parse?_eq_none_iff (data : List UInt8) :
    parse? data = none ↔ data.length < headerLength := by
  constructor
  · intro hnone
    apply Nat.lt_of_not_le
    intro hlong
    have hhead : (data.take headerLength).length = headerLength :=
      List.length_take_of_le hlong
    obtain ⟨h, -, hread⟩ := exists_encode_eq hhead
    have hdata := hread (data.drop headerLength)
    rw [List.take_append_drop, hnone] at hdata
    nomatch hdata
  · intro hshort
    cases hparse : parse? data with
    | none => rfl
    | some h => exact absurd (headerLength_le_of_parse? hparse) (Nat.not_le_of_lt hshort)

/-- A header is written as nine octets behind what the buffer holds, and what they carry of it
reads back whatever follows; that is the header itself if both numbers are in range. Fewer octets
than nine give no header; of more, the first nine give one, and it is written as them but for the
reserved bit. -/
theorem parse?_write :
    (∀ (h : Header) (buffer : List UInt8), ∃ head,
      h.write buffer = buffer ++ head ∧ head.length = 9 ∧
        ∀ later, parse? (head ++ later) = some h.carried ∧
          (parse? (head ++ later) = some h ↔
            h.length.toNat < 2 ^ 24 ∧ h.stream.toNat < 2 ^ 31)) ∧
    (∀ data, parse? data = none ↔ data.length < 9) ∧
    ∀ data : List UInt8, 9 ≤ data.length → ∃ h : Header,
      parse? data = some h ∧ h.encode = (data.take 9).modify 5 (· &&& 0x7F) ∧
        ∀ later, parse? (data.take 9 ++ later) = some h := by
  refine ⟨?_, parse?_eq_none_iff, ?_⟩
  · intro h buffer
    refine ⟨h.encode, rfl, h.length_encode, ?_⟩
    intro later
    have hread : parse? (h.encode ++ later) = some h.carried := by
      rw [parse?_append h.length_encode, parse?_encode]
      rfl
    refine ⟨hread, ?_⟩
    rw [hread, Option.some.injEq]
    exact h.carried_eq_self_iff
  · intro data hlong
    obtain ⟨h, hencode, hread⟩ := exists_encode_eq (List.length_take_of_le hlong)
    have hdata := hread (data.drop headerLength)
    rw [List.take_append_drop] at hdata
    exact ⟨h, hdata, hencode, hread⟩

/-- Ten octets, with the reserved bit set. -/
theorem parse?_write_reserved :
    9 ≤ [0, 0, 4, 8, 0, 0x80, 0, 0, 1, 7].length ∧ ∃ h : Header,
      parse? [0, 0, 4, 8, 0, 0x80, 0, 0, 1, 7] = some h ∧
        h.encode = [0, 0, 4, 8, 0, 0, 0, 0, 1] := by
  have hlong : 9 ≤ [0, 0, 4, 8, 0, 0x80, 0, 0, 1, (7 : UInt8)].length := by decide
  obtain ⟨h, hread, hencode, -⟩ := parse?_write.2.2 _ hlong
  refine ⟨by decide, h, hread, ?_⟩
  rw [hencode]
  decide

end Header

end OneShot.Wire
