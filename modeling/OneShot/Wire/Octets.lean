/-!
# Octets of a word

A 32-bit word is sent as four octets, the highest first. The top bit of
a stream number and of a window delta is reserved: it is cleared where a
word is read.
-/

namespace OneShot.Wire

def octets (w : UInt32) : List UInt8 :=
  [UInt8.ofNat (w.toNat / 16777216), UInt8.ofNat (w.toNat / 65536),
    UInt8.ofNat (w.toNat / 256), UInt8.ofNat w.toNat]

def word (a b c d : UInt8) : UInt32 :=
  UInt32.ofNat (a.toNat * 16777216 + b.toNat * 65536 + c.toNat * 256 + d.toNat)

@[simp] theorem length_octets (w : UInt32) : (octets w).length = 4 := rfl

theorem toNat_word (a b c d : UInt8) :
    (word a b c d).toNat =
      a.toNat * 16777216 + b.toNat * 65536 + c.toNat * 256 + d.toNat := by
  have ha := a.toNat_lt
  have hb := b.toNat_lt
  have hc := c.toNat_lt
  have hd := d.toNat_lt
  simp only [word, UInt32.toNat_ofNat']
  omega

/-- The octets of a word read back as the word. -/
theorem word_octets {w : UInt32} {a b c d : UInt8} (h : octets w = [a, b, c, d]) :
    word a b c d = w := by
  simp only [octets, List.cons.injEq, and_true] at h
  obtain ⟨rfl, rfl, rfl, rfl⟩ := h
  have hw := w.toNat_lt
  apply UInt32.toNat_inj.mp
  rw [toNat_word]
  simp only [UInt8.toNat_ofNat']
  omega

@[simp] theorem octets_word (a b c d : UInt8) : octets (word a b c d) = [a, b, c, d] := by
  have ha := a.toNat_lt
  have hb := b.toNat_lt
  have hc := c.toNat_lt
  have hd := d.toNat_lt
  simp only [octets, toNat_word, List.cons.injEq, and_true]
  refine ⟨?_, ?_, ?_, ?_⟩ <;>
    · apply UInt8.toNat_inj.mp
      simp only [UInt8.toNat_ofNat']
      omega

/-- The largest value of 31 bits. -/
def maxWord31 : UInt32 := 0x7FFFFFFF

def clearReserved (w : UInt32) : UInt32 := w % 0x80000000

@[simp] theorem toNat_clearReserved (w : UInt32) :
    (clearReserved w).toNat = w.toNat % 2147483648 := by
  simp [clearReserved]

end OneShot.Wire
