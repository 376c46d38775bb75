/-!
# Variable-length and fixed-width numbers

A varint is a number in base 128, the low digit first; every byte but the last has its top bit set.
A fixed-width number is its bytes in order, the low one first. Every reader takes what it needs from
the front of the input and answers the rest.

Main statements: `Varint.read?_encode`, a written number is read back whatever follows it, and
`FixedWidth.read?_encode`, the same for fixed widths.
-/

namespace OnlineFeatures

abbrev Bytes := List UInt8

namespace Varint

/-! ## Writing -/

/-- The shortest varint of a number. -/
def encode (n : Nat) : Bytes :=
  if n < 128 then [.ofNat n] else .ofNat (n % 128 + 128) :: encode (n / 128)
termination_by n
decreasing_by omega

/-! ## Reading -/

/-- Reads a varint of at most `limit` bytes. -/
def read? : Nat → Bytes → Option (Nat × Bytes)
  | 0, _ => none
  | _ + 1, [] => none
  | limit + 1, b :: rest =>
    if b.toNat < 128 then some (b.toNat, rest)
    else (read? limit rest).map fun (n, rest) => (b.toNat - 128 + 128 * n, rest)

/-- The most bytes of a field's value. -/
def valueLimit : Nat := 10

/-- The most bytes of a tag or a length. -/
def shortLimit : Nat := 5

/-- Reads the value of a field; bits beyond the 64th are lost. -/
def readValue? (bs : Bytes) : Option (UInt64 × Bytes) :=
  (read? valueLimit bs).map fun (n, rest) => (.ofNat n, rest)

/-- Reads a length, which must fit a signed 32-bit number. -/
def readLength? (bs : Bytes) : Option (Nat × Bytes) :=
  (read? shortLimit bs).filter fun (n, _) => n < 0x80000000

/-! ## Laws -/

theorem read?_encode (limit n : Nat) (rest : Bytes) (h : n < Nat.pow 128 (limit + 1)) :
    read? (limit + 1) (encode n ++ rest) = some (n, rest) := by
  induction limit generalizing n with
  | zero =>
    have small : n < 128 := by simpa using h
    have : (UInt8.ofNat n).toNat = n := by simp; omega
    rw [encode]
    simp [read?, this, small]
  | succ limit ih =>
    rw [encode]
    split
    · rename_i small
      have : (UInt8.ofNat n).toNat = n := by simp; omega
      simp [read?, this, small]
    · have hb : (UInt8.ofNat (n % 128 + 128)).toNat = n % 128 + 128 := by simp; omega
      have hn : n / 128 < Nat.pow 128 (limit + 1) := by
        rw [Nat.div_lt_iff_lt_mul (by decide)]; rwa [Nat.pow] at h
      rw [List.cons_append, read?, hb, ih _ hn]
      have : ¬ n % 128 + 128 < 128 := by omega
      simp [this]; omega

end Varint

namespace FixedWidth

/-- A number in `width` bytes, the low byte first. -/
def encode : Nat → Nat → Bytes
  | 0, _ => []
  | width + 1, n => .ofNat n :: encode width (n / 256)

/-- Reads a number of `width` bytes. -/
def read? : Nat → Bytes → Option (Nat × Bytes)
  | 0, bs => some (0, bs)
  | _ + 1, [] => none
  | width + 1, b :: rest => (read? width rest).map fun (n, rest) => (b.toNat + 256 * n, rest)

theorem read?_encode (width n : Nat) (rest : Bytes) (h : n < Nat.pow 256 width) :
    read? width (encode width n ++ rest) = some (n, rest) := by
  induction width generalizing n with
  | zero => simp at h; simp [encode, read?, h]
  | succ width ih =>
    have hn : n / 256 < Nat.pow 256 width := by
      rw [Nat.div_lt_iff_lt_mul (by decide)]; rwa [Nat.pow] at h
    simp [encode, read?, ih _ hn]; omega

end FixedWidth

end OnlineFeatures
