import ChatServer.Lib.Decimal

/-!
# Machine integers

Two's-complement conversions to `short`, `int` and `size_t` on mathematical integers, and the
two-byte network representation of a `short`. The conversions are written with `%` so that `omega`
decides what they do; the `_of_range` lemmas say they change nothing in range.
-/

namespace Word

/-- Conversion to a 16-bit signed integer. -/
def toShort (i : Int) : Int := (i + 32768) % 65536 - 32768

/-- Conversion to a 32-bit signed integer. -/
def toInt (i : Int) : Int := (i + 2147483648) % 4294967296 - 2147483648

/-- Conversion to a 64-bit unsigned size. -/
def toSizeT (i : Int) : Nat := (i % 18446744073709551616).toNat

/-- The values a `short` can hold. -/
def IsShort (i : Int) : Prop := -32768 ≤ i ∧ i ≤ 32767

/-- The values an `int` can hold. -/
def IsInt (i : Int) : Prop := -2147483648 ≤ i ∧ i ≤ 2147483647

instance (i : Int) : Decidable (IsShort i) := inferInstanceAs (Decidable (_ ∧ _))

instance (i : Int) : Decidable (IsInt i) := inferInstanceAs (Decidable (_ ∧ _))

theorem toShort_of_range {i : Int} (h : IsShort i) : toShort i = i := by
  unfold IsShort at h
  unfold toShort
  omega

theorem toSizeT_of_nonneg {i : Int} (h0 : 0 ≤ i) (h1 : i < 18446744073709551616) :
    toSizeT i = i.toNat := by
  unfold toSizeT
  omega

/-! ## Network byte order -/

/-- The two bytes of a `short`, most significant first. -/
def hostToNetworkShort (i : Int) : Bytes :=
  [UInt8.ofNat ((i % 65536).toNat / 256), UInt8.ofNat ((i % 65536).toNat % 256)]

/-- The `short` that two bytes stand for, most significant first. -/
def networkToHostShort (hi lo : UInt8) : Int := toShort (256 * hi.toNat + lo.toNat)

@[simp] theorem hostToNetworkShort_length (i : Int) : (hostToNetworkShort i).length = 2 := rfl

/-- **A `short` survives the trip through network byte order.** -/
theorem networkToHostShort_hostToNetworkShort {i : Int} (h : IsShort i) :
    networkToHostShort (UInt8.ofNat ((i % 65536).toNat / 256))
      (UInt8.ofNat ((i % 65536).toNat % 256)) = i := by
  unfold IsShort at h
  have hhi : (UInt8.ofNat ((i % 65536).toNat / 256)).toNat = (i % 65536).toNat / 256 := by
    rw [UInt8.toNat_ofNat']
    omega
  have hlo : (UInt8.ofNat ((i % 65536).toNat % 256)).toNat = (i % 65536).toNat % 256 := by
    rw [UInt8.toNat_ofNat']
    omega
  unfold networkToHostShort toShort
  rw [hhi, hlo]
  omega

end Word
