import TestRig.Proofs.Checksum.Polynomial

/-!
# The checksum as a remainder

The register has sixteen bits and the divisor has degree sixteen, so what
the register holds is not only known modulo the divisor: it is the
remainder itself.

* `eq_zero_of_held` says that a register is determined by its class, and
  `held_inj` says it of two registers.
* `polynomialOf_register` is the remainder, and the rest follows from the
  classes: `Sealed.ofBytes_eq_zero` is the checksum of a string that ends
  in its own checksum, and `ofBytes_xorBytes` the checksum of three strings
  that are added without carry.
* `ofBytes_remainder` puts them together.
-/

namespace TestRig.Checksum

open Polynomial

/-! ## Registers and their classes -/

theorem mem_lowBits {number width index : Nat} (hindex : index < width)
    (hbit : number.testBit index = true) : true ∈ lowBits number width := by
  induction width with
  | zero => omega
  | succ width ih =>
    rw [lowBits, List.mem_cons]
    by_cases hlast : index = width
    · subst hlast
      exact .inl hbit.symm
    · exact .inr (ih (by omega))

/-- The sixteen bits of a register are too few for a multiple of the
divisor, unless all of them are zero. -/
theorem eq_zero_of_held {register : UInt16} (h : held register = 0) : register = 0 := by
  have hdvd : divisor ∣ polynomialOf (lowBits register.toNat 16) := residue_eq_zero_iff.mp h
  have hnone : true ∉ lowBits register.toNat 16 := by
    intro hsome
    refine @not_dvd_of_burst _ 0 hsome ?_ hdvd
    intro index hindex
    have hinside := (List.getElem?_eq_some_iff.mp hindex).1
    rw [length_lowBits] at hinside
    omega
  apply UInt16.toNat.inj
  apply Nat.eq_of_testBit_eq
  intro index
  rw [UInt16.toNat_zero, Nat.zero_testBit]
  by_cases hindex : index < 16
  · exact Bool.eq_false_iff.mpr fun hbit => hnone (mem_lowBits hindex hbit)
  · apply Nat.testBit_lt_two_pow
    exact register.toNat_lt.trans_le (Nat.pow_le_pow_right (by decide) (by omega))

/-- Two registers of one class are the same: their sum has the class
zero. -/
theorem held_inj {first second : UInt16} (h : held first = held second) : first = second := by
  have hsum : held (first ^^^ second) = 0 := by
    rw [held_xor, h]
    exact residue_add_self _
  exact UInt16.xor_eq_zero_iff.mp (eq_zero_of_held hsum)

/-- The bits of a register are a remainder: they are the one polynomial of
their class below the degree of the divisor. -/
theorem polynomialOf_register {register : UInt16} {dividend : (ZMod 2)[X]}
    (h : held register = AdjoinRoot.mk divisor dividend) :
    polynomialOf (lowBits register.toNat 16) = dividend % divisor := by
  have hsmall : (polynomialOf (lowBits register.toNat 16)).degree < divisor.degree := by
    rw [degree_divisor]
    have hdegree := degree_polynomialOf_lt (lowBits register.toNat 16)
    rw [length_lowBits] at hdegree
    exact hdegree
  have hdvd : divisor ∣ polynomialOf (lowBits register.toNat 16) - dividend :=
    AdjoinRoot.mk_eq_mk.mp h
  calc polynomialOf (lowBits register.toNat 16)
      = polynomialOf (lowBits register.toNat 16) %ₘ divisor :=
        ((modByMonic_eq_self_iff monic_divisor).mpr hsmall).symm
    _ = dividend %ₘ divisor := modByMonic_eq_of_dvd_sub monic_divisor hdvd
    _ = dividend % divisor := modByMonic_eq_mod dividend monic_divisor

/-! ## The checksum -/

/-- A register with all bits set. -/
theorem held_initial :
    held initial = AdjoinRoot.mk divisor (∑ power ∈ Finset.range 16, X ^ power) := by
  have hbits : lowBits initial.toNat 16 = List.replicate 16 true := by decide
  have hones : ∀ count, polynomialOf (List.replicate count true) =
      ∑ power ∈ Finset.range count, X ^ power := by
    intro count
    induction count with
    | zero => rfl
    | succ count ih =>
      rw [List.replicate_succ, polynomialOf, ih, List.length_replicate, if_pos rfl,
        Finset.sum_range_succ, add_comm]
  rw [held, residue, hbits, hones]

/-- The class of a checksum. -/
theorem held_ofBytes (data : Bytes) :
    held (ofBytes data) = AdjoinRoot.mk divisor (X ^ 16 * polynomialOf (bits data) +
      X ^ (8 * data.length) * ∑ power ∈ Finset.range 16, X ^ power) := by
  rw [ofBytes, held_update, held_initial, map_add, map_mul, map_mul, map_pow, map_pow,
    AdjoinRoot.mk_X, add_comm]
  rfl

/-- The checksum of a string that ends in its own checksum. -/
theorem Sealed.ofBytes_eq_zero {data : Bytes} (h : Sealed data) : ofBytes data = 0 := by
  have hlength : 2 ≤ data.length := by
    obtain ⟨front, rfl⟩ := h
    rw [List.length_append, Word.length_toBytes]
    omega
  have hpower : 8 * data.length = 16 + 8 * (data.length - 2) := by omega
  apply eq_zero_of_held
  rw [ofBytes, held_update, hpower, pow_add, mul_assoc, ← h.residue_eq, ← mul_add,
    residue_add_self, mul_zero]

/-- The register that all checksums start with is added three times, and two
of the three cancel. -/
theorem ofBytes_xorBytes {first second third : Bytes} (hsecond : second.length = first.length)
    (hthird : third.length = first.length) :
    ofBytes (xorBytes (xorBytes first second) third) =
      ofBytes first ^^^ ofBytes second ^^^ ofBytes third := by
  have hsum : (xorBytes first second).length = first.length := length_xorBytes hsecond
  have hbits : bits (xorBytes (xorBytes first second) third) =
      List.zipWith xor (List.zipWith xor (bits first) (bits second)) (bits third) := by
    rw [bits_xorBytes (hsum.trans hthird.symm), bits_xorBytes hsecond.symm]
  have hresidue : residue (bits (xorBytes (xorBytes first second) third)) =
      residue (bits first) + residue (bits second) + residue (bits third) := by
    rw [hbits, residue_xor (by simp [hsecond, hthird]), residue_xor (by simp [hsecond])]
  have htwice : held initial + held initial = 0 := residue_add_self _
  apply held_inj
  simp only [ofBytes]
  rw [held_xor, held_xor, held_update, held_update, held_update, held_update, hresidue,
    length_xorBytes (hthird.trans hsum.symm), hsum, hsecond, hthird]
  linear_combination (-(root ^ (8 * first.length))) * htwice

/-- The bits of a checksum are the remainder of the message, moved up by the
width of the register, and of sixteen ones in front of it.  So a message
with its checksum behind it has the checksum zero, and the checksum of
three messages of one length that are added without carry is the sum of
their checksums. -/
theorem ofBytes_remainder (data : Bytes) :
    polynomialOf (lowBits (ofBytes data).toNat 16) =
      (X ^ 16 * polynomialOf (bits data) +
        X ^ (8 * data.length) * ∑ power ∈ Finset.range 16, X ^ power) %
          (X ^ 16 + X ^ 12 + X ^ 5 + 1) ∧
    ofBytes (data ++ Word.toBytes (ofBytes data)) = 0 ∧
    ∀ second third : Bytes, second.length = data.length → third.length = data.length →
      ofBytes (xorBytes (xorBytes data second) third) =
        ofBytes data ^^^ ofBytes second ^^^ ofBytes third := by
  have hsealed : Sealed (data ++ Word.toBytes (ofBytes data)) := ⟨data, rfl⟩
  refine ⟨polynomialOf_register (held_ofBytes data), hsealed.ofBytes_eq_zero, ?_⟩
  intro second third hsecond hthird
  exact ofBytes_xorBytes hsecond hthird

/-- The digits from one to nine, with the checksum that catalogues of such
codes list for them, and three strings of nine bytes. -/
theorem ofBytes_remainder_digits :
    let digits : Bytes := [0x31, 0x32, 0x33, 0x34, 0x35, 0x36, 0x37, 0x38, 0x39]
    let header : Bytes := [0x3A, 0x3B, 0, 1, 0, 7, 0, 0, 0x80]
    let ones := List.replicate 9 0xFF
    ofBytes digits = 0x29B1 ∧ ofBytes (digits ++ [0x29, 0xB1]) = 0 ∧
      header.length = digits.length ∧ ones.length = digits.length ∧
      ofBytes (xorBytes (xorBytes digits header) ones) =
        ofBytes digits ^^^ ofBytes header ^^^ ofBytes ones := by
  intro digits header ones
  have hcheck : ofBytes digits = 0x29B1 := by decide +kernel
  have hheader : header.length = digits.length := rfl
  have hones : ones.length = digits.length := rfl
  obtain ⟨_, hzero, hsum⟩ := ofBytes_remainder digits
  rw [hcheck] at hzero
  exact ⟨hcheck, hzero, hheader, hones, hsum header ones hheader hones⟩

end TestRig.Checksum
