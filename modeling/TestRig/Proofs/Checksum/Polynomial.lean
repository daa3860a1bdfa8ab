import Mathlib.Algebra.CharP.Two
import Mathlib.Algebra.Field.ZMod
import Mathlib.Data.Nat.Bitwise
import Mathlib.RingTheory.AdjoinRoot
import TestRig.Checksum

/-!
# The checksum as division of polynomials

Bits are coefficients modulo two, the most significant one first.  The
register of the checksum then holds a remainder: to shift it is to multiply
by the indeterminate and to reduce, and to take in a byte adds the bits of
the byte.

* `polynomialOf` is the polynomial of some bits, and `residue` is its class
  modulo the divisor.  Equalities of residues are equalities in a
  commutative ring, so `ring` computes with them.
* `held` is the class of what a register holds; `held_shift`, `held_absorb`
  and `held_update` follow the three definitions of the checksum.
* `Sealed` is a byte string that ends in its own checksum.  All sealed
  strings of a length have the same residue (`Sealed.residue_eq`).
* `not_dvd_of_burst` and `not_dvd_of_odd` are two kinds of bits of which
  the polynomial is no multiple of the divisor.
-/

namespace TestRig.Checksum

open Polynomial

/-! ## Bits -/

/-- The low bits of a number, the most significant one first. -/
def lowBits (number : Nat) : (width : Nat) → List Bool
  | 0 => []
  | width + 1 => number.testBit width :: lowBits number width

/-- The bits of a byte string, the most significant one of each byte
first. -/
def bits (data : Bytes) : List Bool :=
  data.flatMap fun byte => lowBits byte.toNat 8

/-- Adds byte strings of the same length without carry. -/
def xorBytes (first second : Bytes) : Bytes :=
  List.zipWith (· ^^^ ·) first second

@[simp] theorem length_lowBits (number width : Nat) : (lowBits number width).length = width := by
  induction width with
  | zero => rfl
  | succ width ih => rw [lowBits, List.length_cons, ih]

/-- Bits from some place on do not matter to those below it. -/
theorem lowBits_mod {number width size : Nat} (h : width ≤ size) :
    lowBits (number % 2 ^ size) width = lowBits number width := by
  induction width with
  | zero => rfl
  | succ width ih =>
    rw [lowBits, lowBits, ih (by omega), Nat.testBit_mod_two_pow]
    simp [show width < size by omega]

theorem lowBits_xor (first second width : Nat) :
    lowBits (first ^^^ second) width =
      List.zipWith xor (lowBits first width) (lowBits second width) := by
  induction width with
  | zero => rfl
  | succ width ih => rw [lowBits, lowBits, lowBits, ih, Nat.testBit_xor, List.zipWith_cons_cons]

/-- The low bits fall into two groups. -/
theorem lowBits_add (number high low : Nat) :
    lowBits number (high + low) = lowBits (number >>> low) high ++ lowBits number low := by
  induction high with
  | zero => rw [Nat.zero_add, lowBits, List.nil_append]
  | succ high ih =>
    rw [Nat.succ_add, lowBits, lowBits, ih, List.cons_append, Nat.testBit_shiftRight,
      Nat.add_comm high]

theorem lowBits_zero (width : Nat) : lowBits 0 width = List.replicate width false := by
  induction width with
  | zero => rfl
  | succ width ih => rw [lowBits, ih, Nat.zero_testBit, List.replicate_succ]

/-- A number that is moved up has zeros below. -/
theorem lowBits_shiftLeft (number width count : Nat) :
    lowBits (number <<< count) (width + count) =
      lowBits number width ++ List.replicate count false := by
  rw [lowBits_add, Nat.shiftLeft_shiftRight, ← lowBits_zero count, ← lowBits_mod (Nat.le_refl count),
    Nat.shiftLeft_eq, Nat.mul_mod_left]

@[simp] theorem bits_nil : bits [] = [] := rfl

@[simp] theorem bits_cons (byte : UInt8) (data : Bytes) :
    bits (byte :: data) = lowBits byte.toNat 8 ++ bits data :=
  List.flatMap_cons

@[simp] theorem bits_append (first second : Bytes) :
    bits (first ++ second) = bits first ++ bits second :=
  List.flatMap_append

@[simp] theorem length_bits (data : Bytes) : (bits data).length = 8 * data.length := by
  induction data with
  | nil => rfl
  | cons byte data ih =>
    rw [bits_cons, List.length_append, length_lowBits, ih, List.length_cons]
    omega

theorem length_xorBytes {first second : Bytes} (h : second.length = first.length) :
    (xorBytes first second).length = first.length := by
  rw [xorBytes, List.length_zipWith, h, Nat.min_self]

theorem bits_xorBytes {first second : Bytes} (h : first.length = second.length) :
    bits (xorBytes first second) = List.zipWith xor (bits first) (bits second) := by
  induction first generalizing second with
  | nil => rfl
  | cons byte first ih =>
    cases second with
    | nil => cases h
    | cons other second =>
      rw [xorBytes, List.zipWith_cons_cons, bits_cons, bits_cons, bits_cons, UInt8.toNat_xor,
        lowBits_xor, List.zipWith_append (by simp), ← ih (Nat.succ.inj h)]
      rfl

theorem bits_toBytes (word : UInt16) : bits (Word.toBytes word) = lowBits word.toNat 16 := by
  have hword := word.toNat_lt
  have hhigh : (Word.high word).toNat = word.toNat >>> 8 := by
    rw [Word.high, UInt8.toNat_ofNat', Nat.shiftRight_eq_div_pow]
    omega
  have hlow : (Word.low word).toNat = word.toNat % 2 ^ 8 := by
    rw [Word.low, UInt8.toNat_ofNat']
    omega
  rw [Word.toBytes, bits_cons, bits_cons, bits_nil, List.append_nil, hhigh, hlow,
    lowBits_mod (Nat.le_refl 8), ← lowBits_add]

/-! ## Polynomials -/

/-- The polynomial with the given coefficients, the highest one first. -/
noncomputable def polynomialOf : List Bool → (ZMod 2)[X]
  | [] => 0
  | bit :: rest => (if bit then X ^ rest.length else 0) + polynomialOf rest

/-- The divisor with its leading one. -/
noncomputable def divisor : (ZMod 2)[X] :=
  X ^ 16 + X ^ 12 + X ^ 5 + 1

theorem polynomialOf_append (first second : List Bool) :
    polynomialOf (first ++ second) =
      X ^ second.length * polynomialOf first + polynomialOf second := by
  induction first with
  | nil => rw [List.nil_append, polynomialOf, mul_zero, zero_add]
  | cons bit first ih =>
    rw [List.cons_append, polynomialOf, polynomialOf, ih, List.length_append]
    split_ifs
    · ring
    · ring

theorem polynomialOf_eq_zero {coefficients : List Bool} (h : true ∉ coefficients) :
    polynomialOf coefficients = 0 := by
  induction coefficients with
  | nil => rfl
  | cons bit rest ih =>
    rw [List.mem_cons, not_or] at h
    rw [polynomialOf, ih h.2, if_neg (Ne.symm h.1), add_zero]

/-- Addition without carry is addition. -/
theorem polynomialOf_xor {first second : List Bool} (h : first.length = second.length) :
    polynomialOf (List.zipWith xor first second) = polynomialOf first + polynomialOf second := by
  induction first generalizing second with
  | nil =>
    obtain rfl := List.length_eq_zero_iff.mp h.symm
    rw [List.zipWith_nil_left, polynomialOf, add_zero]
  | cons bit first ih =>
    cases second with
    | nil => cases h
    | cons other second =>
      have hlength : first.length = second.length := Nat.succ.inj h
      rw [List.zipWith_cons_cons, polynomialOf, polynomialOf, polynomialOf, ih hlength,
        List.length_zipWith, hlength, Nat.min_self]
      -- two ones at a place cancel
      have hcancel : (X ^ second.length + X ^ second.length : (ZMod 2)[X]) = 0 :=
        CharTwo.add_self_eq_zero _
      cases bit with
      | false =>
        simp only [Bool.false_xor, Bool.false_eq_true, if_false]
        ring
      | true =>
        cases other with
        | false => simp; ring
        | true =>
          simp only [Bool.xor_self, Bool.false_eq_true, if_false, if_true]
          linear_combination -hcancel

theorem degree_polynomialOf_lt (coefficients : List Bool) :
    (polynomialOf coefficients).degree < coefficients.length := by
  induction coefficients with
  | nil => simp [polynomialOf]
  | cons bit rest ih =>
    have hrest : (rest.length : WithBot Nat) < (rest.length + 1 : Nat) := by
      exact_mod_cast Nat.lt_succ_self _
    refine lt_of_le_of_lt (degree_add_le _ _) (max_lt ?_ (ih.trans hrest))
    split_ifs
    · exact lt_of_le_of_lt (degree_X_pow_le _) hrest
    · rw [degree_zero]
      exact WithBot.bot_lt_coe _

theorem polynomialOf_ne_zero {coefficients : List Bool} (h : true ∈ coefficients) :
    polynomialOf coefficients ≠ 0 := by
  induction coefficients with
  | nil => cases h
  | cons bit rest ih =>
    cases bit with
    | false =>
      rw [polynomialOf, if_neg Bool.false_ne_true, zero_add]
      exact ih ((List.mem_cons.mp h).resolve_left (by decide))
    | true =>
      -- the leading power stands alone at its degree
      intro hzero
      rw [polynomialOf, if_pos rfl] at hzero
      have hdegree := degree_polynomialOf_lt rest
      rw [← degree_X_pow (R := ZMod 2) rest.length, eq_neg_of_add_eq_zero_left hzero,
        degree_neg] at hdegree
      exact lt_irrefl _ hdegree

/-- The value at one tells whether the number of ones is odd. -/
theorem eval_one_polynomialOf (coefficients : List Bool) :
    (polynomialOf coefficients).eval 1 = (coefficients.count true : ZMod 2) := by
  induction coefficients with
  | nil => simp [polynomialOf]
  | cons bit rest ih =>
    rw [polynomialOf, eval_add, ih]
    cases bit <;> simp [add_comm]

theorem monic_divisor : divisor.Monic := by
  rw [divisor]
  monicity!

theorem degree_divisor : divisor.degree = 16 := by
  rw [divisor]
  compute_degree!

/-- The divisor has no root at zero, so powers of the indeterminate do not
help it to divide. -/
theorem isCoprime_divisor (count : Nat) : IsCoprime divisor (X ^ count) := by
  refine IsCoprime.pow_right ⟨1, -(X ^ 15 + X ^ 11 + X ^ 4), ?_⟩
  rw [divisor]
  ring

theorem eval_one_divisor : divisor.eval 1 = 0 := by
  simp only [divisor, eval_add, eval_pow, eval_X, eval_one, one_pow]
  decide

/-! ## Errors that the divisor does not divide -/

/-- Ones that lie within sixteen places are no multiple of the divisor. -/
theorem not_dvd_of_burst {coefficients : List Bool} {first : Nat} (hsome : true ∈ coefficients)
    (hburst : ∀ index, coefficients[index]? = some true → first ≤ index ∧ index < first + 16) :
    ¬ divisor ∣ polynomialOf coefficients := by
  -- zeros, the sixteen places, zeros
  have hsplit : coefficients = coefficients.take first ++
      ((coefficients.drop first).take 16 ++ (coefficients.drop first).drop 16) := by
    rw [List.take_append_drop, List.take_append_drop]
  have hbefore : true ∉ coefficients.take first := by
    intro hmem
    obtain ⟨index, hindex⟩ := List.mem_iff_getElem?.mp hmem
    rw [List.getElem?_take] at hindex
    split_ifs at hindex with hlt
    exact absurd (hburst index hindex).1 (by omega)
  have hbehind : true ∉ (coefficients.drop first).drop 16 := by
    intro hmem
    obtain ⟨index, hindex⟩ := List.mem_iff_getElem?.mp hmem
    rw [List.getElem?_drop, List.getElem?_drop] at hindex
    exact absurd (hburst _ hindex).2 (by omega)
  have hmiddle : true ∈ (coefficients.drop first).take 16 := by
    rw [hsplit, List.mem_append, List.mem_append] at hsome
    exact (hsome.resolve_left hbefore).resolve_right hbehind
  rw [hsplit, polynomialOf_append, polynomialOf_append, polynomialOf_eq_zero hbefore,
    polynomialOf_eq_zero hbehind, mul_zero, zero_add, add_zero]
  intro hdvd
  refine monic_divisor.not_dvd_of_degree_lt (polynomialOf_ne_zero hmiddle) ?_
    ((isCoprime_divisor _).dvd_of_dvd_mul_left hdvd)
  rw [degree_divisor]
  refine lt_of_lt_of_le (degree_polynomialOf_lt _) ?_
  rw [List.length_take]
  exact_mod_cast Nat.min_le_left _ _

/-- An odd number of ones is no multiple of the divisor. -/
theorem not_dvd_of_odd {coefficients : List Bool} (hodd : Odd (coefficients.count true)) :
    ¬ divisor ∣ polynomialOf coefficients := by
  rintro ⟨factor, hfactor⟩
  have heval := eval_one_polynomialOf coefficients
  rw [hfactor, eval_mul, eval_one_divisor, zero_mul] at heval
  exact ZMod.natCast_ne_zero_iff_odd.mpr hodd heval.symm

/-! ## The register -/

/-- The class of the polynomial of some bits modulo the divisor. -/
noncomputable def residue (coefficients : List Bool) : AdjoinRoot divisor :=
  AdjoinRoot.mk divisor (polynomialOf coefficients)

/-- The class of what a register holds. -/
noncomputable def held (register : UInt16) : AdjoinRoot divisor :=
  residue (lowBits register.toNat 16)

/-- The class of the indeterminate. -/
noncomputable def root : AdjoinRoot divisor :=
  AdjoinRoot.root divisor

theorem residue_eq_zero_iff {coefficients : List Bool} :
    residue coefficients = 0 ↔ divisor ∣ polynomialOf coefficients :=
  AdjoinRoot.mk_eq_zero

@[simp] theorem residue_nil : residue [] = 0 :=
  map_zero _

theorem residue_append (first second : List Bool) :
    residue (first ++ second) = root ^ second.length * residue first + residue second := by
  rw [residue, polynomialOf_append, map_add, map_mul, map_pow, AdjoinRoot.mk_X]
  rfl

theorem residue_xor {first second : List Bool} (h : first.length = second.length) :
    residue (List.zipWith xor first second) = residue first + residue second := by
  rw [residue, polynomialOf_xor h, map_add]
  rfl

theorem residue_replicate (count : Nat) : residue (List.replicate count false) = 0 := by
  rw [residue, polynomialOf_eq_zero (by simp [List.mem_replicate]), map_zero]

/-- Classes are added modulo two. -/
theorem residue_add_self (coefficients : List Bool) :
    residue coefficients + residue coefficients = 0 := by
  rw [residue, ← map_add, CharTwo.add_self_eq_zero, map_zero]

theorem held_xor (first second : UInt16) : held (first ^^^ second) = held first + held second := by
  rw [held, UInt16.toNat_xor, lowBits_xor, residue_xor (by simp)]
  rfl

/-- The low coefficients of the divisor stand for its leading power. -/
theorem held_polynomial : held polynomial = root ^ 16 := by
  have hlow : polynomialOf (lowBits polynomial.toNat 16) = X ^ 12 + X ^ 5 + 1 := by
    have hbits : lowBits polynomial.toNat 16 =
        [false, false, false, true, false, false, false, false, false, false, true, false,
          false, false, false, true] := by decide
    rw [hbits]
    simp [polynomialOf, add_assoc]
  have hpower : (root ^ 16 : AdjoinRoot divisor) = AdjoinRoot.mk divisor (X ^ 16) := by
    rw [map_pow, AdjoinRoot.mk_X]
    rfl
  rw [held, residue, hlow, hpower, AdjoinRoot.mk_eq_mk, CharTwo.sub_eq_add]
  exact ⟨1, by rw [divisor]; ring⟩

/-- The test of the most significant bit. -/
theorem topBit_eq (register : UInt16) :
    (register &&& 0x8000 != 0) = register.toNat.testBit 15 := by
  have hand : (register &&& 0x8000).toNat = (register.toNat.testBit 15).toNat * 2 ^ 15 := by
    have hpower : (0x8000 : UInt16).toNat = 2 ^ 15 := rfl
    rw [UInt16.toNat_and, hpower, Nat.and_two_pow]
  cases hbit : register.toNat.testBit 15 with
  | false =>
    have hzero : register &&& 0x8000 = 0 := by
      apply UInt16.toNat.inj
      rw [hand, hbit]
      rfl
    rw [hzero]
    rfl
  | true =>
    rw [bne_iff_ne]
    intro hzero
    rw [hzero, hbit] at hand
    cases hand

/-- A word that is moved up loses the bits above its new width. -/
theorem held_shiftLeft (word count : UInt16) {width : Nat} (hpos : 0 < width)
    (hwidth : width + count.toNat = 16) :
    held (word <<< count) = root ^ count.toNat * residue (lowBits word.toNat width) := by
  have hbits : lowBits (word <<< count).toNat 16 =
      lowBits word.toNat width ++ List.replicate count.toNat false := by
    have hcount : count.toNat % 16 = count.toNat := Nat.mod_eq_of_lt (by omega)
    rw [UInt16.toNat_shiftLeft, hcount, lowBits_mod (Nat.le_refl 16), ← hwidth, lowBits_shiftLeft]
  rw [held, hbits, residue_append, residue_replicate, List.length_replicate, add_zero]

/-- To shift is to multiply by the indeterminate. -/
theorem held_shift (register : UInt16) : held (shift register) = root * held register := by
  have hheld : held register =
      root ^ 15 * residue [register.toNat.testBit 15] + residue (lowBits register.toNat 15) := by
    have happend := residue_append [register.toNat.testBit 15] (lowBits register.toNat 15)
    rw [length_lowBits] at happend
    exact happend
  have hmoved : held (register <<< 1) = root ^ 1 * residue (lowBits register.toNat 15) :=
    held_shiftLeft register 1 (by decide) rfl
  rw [shift, topBit_eq, hheld]
  cases hbit : register.toNat.testBit 15 with
  | false =>
    have hnone : residue [false] = 0 := residue_replicate 1
    rw [if_neg Bool.false_ne_true, hmoved, hnone]
    ring
  | true =>
    have hone : residue [true] = 1 := by
      simp [residue, polynomialOf]
    rw [if_pos rfl, held_xor, hmoved, held_polynomial, hone]
    ring

theorem held_repeat (count : Nat) (register : UInt16) :
    held (Nat.repeat shift count register) = root ^ count * held register := by
  induction count with
  | zero => rw [Nat.repeat, pow_zero, one_mul]
  | succ count ih => rw [Nat.repeat, held_shift, ih, pow_succ, mul_comm _ root, mul_assoc]

/-- A byte is added to the upper half of the register. -/
theorem held_absorb (register : UInt16) (byte : UInt8) :
    held (absorb register byte) =
      root ^ 8 * (held register + root ^ 8 * residue (lowBits byte.toNat 8)) := by
  have hbyte : held (byte.toUInt16 <<< 8) = root ^ 8 * residue (lowBits byte.toNat 8) :=
    held_shiftLeft byte.toUInt16 8 (by decide) rfl
  rw [absorb, held_repeat, held_xor, hbyte]

/-- The register behind a byte string: what it held is moved up past the
bits of the string and of the register, and so is the string past those of
the register. -/
theorem held_update (register : UInt16) (data : Bytes) :
    held (update register data) =
      root ^ (8 * data.length) * held register + root ^ 16 * residue (bits data) := by
  induction data generalizing register with
  | nil => simp
  | cons byte data ih =>
    have hupdate : update register (byte :: data) = update (absorb register byte) data := rfl
    rw [hupdate, ih, held_absorb, bits_cons, residue_append, length_bits, List.length_cons]
    ring

/-! ## Byte strings that end in their checksum -/

/-- A byte string ends in the checksum of what comes before. -/
def Sealed (data : Bytes) : Prop :=
  ∃ front, data = front ++ Word.toBytes (ofBytes front)

/-- The residue of a sealed string depends on its length only. -/
theorem Sealed.residue_eq {data : Bytes} (h : Sealed data) :
    residue (bits data) = root ^ (8 * (data.length - 2)) * held initial := by
  obtain ⟨front, rfl⟩ := h
  have hheld : residue (lowBits (ofBytes front).toNat 16) =
      root ^ (8 * front.length) * held initial + root ^ 16 * residue (bits front) :=
    held_update initial front
  have htwice := residue_add_self (bits front)
  rw [bits_append, bits_toBytes, residue_append, hheld, length_lowBits, List.length_append,
    Word.length_toBytes, Nat.add_sub_cancel]
  linear_combination root ^ 16 * htwice

/-- A change that turns one sealed string into another is a multiple of the
divisor. -/
theorem Sealed.dvd_of_xorBytes {data error : Bytes} (hsealed : Sealed data)
    (hlength : error.length = data.length) (hchanged : Sealed (xorBytes data error)) :
    divisor ∣ polynomialOf (bits error) := by
  have hresidue := hchanged.residue_eq
  rw [length_xorBytes hlength, ← hsealed.residue_eq, bits_xorBytes hlength.symm, residue_xor (by simp [hlength])]
    at hresidue
  exact residue_eq_zero_iff.mp (left_eq_add.mp hresidue.symm)

end TestRig.Checksum
