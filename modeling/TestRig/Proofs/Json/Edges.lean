import TestRig.Json.Meaning
import Mathlib.Tactic.SplitIfs

/-!
# The edges of the text of a document

The text of a document starts with no control character but a blank, and
it does not end in a zero byte.  So a marker byte in front of it and zero
bytes behind it can be told from it.

* `EndsInZero` is carried through the readers from the front to the back:
  no reader takes a final zero, so it is still there when the value ends
  (`readValue_keepsEnd`).
* `chars_of_ofBytes?` relates the bytes of a document to its characters.
* `head_ne_of_ofBytes?` and `getLast_ne_of_ofBytes?` are the two facts on
  bytes.
-/

namespace TestRig.Json

/-! ## A zero at the end of a text -/

/-- The last character is the one with number zero. -/
def EndsInZero (text : List Char) : Prop :=
  text.getLast? = some '\x00'

theorem EndsInZero.tail {c : Char} {rest : List Char} (h : EndsInZero (c :: rest))
    (hc : c ≠ '\x00') : EndsInZero rest := by
  rcases rest with _ | ⟨d, rest⟩
  · exact absurd (Option.some.inj h) hc
  · rwa [EndsInZero, List.getLast?_cons_cons] at h

theorem EndsInZero.tail_of_ne_nil {c : Char} {rest : List Char} (h : EndsInZero (c :: rest))
    (hrest : rest ≠ []) : EndsInZero rest := by
  rcases rest with _ | ⟨d, rest⟩
  · exact absurd rfl hrest
  · rwa [EndsInZero, List.getLast?_cons_cons] at h

theorem not_endsInZero_nil : ¬ EndsInZero [] := by
  simp [EndsInZero]

/-- Dropping characters of a class without the zero keeps the end. -/
theorem EndsInZero.dropWhile {text : List Char} (h : EndsInZero text) {p : Char → Bool}
    (hp : p '\x00' = false) : EndsInZero (text.dropWhile p) := by
  induction text with
  | nil => exact h
  | cons c rest ih =>
    rw [List.dropWhile_cons]
    split_ifs with hc
    · apply ih
      apply h.tail
      rintro rfl
      rw [hp] at hc
      cases hc
    · exact h

theorem EndsInZero.skipBlank {text : List Char} (h : EndsInZero text) :
    EndsInZero (skipBlank text) :=
  h.dropWhile (by decide)

/-- A reader does not take a final zero. -/
def KeepsEnd {α : Type} (reader : Reader α) : Prop :=
  ∀ text a rest, reader text = some (a, rest) → EndsInZero text → EndsInZero rest

theorem KeepsEnd.map {α β : Type} {reader : Reader α} (h : KeepsEnd reader) (f : α → β) :
    KeepsEnd fun text => (reader text).map fun (a, rest) => (f a, rest) := by
  intro text b rest hread hend
  obtain ⟨⟨a, rest'⟩, hreader, heq⟩ := Option.map_eq_some_iff.mp hread
  cases heq
  exact h text a rest hreader hend

/-! ## The readers -/

theorem readSymbols_keepsEnd (soFar : List Symbol) : KeepsEnd (readSymbols soFar) := by
  intro text a rest hread hend
  fun_induction readSymbols soFar text with
  | case1 => cases hread
  | case2 soFar rest' =>
    cases hread
    exact hend.tail (by decide)
  | case3 soFar a b c d rest' code hunit ih =>
    apply ih hread
    rcases rest' with _ | ⟨e, rest'⟩
    · simp [readSymbols] at hread
    · rw [EndsInZero] at hend ⊢
      simpa only [List.getLast?_cons_cons] using hend
  | case4 => cases hread
  | case5 => cases hread
  | case6 soFar e rest' _ c hescape ih =>
    apply ih hread
    apply (hend.tail (by decide)).tail_of_ne_nil
    rintro rfl
    simp [readSymbols] at hread
  | case7 => cases hread
  | case8 => cases hread
  | case9 soFar c rest' _ _ _ _ hplain ih =>
    apply ih hread
    apply hend.tail_of_ne_nil
    rintro rfl
    simp [readSymbols] at hread

theorem readDigits_keepsEnd : KeepsEnd readDigits := by
  intro text a rest hread hend
  unfold readDigits at hread
  split at hread
  · cases hread
  · cases hread
    exact hend.dropWhile (by decide)

theorem readWhole_keepsEnd : KeepsEnd readWhole := by
  intro text a rest hread hend
  unfold readWhole at hread
  split at hread
  · cases hread
  · exact readDigits_keepsEnd text a rest hread hend

theorem readFraction_keepsEnd : KeepsEnd readFraction := by
  intro text a rest hread hend
  unfold readFraction at hread
  split at hread
  · exact readDigits_keepsEnd.map some _ a rest hread (hend.tail (by decide))
  · cases hread
    exact hend

theorem readSignedPower_keepsEnd : KeepsEnd readSignedPower := by
  intro text a rest hread hend
  unfold readSignedPower at hread
  split at hread
  · exact readDigits_keepsEnd.map _ _ a rest hread (hend.tail (by decide))
  · exact readDigits_keepsEnd.map _ _ a rest hread (hend.tail (by decide))
  · exact readDigits_keepsEnd.map _ _ a rest hread hend

theorem readPower_keepsEnd : KeepsEnd readPower := by
  intro text a rest hread hend
  unfold readPower at hread
  split at hread
  · exact readSignedPower_keepsEnd.map some _ a rest hread (hend.tail (by decide))
  · exact readSignedPower_keepsEnd.map some _ a rest hread (hend.tail (by decide))
  · cases hread
    exact hend

theorem readMagnitude_keepsEnd (negative : Bool) : KeepsEnd (readMagnitude negative) := by
  intro text a rest hread hend
  simp only [readMagnitude, Option.bind_eq_bind, Option.bind_eq_some_iff, Prod.exists] at hread
  obtain ⟨whole, rest1, hwhole, fraction, rest2, hfraction, power, rest3, hpower, hlast⟩ := hread
  cases hlast
  have hend1 := readWhole_keepsEnd _ _ _ hwhole hend
  have hend2 := readFraction_keepsEnd _ _ _ hfraction hend1
  exact readPower_keepsEnd _ _ _ hpower hend2

theorem readScalar_keepsEnd : KeepsEnd readScalar := by
  intro text a rest hread hend
  unfold readScalar at hread
  split at hread
  · cases hread
    exact (((hend.tail (by decide)).tail (by decide)).tail (by decide)).tail (by decide)
  · cases hread
    exact (((hend.tail (by decide)).tail (by decide)).tail (by decide)).tail (by decide)
  · cases hread
    exact ((((hend.tail (by decide)).tail (by decide)).tail (by decide)).tail (by decide)).tail
      (by decide)
  · exact (readSymbols_keepsEnd []).map _ _ a rest hread (hend.tail (by decide))
  · exact readMagnitude_keepsEnd true _ a rest hread (hend.tail (by decide))
  · exact readMagnitude_keepsEnd false _ a rest hread hend

theorem readElements_keepsEnd {item : Reader Written} (hitem : KeepsEnd item) (fuel : Nat)
    (soFar : List Written) : KeepsEnd (readElements item fuel soFar) := by
  induction fuel generalizing soFar with
  | zero =>
    intro text a rest hread
    cases hread
  | succ fuel ih =>
    intro text a rest hread hend
    simp only [readElements, Option.bind_eq_bind, Option.bind_eq_some_iff, Prod.exists] at hread
    obtain ⟨element, rest1, hfirst, hread⟩ := hread
    have hend1 := (hitem _ _ _ hfirst hend).skipBlank
    split at hread
    · rename_i heq
      rw [heq] at hend1
      exact ih _ _ a rest hread (hend1.tail (by decide))
    · rename_i heq
      rw [heq] at hend1
      cases hread
      exact hend1.tail (by decide)
    · cases hread

theorem readKey_keepsEnd : KeepsEnd readKey := by
  intro text a rest hread hend
  unfold readKey at hread
  split at hread
  · rename_i rest1 heq
    have hend1 := hend.skipBlank
    rw [heq] at hend1
    simp only [Option.bind_eq_bind, Option.bind_eq_some_iff, Prod.exists] at hread
    obtain ⟨key, rest2, hkey, hread⟩ := hread
    have hend2 := (readSymbols_keepsEnd [] _ _ _ hkey (hend1.tail (by decide))).skipBlank
    split at hread
    · rename_i heq2
      rw [heq2] at hend2
      cases hread
      exact hend2.tail (by decide)
    · cases hread
  · cases hread

theorem readMembers_keepsEnd {item : Reader Written} (hitem : KeepsEnd item) (fuel : Nat)
    (soFar : List (List Symbol × Written)) : KeepsEnd (readMembers item fuel soFar) := by
  induction fuel generalizing soFar with
  | zero =>
    intro text a rest hread
    cases hread
  | succ fuel ih =>
    intro text a rest hread hend
    simp only [readMembers, Option.bind_eq_bind, Option.bind_eq_some_iff, Prod.exists] at hread
    obtain ⟨key, rest1, hkey, value, rest2, hvalue, hread⟩ := hread
    have hend1 := readKey_keepsEnd _ _ _ hkey hend
    have hend2 := (hitem _ _ _ hvalue hend1).skipBlank
    split at hread
    · rename_i heq
      rw [heq] at hend2
      exact ih _ _ a rest hread (hend2.tail (by decide))
    · rename_i heq
      rw [heq] at hend2
      cases hread
      exact hend2.tail (by decide)
    · cases hread

theorem readValue_keepsEnd (fuel depth : Nat) : KeepsEnd (readValue fuel depth) := by
  induction depth with
  | zero =>
    intro text a rest hread hend
    exact readScalar_keepsEnd _ a rest hread hend.skipBlank
  | succ depth ih =>
    intro text a rest hread hend
    have hend1 := hend.skipBlank
    unfold readValue at hread
    split at hread
    · rename_i heq
      rw [heq] at hend1
      have hend2 := (hend1.tail (by decide)).skipBlank
      split at hread
      · rename_i heq2
        rw [heq2] at hend2
        cases hread
        exact hend2.tail (by decide)
      · exact (readElements_keepsEnd ih fuel []).map _ _ a rest hread hend2
    · rename_i heq
      rw [heq] at hend1
      have hend2 := (hend1.tail (by decide)).skipBlank
      split at hread
      · rename_i heq2
        rw [heq2] at hend2
        cases hread
        exact hend2.tail (by decide)
      · exact (readMembers_keepsEnd ih fuel []).map _ _ a rest hread hend2
    · exact readScalar_keepsEnd _ a rest hread hend1

/-- A text that ends in the zero character is not a document. -/
theorem parse?_of_endsInZero {text : List Char} (h : EndsInZero text) (depth : Nat) :
    Written.parse? depth text = none := by
  unfold Written.parse?
  split
  · rename_i written rest hread
    have hend := (readValue_keepsEnd _ depth _ _ _ hread h).skipBlank
    rw [if_neg]
    intro hempty
    rw [List.isEmpty_iff.mp hempty] at hend
    exact not_endsInZero_nil hend
  · rfl

/-! ## A control character at the front of a text -/

theorem readDigits_of_not_digit {c : Char} (hc : c.isDigit = false) (rest : List Char) :
    readDigits (c :: rest) = none := by
  simp [readDigits, hc]

/-- The marker character opens neither a value nor a run of blanks. -/
theorem readValue_marker (fuel depth : Nat) (rest : List Char) :
    readValue fuel depth ('\x04' :: rest) = none := by
  have hskip : skipBlank ('\x04' :: rest) = '\x04' :: rest := rfl
  have hdigits : readDigits ('\x04' :: rest) = none := readDigits_of_not_digit rfl rest
  have hscalar : readScalar ('\x04' :: rest) = none := by
    show readMagnitude false ('\x04' :: rest) = none
    simp [readMagnitude, readWhole, hdigits]
  cases depth with
  | zero => exact hscalar
  | succ depth =>
    simp only [readValue, hskip]
    exact hscalar

theorem parse?_marker (depth : Nat) (rest : List Char) :
    Written.parse? depth ('\x04' :: rest) = none := by
  rw [Written.parse?, readValue_marker]

/-! ## From characters to bytes -/

/-- Only the zero character is encoded with a final zero byte: every byte
behind the first one has its high bit set. -/
theorem eq_zero_of_getLast?_encode {c : Char}
    (h : (String.utf8EncodeChar c).getLast? = some 0) : c = '\x00' := by
  apply Char.toNat_inj.mp
  show c.val.toNat = 0
  simp only [String.utf8EncodeChar] at h
  split_ifs at h <;>
    simp only [List.getLast?_cons_cons, List.getLast?_singleton, Option.some.injEq,
      ← UInt8.toNat_inj, UInt8.toNat_ofNat', UInt8.toNat_zero] at h <;>
    omega

/-- A character with a byte below 128 in front is that byte. -/
theorem eq_marker_of_head?_encode {c : Char}
    (h : (String.utf8EncodeChar c).head? = some 4) : c = '\x04' := by
  apply Char.toNat_inj.mp
  show c.val.toNat = 4
  simp only [String.utf8EncodeChar] at h
  split_ifs at h <;>
    simp only [List.head?_cons, Option.some.injEq, ← UInt8.toNat_inj, UInt8.toNat_ofNat',
      UInt8.reduceToNat] at h <;>
    omega

/-- The characters of a document, and its bytes as their encoding. -/
theorem chars_of_ofBytes? {data : List UInt8} {value : Value}
    (h : Value.ofBytes? data = some value) :
    ∃ text : List Char, data = text.flatMap String.utf8EncodeChar ∧
      Value.parse? text = some value := by
  obtain ⟨text, htext, hparse⟩ := Option.bind_eq_some_iff.mp h
  refine ⟨text.toList, ?_, hparse⟩
  unfold String.fromUTF8? at htext
  split_ifs at htext with hvalid
  have hencode := String.utf8Encode_toList (b := text)
  rw [← Option.some.inj htext] at hencode ⊢
  have hbytes := congrArg (fun bytes => bytes.data.toList) hencode
  rwa [List.utf8Encode, List.toList_data_toByteArray, eq_comm] at hbytes

/-- The text of a document does not start with the marker byte. -/
theorem head_ne_of_ofBytes? {data : List UInt8} {value : Value}
    (h : Value.ofBytes? data = some value) : data.head? ≠ some 4 := by
  obtain ⟨text, rfl, hparse⟩ := chars_of_ofBytes? h
  intro hhead
  rcases text with _ | ⟨c, rest⟩
  · cases hhead
  · have hfirst : (String.utf8EncodeChar c).head? = some 4 := by
      rw [List.flatMap_cons, List.head?_append] at hhead
      rcases hcode : String.utf8EncodeChar c with _ | ⟨byte, code⟩
      · exact absurd hcode String.utf8EncodeChar_ne_nil
      · rwa [hcode] at hhead
    rw [eq_marker_of_head?_encode hfirst, Value.parse?, parse?_marker] at hparse
    cases hparse

/-- The text of a document does not end in a zero byte. -/
theorem getLast_ne_of_ofBytes? {data : List UInt8} {value : Value}
    (h : Value.ofBytes? data = some value) : data.getLast? ≠ some 0 := by
  obtain ⟨text, rfl, hparse⟩ := chars_of_ofBytes? h
  intro hlast
  rcases List.eq_nil_or_concat text with rfl | ⟨front, c, rfl⟩
  · cases hlast
  · rw [List.concat_eq_append] at hlast hparse
    have hfinal : (String.utf8EncodeChar c).getLast? = some 0 := by
      rw [List.flatMap_append, List.flatMap_singleton, List.getLast?_append] at hlast
      rwa [List.getLast?_eq_some_getLast String.utf8EncodeChar_ne_nil] at hlast ⊢
    have hend : EndsInZero (front ++ [c]) := by
      rw [eq_zero_of_getLast?_encode hfinal, EndsInZero, List.getLast?_concat]
    rw [Value.parse?, parse?_of_endsInZero hend] at hparse
    cases hparse

end TestRig.Json
