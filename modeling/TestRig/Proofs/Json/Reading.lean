import TestRig.Json.Meaning
import TestRig.Json.Render
import Mathlib.Data.List.Forall2
import Mathlib.Tactic.IntervalCases
import Mathlib.Tactic.SplitIfs

/-!
# Reading a rendered document

The text that a document is rendered as is read as that document again.
The renderer and the reader share no code: strings are escaped on the one
side and unescaped on the other, integers are written by digits and read
by value, and the reader counts levels and elements.

* `Plain` is a document without floating-point numbers whose objects have
  their keys in order, with a bound on the number of levels.
* `Spells` says that a text is read as a value wherever it stands, in front
  of whatever can follow a value (`Closes`).  There is one lemma for each
  kind of value, and `spells_render` puts them together along `Plain`.
* `spells_object` is for objects in any order; their members are put in the
  order of their keys.
* `ofBytes?_bytes` is the fact on bytes.
-/

namespace TestRig.Json

/-! ## Digits -/

/-- What comes next does not go on with a number. -/
def Closes (rest : List Char) : Prop :=
  ∀ c ∈ rest.head?, c.isDigit = false ∧ c ≠ '.' ∧ c ≠ 'e' ∧ c ≠ 'E'

theorem closes_nil : Closes [] := by
  rintro c ⟨⟩

theorem closes_cons {c : Char} (rest : List Char)
    (h : c.isDigit = false ∧ c ≠ '.' ∧ c ≠ 'e' ∧ c ≠ 'E') : Closes (c :: rest) := by
  intro d hd
  cases hd
  exact h

/-- The digits of a number end where the number ends. -/
theorem readDigits_append {digits rest : List Char} (hne : digits ≠ [])
    (hdigits : ∀ c ∈ digits, c.isDigit = true) (hrest : Closes rest) :
    readDigits (digits ++ rest) = some (digits, rest) := by
  have hstop : rest.takeWhile Char.isDigit = [] ∧ rest.dropWhile Char.isDigit = rest := by
    rcases rest with _ | ⟨c, rest⟩
    · exact ⟨rfl, rfl⟩
    · have hc := (hrest c rfl).1
      simp [hc]
  rw [readDigits, List.takeWhile_append_of_pos hdigits, List.dropWhile_append_of_pos hdigits,
    hstop.1, hstop.2, List.append_nil]
  cases digits with
  | nil => exact absurd rfl hne
  | cons c digits => rfl

/-- A positive number is written without a leading zero. -/
theorem head?_toDigits_ne_zero {n : Nat} (h : 0 < n) : (Nat.toDigits 10 n).head? ≠ some '0' := by
  induction n using Nat.strong_induction_on with
  | _ n ih =>
    by_cases hsmall : n < 10
    · rw [Nat.toDigits_of_lt_base hsmall]
      interval_cases n <;> decide
    · have hlast := Nat.toDigits_of_base_le (b := 10) (by decide) (Nat.le_of_not_lt hsmall)
      rw [hlast, List.head?_append_of_ne_nil _ Nat.toDigits_ne_nil]
      exact ih (n / 10) (by omega) (by omega)

theorem readWhole_toDigits (n : Nat) {rest : List Char} (hrest : Closes rest) :
    readWhole (Nat.toDigits 10 n ++ rest) = some (Nat.toDigits 10 n, rest) := by
  have hread : readDigits (Nat.toDigits 10 n ++ rest) = some (Nat.toDigits 10 n, rest) :=
    readDigits_append Nat.toDigits_ne_nil
      (fun c hc => Nat.isDigit_of_mem_toDigits (by decide) (by decide) hc) hrest
  rw [readWhole, hread]
  split
  · rename_i second others behind heq
    have hdigits := (Prod.mk.inj (Option.some.inj heq)).1
    rcases Nat.eq_zero_or_pos n with rfl | hpos
    · cases hdigits
    · exact absurd (congrArg List.head? hdigits) (head?_toDigits_ne_zero hpos)
  · rfl

/-- An integer without its sign is read as its digits. -/
theorem readMagnitude_toDigits (negative : Bool) (n : Nat) {rest : List Char}
    (hrest : Closes rest) :
    readMagnitude negative (Nat.toDigits 10 n ++ rest) =
      some (.number ⟨negative, Nat.toDigits 10 n, none, none⟩, rest) := by
  have hfraction : readFraction rest = some (none, rest) := by
    unfold readFraction
    split
    · exact absurd rfl (hrest '.' rfl).2.1
    · rfl
  have hpower : readPower rest = some (none, rest) := by
    unfold readPower
    split
    · exact absurd rfl (hrest 'e' rfl).2.2.1
    · exact absurd rfl (hrest 'E' rfl).2.2.2
    · rfl
  simp [readMagnitude, readWhole_toDigits n hrest, hfraction, hpower]

theorem natOfDigits_toDigits (n : Nat) : natOfDigits (Nat.toDigits 10 n) = n := by
  rw [natOfDigits, ← Nat.ofDigitChars_eq_foldl, Nat.ofDigitChars_ten_toDigits]

/-! ## Strings -/

/-- The symbol that a rendered character is read as. -/
def symbolOf (c : Char) : Symbol :=
  match c with
  | '\x08' | '\x0c' | '\n' | '\r' | '\t' => .plain c
  | c => if c.toNat < 0x20 then .unit c.toNat else .plain c

/-- Two hexadecimal digits are read as the control character that they are
written for. -/
theorem unit?_hexDigit : ∀ n < 0x20, unit? '0' '0' (hexDigit (n / 16)) (hexDigit n) = some n := by
  decide

theorem readSymbols_escapeChar (soFar : List Symbol) (c : Char) (rest : List Char) :
    readSymbols soFar (escapeChar c ++ rest) = readSymbols (symbolOf c :: soFar) rest := by
  unfold escapeChar
  split
  case h_8 hquote hbackslash hb hf hn hr ht =>
    have hsymbol : symbolOf c = if c.toNat < 0x20 then .unit c.toNat else .plain c := by
      unfold symbolOf
      split <;> first | rfl | contradiction
    rw [hsymbol]
    split_ifs with hcontrol
    · simp only [List.cons_append, List.nil_append, readSymbols, unit?_hexDigit _ hcontrol]
    · rw [List.singleton_append, readSymbols.eq_def]
      split <;> simp_all
  all_goals rfl

theorem readSymbols_render (soFar : List Symbol) (chars rest : List Char) :
    readSymbols soFar (chars.flatMap escapeChar ++ '"' :: rest) =
      some (soFar.reverse ++ chars.map symbolOf, rest) := by
  induction chars generalizing soFar with
  | nil => simp [readSymbols]
  | cons c chars ih =>
    rw [List.flatMap_cons, List.append_assoc, readSymbols_escapeChar, ih, List.reverse_cons,
      List.append_assoc, List.singleton_append, List.map_cons]

/-- The number of a control character is no half of a pair. -/
theorem charsLoop_unit {code : Nat} (h : code < 0x20) (soFar : List Char) (rest : List Symbol) :
    charsLoop soFar (.unit code :: rest) = charsLoop (Char.ofNat code :: soFar) rest := by
  have hleading : isLeading code = false := by
    simp only [isLeading, Bool.and_eq_false_iff, decide_eq_false_iff_not]
    omega
  have htrailing : isTrailing code = false := by
    simp only [isTrailing, Bool.and_eq_false_iff, decide_eq_false_iff_not]
    omega
  rcases rest with _ | ⟨_ | _, _⟩ <;> simp [charsLoop, hleading, htrailing]

theorem charsLoop_symbolOf (soFar : List Char) (c : Char) (rest : List Symbol) :
    charsLoop soFar (symbolOf c :: rest) = charsLoop (c :: soFar) rest := by
  unfold symbolOf
  split
  case h_6 =>
    split_ifs with hcontrol
    · rw [charsLoop_unit hcontrol, Char.ofNat_toNat]
    · rfl
  all_goals rfl

theorem text?_symbolOf (text : String) : text? (text.toList.map symbolOf) = some text := by
  have hloop : ∀ (chars soFar : List Char),
      charsLoop soFar (chars.map symbolOf) = some (soFar.reverse ++ chars) := by
    intro chars
    induction chars with
    | nil => simp [charsLoop]
    | cons c chars ih =>
      intro soFar
      rw [List.map_cons, charsLoop_symbolOf, ih, List.reverse_cons, List.append_assoc,
        List.singleton_append]
  rw [text?, hloop, List.reverse_nil, List.nil_append, Option.map_some, String.ofList_toList]

/-! ## Values -/

/-- A document without floating-point numbers, with at most `depth` arrays
and objects around each other.  Integers fit 64 bits, with or without a
sign, and the keys of an object are in order. -/
inductive Plain : Nat → Value → Prop where
  | null (depth : Nat) : Plain depth .null
  | boolean (depth : Nat) (value : Bool) : Plain depth (.boolean value)
  | integer (depth : Nat) {n : Int} (hmin : minInteger ≤ n) (hbound : n < integerBound) :
      Plain depth (.number (.integer n))
  | string (depth : Nat) (value : String) : Plain depth (.string value)
  | array {depth : Nat} {elements : List Value} (h : ∀ element ∈ elements, Plain depth element) :
      Plain (depth + 1) (.array elements)
  | object {depth : Nat} {members : List (String × Value)}
      (hsorted : (members.map Prod.fst).Pairwise (· < ·))
      (h : ∀ member ∈ members, Plain depth member.2) : Plain (depth + 1) (.object members)

/-- The text is read as the value wherever it stands.  The fuel of the
reader need not exceed the length of the text. -/
structure Spells (depth : Nat) (text : List Char) (value : Value) : Prop where
  /-- The text opens with neither a blank nor the end of an array. -/
  opens : ∃ c rest, text = c :: rest ∧ isBlank c = false ∧ c ≠ ']'
  reads : ∀ fuel rest, text.length ≤ fuel → Closes rest →
    ∃ written, readValue fuel depth (text ++ rest) = some (written, rest) ∧
      Value.ofWritten? written = some value

theorem skipBlank_cons {c : Char} (h : isBlank c = false) (rest : List Char) :
    skipBlank (c :: rest) = c :: rest := by
  rw [skipBlank, List.dropWhile_cons, h, if_neg Bool.false_ne_true]

theorem Spells.length_pos {depth : Nat} {text : List Char} {value : Value}
    (h : Spells depth text value) : 0 < text.length := by
  obtain ⟨c, tail, rfl, _⟩ := h.opens
  exact Nat.succ_pos _

/-- A text that opens neither an array nor an object is read as a scalar. -/
theorem readValue_scalar {c : Char} (hblank : isBlank c = false) (harray : c ≠ '[')
    (hobject : c ≠ '\x7b') (fuel depth : Nat) (rest : List Char) :
    readValue fuel depth (c :: rest) = readScalar (c :: rest) := by
  have hskip : skipBlank (c :: rest) = c :: rest := skipBlank_cons hblank rest
  cases depth with
  | zero => simp only [readValue, hskip]
  | succ depth =>
    simp only [readValue, hskip]
    split
    · rename_i heq
      exact absurd (List.cons.inj heq).1 harray
    · rename_i heq
      exact absurd (List.cons.inj heq).1 hobject
    · rfl

/-- A value that is neither an array nor an object. -/
theorem spells_scalar {text : List Char} {value : Value} (depth : Nat) {c : Char}
    {tail : List Char} (htext : text = c :: tail)
    (hc : isBlank c = false ∧ c ≠ ']' ∧ c ≠ '[' ∧ c ≠ '\x7b')
    (h : ∀ rest, Closes rest → ∃ written, readScalar (text ++ rest) = some (written, rest) ∧
      Value.ofWritten? written = some value) : Spells depth text value := by
  subst htext
  obtain ⟨hblank, hend, harray, hobject⟩ := hc
  refine ⟨⟨c, tail, rfl, hblank, hend⟩, ?_⟩
  intro fuel rest _ hrest
  obtain ⟨written, hread, hvalue⟩ := h rest hrest
  refine ⟨written, ?_, hvalue⟩
  rw [List.cons_append, readValue_scalar hblank harray hobject]
  exact hread

theorem spells_string (depth : Nat) (value : String) :
    Spells depth (renderString value) (.string value) := by
  refine spells_scalar depth rfl (by decide) ?_
  intro rest _
  refine ⟨.string (value.toList.map symbolOf), ?_, ?_⟩
  · rw [renderString, List.cons_append, List.append_assoc, List.singleton_append, readScalar,
      readSymbols_render]
    rfl
  · rw [Value.ofWritten?, text?_symbolOf]
    rfl

theorem ne_of_isDigit {c d : Char} (hc : c.isDigit = true) (hd : d.isDigit = false) : c ≠ d := by
  rintro rfl
  rw [hc] at hd
  cases hd

/-- A text that opens with a digit is read as a number. -/
theorem readScalar_of_isDigit {c : Char} (hc : c.isDigit = true) (rest : List Char) :
    readScalar (c :: rest) = readMagnitude false (c :: rest) := by
  unfold readScalar
  split
  case h_6 => rfl
  all_goals
    rename_i heq
    cases heq
    cases hc

/-- The number of the digits of an integer and its sign. -/
theorem number?_toDigits {n : Int} (hmin : minInteger ≤ n) (hbound : n < integerBound) :
    Numeral.number? ⟨decide (n < 0), Nat.toDigits 10 n.natAbs, none, none⟩ =
      some (.integer n) := by
  simp only [Numeral.number?, natOfDigits_toDigits, Option.isSome_none, Bool.or_self,
    Bool.false_eq_true, if_false, decide_eq_true_eq]
  split_ifs with hnegative hfloat hfloat
  · omega
  · rw [show -(n.natAbs : Int) = n by omega]
  · omega
  · rw [show (n.natAbs : Int) = n by omega]

theorem spells_integer (depth : Nat) {n : Int} (hmin : minInteger ≤ n)
    (hbound : n < integerBound) : Spells depth (renderInt n) (.number (.integer n)) := by
  have hvalue : Value.ofWritten?
      (.number ⟨decide (n < 0), Nat.toDigits 10 n.natAbs, none, none⟩) =
        some (.number (.integer n)) := by
    rw [Value.ofWritten?, number?_toDigits hmin hbound]
    rfl
  unfold renderInt
  split_ifs with hnegative
  · rw [decide_eq_true hnegative] at hvalue
    refine spells_scalar depth rfl (by decide) ?_
    intro rest hrest
    exact ⟨_, readMagnitude_toDigits true n.natAbs hrest, hvalue⟩
  · rw [decide_eq_false hnegative] at hvalue
    obtain ⟨c, digits, hdigits⟩ := List.exists_cons_of_ne_nil
      (Nat.toDigits_ne_nil (n := n.natAbs) (b := 10))
    have hc : c.isDigit = true := by
      refine Nat.isDigit_of_mem_toDigits (b := 10) (n := n.natAbs) (by decide) (by decide) ?_
      rw [hdigits]
      exact List.mem_cons_self
    have hblank : isBlank c = false := by
      simp [isBlank, ne_of_isDigit hc]
    refine spells_scalar depth hdigits
      ⟨hblank, ne_of_isDigit hc rfl, ne_of_isDigit hc rfl, ne_of_isDigit hc rfl⟩ ?_
    intro rest hrest
    have hread := readMagnitude_toDigits false n.natAbs hrest
    refine ⟨_, ?_, hvalue⟩
    rw [hdigits, List.cons_append] at hread ⊢
    rw [readScalar_of_isDigit hc, hread]

/-! ## Arrays -/

section Elements

variable {item : Reader Written} {text rest : List Char} {element : Written}

theorem readElements_last (h : item text = some (element, ']' :: rest)) (turns : Nat)
    (soFar : List Written) :
    readElements item (turns + 1) soFar text = some (soFar.reverse ++ [element], rest) := by
  have hskip : skipBlank (']' :: rest) = ']' :: rest := rfl
  simp [readElements, h, hskip]

theorem readElements_more (h : item text = some (element, ',' :: rest)) (turns : Nat)
    (soFar : List Written) :
    readElements item (turns + 1) soFar text =
      readElements item turns (element :: soFar) rest := by
  have hskip : skipBlank (',' :: rest) = ',' :: rest := rfl
  simp [readElements, h, hskip]

end Elements

theorem renderElements_cons_cons (element next : Value) (others : List Value) :
    Value.renderElements (element :: next :: others) =
      element.render ++ ',' :: Value.renderElements (next :: others) := by
  simp [Value.renderElements]

/-- Each written value means the value in its place. -/
abbrev Mean (found : List Written) (elements : List Value) : Prop :=
  List.Forall₂ (fun written element => Value.ofWritten? written = some element) found elements

/-- The elements of an array up to its end, at least one. -/
theorem readElements_render {fuel depth turns : Nat} {elements : List Value}
    (hne : elements ≠ []) (helements : ∀ element ∈ elements, Spells depth element.render element)
    (hfuel : (Value.renderElements elements).length ≤ fuel)
    (hturns : (Value.renderElements elements).length ≤ turns) (soFar : List Written)
    (rest : List Char) :
    ∃ found, readElements (readValue fuel depth) turns soFar
        (Value.renderElements elements ++ ']' :: rest) = some (soFar.reverse ++ found, rest) ∧
      Mean found elements := by
  induction elements generalizing soFar turns with
  | nil => exact absurd rfl hne
  | cons element others ih =>
    have hfirst := helements element List.mem_cons_self
    have hpos : 0 < element.render.length := hfirst.length_pos
    cases others with
    | nil =>
      rw [Value.renderElements] at hfuel hturns ⊢
      obtain ⟨turns, rfl⟩ := Nat.exists_eq_add_one.mpr (Nat.lt_of_lt_of_le hpos hturns)
      obtain ⟨written, hread, hvalue⟩ := hfirst.reads fuel (']' :: rest) hfuel
        (closes_cons rest (by decide))
      exact ⟨[written], readElements_last hread turns soFar, .cons hvalue .nil⟩
    | cons next others =>
      rw [renderElements_cons_cons, List.length_append, List.length_cons] at hfuel hturns
      rw [renderElements_cons_cons, List.append_assoc, List.cons_append]
      obtain ⟨turns, rfl⟩ := Nat.exists_eq_add_one.mpr (show 0 < turns by omega)
      have hless : (Value.renderElements (next :: others)).length ≤ turns := by omega
      obtain ⟨written, hread, hvalue⟩ := hfirst.reads fuel
        (',' :: (Value.renderElements (next :: others) ++ ']' :: rest)) (by omega)
        (closes_cons _ (by decide))
      obtain ⟨found, hrest, hmean⟩ := ih (List.cons_ne_nil _ _)
        (fun value hvalue => helements value (List.mem_cons_of_mem _ hvalue)) (by omega) hless
        (written :: soFar)
      refine ⟨written :: found, ?_, .cons hvalue hmean⟩
      rw [readElements_more hread, hrest, List.reverse_cons, List.append_assoc,
        List.singleton_append]

theorem ofElements?_of_mean {found : List Written} {elements : List Value}
    (h : Mean found elements) (soFar : List Value) :
    Value.ofElements? soFar found = some (.array (soFar.reverse ++ elements)) := by
  induction h generalizing soFar with
  | nil => rw [Value.ofElements?, List.append_nil]
  | cons hfirst _ ih =>
    rw [Value.ofElements?, hfirst]
    exact (ih _).trans (by rw [List.reverse_cons, List.append_assoc, List.singleton_append])

/-- An array with elements is read from its first element on. -/
theorem readValue_array {c : Char} (hblank : isBlank c = false) (hend : c ≠ ']')
    {fuel depth : Nat} {text rest : List Char} {found : List Written}
    (h : readElements (readValue fuel depth) fuel [] (c :: text) = some (found, rest)) :
    readValue fuel (depth + 1) ('[' :: c :: text) = some (.array found, rest) := by
  have hskip : skipBlank ('[' :: c :: text) = '[' :: c :: text := rfl
  simp only [readValue, hskip, skipBlank_cons hblank]
  split
  · rename_i heq
    exact absurd (List.cons.inj heq).1 hend
  · rw [h]
    rfl

theorem spells_array {depth : Nat} {elements : List Value}
    (helements : ∀ element ∈ elements, Spells depth element.render element) :
    Spells (depth + 1) (Value.array elements).render (.array elements) := by
  rw [Value.render]
  refine ⟨⟨'[', _, rfl, rfl, by decide⟩, ?_⟩
  intro fuel rest hfuel _
  rw [List.length_cons, List.length_append, List.length_singleton] at hfuel
  rw [List.cons_append, List.append_assoc, List.singleton_append]
  cases elements with
  | nil => exact ⟨.array [], rfl, rfl⟩
  | cons first others =>
    obtain ⟨found, hread, hmean⟩ := @readElements_render fuel depth fuel (first :: others)
      (List.cons_ne_nil _ _) helements (by omega) (by omega) [] rest
    refine ⟨.array found, ?_, ofElements?_of_mean hmean []⟩
    obtain ⟨c, tail, hfirst, hblank, hend⟩ := (helements first List.mem_cons_self).opens
    obtain ⟨behind, htext⟩ : ∃ behind, Value.renderElements (first :: others) = c :: behind := by
      cases others with
      | nil => exact ⟨tail, by rw [Value.renderElements, hfirst]⟩
      | cons next others =>
        exact ⟨_, by rw [renderElements_cons_cons, hfirst, List.cons_append]⟩
    rw [htext, List.cons_append] at hread ⊢
    exact readValue_array hblank hend hread

/-! ## Objects -/

theorem readKey_render (key : String) (rest : List Char) :
    readKey (renderString key ++ ':' :: rest) = some (key.toList.map symbolOf, rest) := by
  have hcolon : skipBlank (':' :: rest) = ':' :: rest := rfl
  have hquote : ∀ text, skipBlank ('"' :: text) = '"' :: text := fun text => rfl
  rw [renderString, List.cons_append, List.append_assoc, List.singleton_append, readKey, hquote]
  simp [readSymbols_render, hcolon]

section Members

variable {item : Reader Written} {text middle rest : List Char} {key : List Symbol}
  {value : Written}

theorem readMembers_last (hkey : readKey text = some (key, middle))
    (hitem : item middle = some (value, '\x7d' :: rest)) (turns : Nat)
    (soFar : List (List Symbol × Written)) :
    readMembers item (turns + 1) soFar text = some (soFar.reverse ++ [(key, value)], rest) := by
  have hskip : skipBlank ('\x7d' :: rest) = '\x7d' :: rest := rfl
  simp [readMembers, hkey, hitem, hskip]

theorem readMembers_more (hkey : readKey text = some (key, middle))
    (hitem : item middle = some (value, ',' :: rest)) (turns : Nat)
    (soFar : List (List Symbol × Written)) :
    readMembers item (turns + 1) soFar text =
      readMembers item turns ((key, value) :: soFar) rest := by
  have hskip : skipBlank (',' :: rest) = ',' :: rest := rfl
  simp [readMembers, hkey, hitem, hskip]

end Members

theorem renderMembers_cons_cons (member next : String × Value) (others : List (String × Value)) :
    Value.renderMembers (member :: next :: others) =
      renderString member.1 ++ ':' ::
        (member.2.render ++ ',' :: Value.renderMembers (next :: others)) := by
  simp [Value.renderMembers]

/-- Each written member means the member in its place. -/
abbrev MeanMembers (found : List (List Symbol × Written)) (members : List (String × Value)) :
    Prop :=
  List.Forall₂ (fun written member =>
    text? written.1 = some member.1 ∧ Value.ofWritten? written.2 = some member.2) found members

/-- The members of an object up to its end, at least one. -/
theorem readMembers_render {fuel depth turns : Nat} {members : List (String × Value)}
    (hne : members ≠ []) (hmembers : ∀ member ∈ members, Spells depth member.2.render member.2)
    (hfuel : (Value.renderMembers members).length ≤ fuel)
    (hturns : (Value.renderMembers members).length ≤ turns)
    (soFar : List (List Symbol × Written)) (rest : List Char) :
    ∃ found, readMembers (readValue fuel depth) turns soFar
        (Value.renderMembers members ++ '\x7d' :: rest) = some (soFar.reverse ++ found, rest) ∧
      MeanMembers found members := by
  induction members generalizing soFar turns with
  | nil => exact absurd rfl hne
  | cons member others ih =>
    have hfirst := hmembers member List.mem_cons_self
    cases others with
    | nil =>
      rw [Value.renderMembers, List.length_append, List.length_cons] at hfuel hturns
      rw [Value.renderMembers, List.append_assoc, List.cons_append]
      obtain ⟨turns, rfl⟩ := Nat.exists_eq_add_one.mpr (show 0 < turns by omega)
      obtain ⟨written, hread, hvalue⟩ := hfirst.reads fuel ('\x7d' :: rest) (by omega)
        (closes_cons rest (by decide))
      exact ⟨[(_, written)], readMembers_last (readKey_render member.1 _) hread turns soFar,
        .cons ⟨text?_symbolOf member.1, hvalue⟩ .nil⟩
    | cons next others =>
      rw [renderMembers_cons_cons, List.length_append, List.length_cons, List.length_append,
        List.length_cons] at hfuel hturns
      rw [renderMembers_cons_cons, List.append_assoc, List.cons_append, List.append_assoc,
        List.cons_append]
      obtain ⟨turns, rfl⟩ := Nat.exists_eq_add_one.mpr (show 0 < turns by omega)
      have hless : (Value.renderMembers (next :: others)).length ≤ turns := by omega
      obtain ⟨written, hread, hvalue⟩ := hfirst.reads fuel
        (',' :: (Value.renderMembers (next :: others) ++ '\x7d' :: rest)) (by omega)
        (closes_cons _ (by decide))
      obtain ⟨found, hrest, hmean⟩ := ih (List.cons_ne_nil _ _)
        (fun value hvalue => hmembers value (List.mem_cons_of_mem _ hvalue)) (by omega) hless
        ((member.1.toList.map symbolOf, written) :: soFar)
      refine ⟨(_, written) :: found, ?_, .cons ⟨text?_symbolOf member.1, hvalue⟩ hmean⟩
      rw [readMembers_more (readKey_render member.1 _) hread, hrest, List.reverse_cons,
        List.append_assoc, List.singleton_append]

theorem ofWrittenMembers?_of_mean {found : List (List Symbol × Written)}
    {members : List (String × Value)} (h : MeanMembers found members)
    (soFar : List (String × Value)) :
    Value.ofWrittenMembers? soFar found = some (.ofMembers (soFar.reverse ++ members)) := by
  induction h generalizing soFar with
  | nil => rw [Value.ofWrittenMembers?, List.append_nil]
  | cons hfirst _ ih =>
    rw [Value.ofWrittenMembers?, hfirst.1, hfirst.2]
    exact (ih _).trans (by rw [List.reverse_cons, List.append_assoc, List.singleton_append])

/-- An object with members is read from the quote of its first key on. -/
theorem readValue_object {fuel depth : Nat} {text rest : List Char}
    {found : List (List Symbol × Written)}
    (h : readMembers (readValue fuel depth) fuel [] ('"' :: text) = some (found, rest)) :
    readValue fuel (depth + 1) ('\x7b' :: '"' :: text) = some (.object found, rest) := by
  have hopen : skipBlank ('\x7b' :: '"' :: text) = '\x7b' :: '"' :: text := rfl
  have hquote : skipBlank ('"' :: text) = '"' :: text := rfl
  simp only [readValue, hopen, hquote]
  show Option.map _ (readMembers (readValue fuel depth) fuel [] ('"' :: text)) = _
  rw [h]
  rfl

/-- The members of an object may be written in any order. -/
theorem spells_object {depth : Nat} {members : List (String × Value)}
    (hmembers : ∀ member ∈ members, Spells depth member.2.render member.2) :
    Spells (depth + 1) (Value.object members).render (.ofMembers members) := by
  rw [Value.render]
  refine ⟨⟨'\x7b', _, rfl, rfl, by decide⟩, ?_⟩
  intro fuel rest hfuel _
  rw [List.length_cons, List.length_append, List.length_singleton] at hfuel
  rw [List.cons_append, List.append_assoc, List.singleton_append]
  cases members with
  | nil => exact ⟨.object [], rfl, rfl⟩
  | cons first others =>
    obtain ⟨found, hread, hmean⟩ := @readMembers_render fuel depth fuel (first :: others)
      (List.cons_ne_nil _ _) hmembers (by omega) (by omega) [] rest
    refine ⟨.object found, ?_, ofWrittenMembers?_of_mean hmean []⟩
    obtain ⟨behind, htext⟩ : ∃ behind, Value.renderMembers (first :: others) = '"' :: behind := by
      cases others with
      | nil => exact ⟨_, rfl⟩
      | cons next others => exact ⟨_, by rw [renderMembers_cons_cons]; rfl⟩
    rw [htext, List.cons_append] at hread ⊢
    exact readValue_object hread

/-- Members whose keys are in order stay as they are. -/
theorem ofMembers_of_sorted {members : List (String × Value)}
    (hsorted : (members.map Prod.fst).Pairwise (· < ·)) :
    Value.ofMembers members = .object members := by
  rw [Value.ofMembers]
  congr 1
  induction members with
  | nil => rfl
  | cons member others ih =>
    rw [List.map_cons, List.pairwise_cons] at hsorted
    rw [List.foldr_cons, ih hsorted.2]
    cases others with
    | nil => rfl
    | cons next others => exact if_pos (hsorted.1 next.1 List.mem_cons_self)

/-! ## Documents -/

/-- Every plain document is read back from its text. -/
theorem spells_render {depth : Nat} {value : Value} (h : Plain depth value) :
    Spells depth value.render value := by
  induction h with
  | null depth =>
    exact spells_scalar depth rfl (by decide) fun rest _ => ⟨.null, rfl, rfl⟩
  | boolean depth value =>
    cases value with
    | true => exact spells_scalar depth rfl (by decide) fun rest _ => ⟨.boolean true, rfl, rfl⟩
    | false => exact spells_scalar depth rfl (by decide) fun rest _ => ⟨.boolean false, rfl, rfl⟩
  | integer depth hmin hbound => exact spells_integer depth hmin hbound
  | string depth value => exact spells_string depth value
  | array _ ih => exact spells_array ih
  | object hsorted _ ih =>
    have hobject := spells_object ih
    rwa [ofMembers_of_sorted hsorted] at hobject

/-- A text that spells a value at the greatest depth is read as a document. -/
theorem parse?_of_spells {text : List Char} {value : Value}
    (h : Spells Value.maxDepth text value) : Value.parse? text = some value := by
  obtain ⟨written, hread, hvalue⟩ := h.reads (text.length + 1) [] (Nat.le_succ _) closes_nil
  rw [List.append_nil] at hread
  rw [Value.parse?, Written.parse?, hread]
  exact hvalue

/-- The bytes of a text are decoded as that text. -/
theorem ofBytes?_toUTF8 (text : String) :
    Value.ofBytes? text.toUTF8.data.toList = Value.parse? text.toList := by
  have hdecode : String.fromUTF8? text.toUTF8 = some text := dif_pos text.isValidUTF8
  rw [Value.ofBytes?, Array.toArray_toList]
  exact congrArg (Option.bind · _) hdecode

/-- A document is found again in its bytes. -/
theorem ofBytes?_bytes {value read : Value} (h : Spells Value.maxDepth value.render read) :
    Value.ofBytes? value.bytes = some read := by
  rw [Value.bytes, ofBytes?_toUTF8, Value.text, String.toList_ofList]
  exact parse?_of_spells h

end TestRig.Json
