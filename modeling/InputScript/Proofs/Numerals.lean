import Mathlib.Algebra.Group.Int.Defs
import Mathlib.Algebra.Group.Nat.Defs
import Mathlib.Data.List.TakeWhile
import InputScript.Argument
import InputScript.Device.Code

/-!
# Spelled numbers

A number is spelled by its digits, after a lead that names the base unless it is ten.  `Spells` says
which texts these are, from the library's digits of a number; letters may have either case.

Reading goes by the values of characters.  `Values` relates characters to the digits they stand for,
without regard to case, and everything about spelled numbers is derived from it: a run of digits is
read (`digitRun?_of_values`), the base is recognized from its letter (`Radix.takeBase_letter`), and the
digits of a number have it as their value (`positional_digitsOf`).

## Main results

* `Spells.decoded` — a spelled number is read exactly, unless it has too many decimal digits, when
  it is out of every range.
* `spelled_numbers_decode` — keys and integers given by a spelled number.
-/

namespace InputScript

variable {c : Char} {text : String}

/-! ## Digits and their values -/

namespace Text

theorem digitsOf_of_lt {base n : Nat} (h : n < base) : digitsOf base n = [n] := by
  rw [digitsOf, dif_neg (by omega)]

theorem digitsOf_ne_nil (base n : Nat) : digitsOf base n ≠ [] := by
  rw [digitsOf]
  split
  · exact List.append_ne_nil_of_right_ne_nil _ (List.cons_ne_nil _ _)
  · exact List.cons_ne_nil _ _

section Base

variable {base : Nat} (hbase : 2 ≤ base) (n : Nat)

include hbase

theorem lt_of_mem_digitsOf : ∀ d ∈ digitsOf base n, d < base := by
  fun_induction digitsOf base n with
  | case1 n h ih =>
      intro d hd
      rcases List.mem_append.mp hd with hd | hd
      · exact ih d hd
      · rw [List.mem_singleton.mp hd]
        exact Nat.mod_lt _ (by omega)
  | case2 n h =>
      intro d hd
      rw [List.mem_singleton.mp hd]
      omega

/-- Only zero is written with a leading zero. -/
theorem eq_zero_of_head?_digitsOf (hhead : (digitsOf base n).head? = some 0) : n = 0 := by
  fun_induction digitsOf base n with
  | case1 n h ih =>
      obtain ⟨d, ds, hds⟩ := List.exists_cons_of_ne_nil (digitsOf_ne_nil base (n / base))
      rw [hds] at hhead ih
      have hzero : n / base = 0 := ih hhead
      have hpos : 0 < n / base := Nat.div_pos h.2 (by omega)
      omega
  | case2 n h => exact Option.some.inj hhead

theorem toDigits_eq_map_digitsOf : Nat.toDigits base n = (digitsOf base n).map Nat.digitChar := by
  fun_induction digitsOf base n with
  | case1 n h ih =>
      rw [Nat.toDigits_of_base_le hbase h.2, ih, List.map_append, List.map_singleton]
  | case2 n h => rw [Nat.toDigits_of_lt_base (by omega), List.map_singleton]

end Base

end Text

namespace Number

open Text (digitsOf)

theorem positional_append_singleton (base : Nat) (ds : List Nat) (d : Nat) :
    positional base (ds ++ [d]) = positional base ds * base + d := by
  rw [positional, List.foldl_append]
  rfl

theorem positional_replicate_zero_append (base k : Nat) (ds : List Nat) :
    positional base (List.replicate k 0 ++ ds) = positional base ds := by
  induction k with
  | zero => rfl
  | succ k ih =>
      rw [← ih, List.replicate_succ, List.cons_append, positional, List.foldl_cons, Nat.zero_mul]
      rfl

theorem positional_digitsOf (base n : Nat) : positional base (digitsOf base n) = n := by
  fun_induction digitsOf base n with
  | case1 n h ih => rw [positional_append_singleton, ih, Nat.div_add_mod']
  | case2 n h => rw [positional, List.foldl_cons, Nat.zero_mul, Nat.zero_add, List.foldl_nil]

end Number

/-! ## Digits and letters -/

namespace Text

theorem toNat_toLower (c : Char) :
    c.toLower.toNat = if 0x41 ≤ c.toNat ∧ c.toNat ≤ 0x5A then c.toNat + 32 else c.toNat := by
  delta Char.toLower
  split
  case isTrue h =>
    have hlow : 0x41 ≤ c.toNat := UInt32.le_iff_toNat_le.mp h.1
    have hhigh : c.toNat ≤ 0x5A := UInt32.le_iff_toNat_le.mp h.2
    rw [if_pos ⟨hlow, hhigh⟩]
    show (c.val + 32).toNat = c.val.toNat + 32
    rw [UInt32.toNat_add]
    exact Nat.mod_eq_of_lt (show c.toNat + 32 < 2 ^ 32 by omega)
  case isFalse h =>
    rw [if_neg fun hc => h ⟨UInt32.le_iff_toNat_le.mpr hc.1, UInt32.le_iff_toNat_le.mpr hc.2⟩]

theorem eq_zero_of_toLower (h : c.toLower = '0') : c = '0' := by
  have hnat := toNat_toLower c
  rw [h, show '0'.toNat = 0x30 from rfl] at hnat
  apply Char.toNat_inj.mp
  show c.toNat = 0x30
  split at hnat <;> omega

theorem positionalValue?_toLower (c : Char) : positionalValue? c.toLower = positionalValue? c := by
  unfold positionalValue?
  simp only [toNat_toLower, Bool.and_eq_true, decide_eq_true_eq]
  grind

/-- Letters and ASCII digits, by their code points. -/
theorem toNat_of_positionalValue? {v : Nat} (h : positionalValue? c = some v) :
    (0x30 ≤ c.toNat ∧ c.toNat ≤ 0x39 ∧ v = c.toNat - 0x30) ∨
      (0x41 ≤ c.toNat ∧ c.toNat ≤ 0x7A ∧ 10 ≤ v) := by
  unfold positionalValue? at h
  simp only [Bool.and_eq_true, decide_eq_true_eq] at h
  grind

/-- Of the letters and ASCII digits, the digits are digits. -/
theorem isDigit_of_positionalValue? {v : Nat} (h : positionalValue? c = some v) :
    isDigit c = decide (v < 10) := by
  have hzeros : ∀ first ∈ decimalZeros, first = 0x30 ∨ 0x80 ≤ first := by decide
  have hornaments : ∀ run ∈ ornamentalDigits, 0x80 ≤ run.1 := by decide
  rcases toNat_of_positionalValue? h with ⟨hlow, hhigh, rfl⟩ | ⟨hlow, hhigh, hv⟩
  · have hdecimal : decimalValue? c = some (c.toNat - 0x30) := by
      rw [decimalValue?, decimalZeros, List.find?_cons_of_pos (by simp; omega), Option.map_some]
    rw [isDigit, hdecimal, decide_eq_true (by omega)]
    rfl
  · have hdecimal : decimalValue? c = none := by
      rw [decimalValue?, Option.map_eq_none_iff, List.find?_eq_none]
      intro first hfirst
      have := hzeros first hfirst
      simp only [Bool.and_eq_true, decide_eq_true_eq]
      omega
    rw [isDigit, hdecimal, Option.isSome_none, Bool.false_or, decide_eq_false (by omega),
      List.any_eq_false]
    rintro ⟨first, last⟩ hrun
    have := hornaments _ hrun
    simp only [Bool.and_eq_true, decide_eq_true_eq]
    omega

end Text

namespace Number

open Text (digitsOf)

/-- A character that reading leaves where it is: ASCII, and no blank. -/
def Solid (c : Char) : Prop := c.toNat < 0x80 ∧ Text.isBlank c = false

theorem solid_of_positionalValue? {v : Nat} (h : Text.positionalValue? c = some v) :
    Solid c := by
  have hrange := Text.toNat_of_positionalValue? h
  have hisolated : ∀ n ∈ Text.isolatedBlanks, n = 0x20 ∨ 0x80 ≤ n := by decide
  refine ⟨by omega, ?_⟩
  have hcontains : Text.isolatedBlanks.contains c.toNat = false := by
    rw [List.contains_eq_mem, decide_eq_false_iff_not]
    intro hmem
    have := hisolated _ hmem
    omega
  simp only [Text.isBlank, hcontains, Bool.or_false, Bool.or_eq_false_iff, Bool.and_eq_false_iff,
    decide_eq_false_iff_not]
  omega

theorem plainChar_of_solid (h : Solid c) : plainChar c = c := if_pos h.1

theorem isPlainSpace_of_solid (h : Solid c) : isPlainSpace c = false := by
  have hblank : isPlainSpace c = true → Text.isBlank c = true := by
    simp only [isPlainSpace, Bool.or_eq_true, beq_iff_eq, Bool.and_eq_true, decide_eq_true_eq]
    rintro (rfl | hrange)
    · decide
    · simp [Text.isBlank, hrange]
  exact Bool.eq_false_iff.mpr fun hspace => Bool.false_ne_true (h.2.symm.trans (hblank hspace))

/-- The values of characters as digits of a base. -/
def Values (base : Nat) (cs : List Char) (ds : List Nat) : Prop :=
  cs.map (digitIn? base) = ds.map some

theorem digitIn?_toLower (base : Nat) (c : Char) : digitIn? base c.toLower = digitIn? base c := by
  rw [digitIn?, digitIn?, Text.positionalValue?_toLower]

theorem digitIn?_digitChar {base d : Nat} (hbase : base ≤ 16) (h : d < base) :
    digitIn? base (Nat.digitChar d) = some d := by
  have hvalue : ∀ d < 16, Text.positionalValue? (Nat.digitChar d) = some d := by decide
  rw [digitIn?, hvalue d (by omega), Option.filter_some, if_pos (decide_eq_true h)]

theorem positionalValue?_of_digitIn? {base d : Nat} (h : digitIn? base c = some d) :
    Text.positionalValue? c = some d ∧ d < base := by
  simpa [digitIn?, Option.filter_eq_some_iff] using h

/-- The digits of a number have their values. -/
theorem values_toDigits {base : Nat} (hbase : 2 ≤ base) (hbase' : base ≤ 16) (n : Nat) :
    Values base (Nat.toDigits base n) (digitsOf base n) := by
  rw [Values, Text.toDigits_eq_map_digitsOf hbase, List.map_map]
  exact List.map_congr_left fun d hd =>
    digitIn?_digitChar hbase' (Text.lt_of_mem_digitsOf hbase n d hd)

namespace Values

variable {base : Nat} {cs : List Char} {ds : List Nat}

theorem of_toLower (h : Values base (cs.map Char.toLower) ds) : Values base cs ds := by
  rw [Values, List.map_map] at h
  exact (List.map_congr_left fun c _ => (digitIn?_toLower base c).symm).trans h

theorem cons {d : Nat} (hc : digitIn? base c = some d) (h : Values base cs ds) :
    Values base (c :: cs) (d :: ds) := by
  rw [Values, List.map_cons, List.map_cons, hc, h]

theorem exists_cons (h : Values base cs ds) (hne : ds ≠ []) :
    ∃ c cs' d ds', cs = c :: cs' ∧ ds = d :: ds' ∧ digitIn? base c = some d ∧ Values base cs' ds' := by
  obtain ⟨d, ds', rfl⟩ := List.exists_cons_of_ne_nil hne
  obtain ⟨c, cs', rfl, hc, hcs'⟩ := List.map_eq_cons_iff.mp h
  exact ⟨c, cs', d, ds', rfl, rfl, hc, hcs'⟩

theorem exists_of_mem (h : Values base cs ds) (hc : c ∈ cs) :
    ∃ d, Text.positionalValue? c = some d ∧ d < base := by
  have hmem : digitIn? base c ∈ ds.map some := h ▸ List.mem_map_of_mem hc
  obtain ⟨d, -, hd⟩ := List.mem_map.mp hmem
  exact ⟨d, positionalValue?_of_digitIn? hd.symm⟩

theorem solid (h : Values base cs ds) : ∀ c ∈ cs, Solid c := by
  intro c hc
  obtain ⟨d, hd, -⟩ := h.exists_of_mem hc
  exact solid_of_positionalValue? hd

theorem not_mem (h : Values base cs ds) (hc : Text.positionalValue? c = none) :
    c ∉ cs := by
  intro hmem
  obtain ⟨d, hd, -⟩ := h.exists_of_mem hmem
  rw [hc] at hd
  cases hd

end Values

variable {cs : List Char}

theorem digitRun?_of_values {base : Nat} {ds : List Nat} (hne : ds ≠ []) (h : Values base cs ds) :
    digitRun? base cs = some ds := by
  have hunderscore := h.not_mem (show Text.positionalValue? '_' = none by decide)
  fun_induction digitRun? base cs generalizing ds with
  | case1 => exact absurd (List.map_eq_nil_iff.mp h.symm) hne
  | case2 c =>
      obtain ⟨d, ds', rfl, hd, hds'⟩ := List.map_eq_cons_iff.mp h.symm
      rw [← hd, List.map_eq_nil_iff.mp hds']
      rfl
  | case3 c rest ih => simp at hunderscore
  | case4 c rest hrest _ ih =>
      obtain ⟨d, ds', rfl, hd, hds'⟩ := List.map_eq_cons_iff.mp h.symm
      have hne' : ds' ≠ [] := by
        rintro rfl
        exact hrest (List.map_eq_nil_iff.mp hds'.symm)
      rw [ih hne' hds'.symm (List.not_mem_of_not_mem_cons hunderscore), ← hd]
      rfl

/-! ## Literals -/

theorem dropWhile_eq_self {p : Char → Bool} (h : ∀ c ∈ cs, p c = false) :
    cs.dropWhile p = cs :=
  List.dropWhile_eq_self_iff.mpr fun hne => by simp [h _ (List.getElem_mem hne)]

theorem dropWhile_ends_eq_self {p : Char → Bool} (h : ∀ c ∈ cs, p c = false) :
    ((cs.dropWhile p).reverse.dropWhile p).reverse = cs := by
  rw [dropWhile_eq_self h, dropWhile_eq_self fun c hc => h c (List.mem_reverse.mp hc),
    List.reverse_reverse]

section Solid

variable (h : ∀ c ∈ text.toList, Solid c)

include h

theorem trim_of_solid : Text.trim text = text := by
  rw [Text.trim, Text.trimChars, Text.trimEndChars, dropWhile_ends_eq_self fun c hc => (h c hc).2,
    String.ofList_toList]

theorem literalChars_of_solid : literalChars text = text.toList := by
  have hplain : text.toList.map plainChar = text.toList :=
    (List.map_congr_left fun c hc => plainChar_of_solid (h c hc)).trans (List.map_id' _)
  rw [literalChars, hplain]
  exact dropWhile_ends_eq_self fun c hc => isPlainSpace_of_solid (h c hc)

end Solid

/-- Digits and letters start with no sign. -/
theorem readInt?_of_unsigned (h : ∀ c ∈ text.toList, ∃ v, Text.positionalValue? c = some v) :
    readInt? text = (magnitude? text.toList).map (signed false) := by
  have hsolid : ∀ c ∈ text.toList, Solid c := by
    intro c hc
    obtain ⟨v, hv⟩ := h c hc
    exact solid_of_positionalValue? hv
  have hsign : ∀ c, Text.positionalValue? c = none → c ∉ text.toList := by
    intro c hc hmem
    obtain ⟨v, hv⟩ := h c hmem
    rw [hc] at hv
    cases hv
  have hunsigned : takeSign text.toList = (false, text.toList) := by
    unfold takeSign
    split
    case h_1 rest heq => exact absurd (heq ▸ List.mem_cons_self) (hsign '-' (by decide))
    case h_2 rest heq => exact absurd (heq ▸ List.mem_cons_self) (hsign '+' (by decide))
    case h_3 => rfl
  rw [readInt?, literalChars_of_solid hsolid, hunsigned]

/-! ## Notations -/

/-- The bases of integers. -/
inductive Radix
  | binary
  | octal
  | decimal
  | hexadecimal
deriving DecidableEq, Repr

namespace Radix

def base : Radix → Nat
  | .binary => 2
  | .octal => 8
  | .decimal => 10
  | .hexadecimal => 16

/-- The letter that names a base other than ten. -/
def letter? : Radix → Option Char
  | .binary => some 'b'
  | .octal => some 'o'
  | .decimal => none
  | .hexadecimal => some 'x'

/-- What stands before the digits, in lower case. -/
def lead (r : Radix) : List Char :=
  match r.letter? with
  | some c => ['0', c]
  | none => []

theorem base_bounds (r : Radix) : 2 ≤ r.base ∧ r.base ≤ 16 := by cases r <;> decide

theorem eq_decimal_of_letter? {r : Radix} (h : r.letter? = none) : r = .decimal := by
  cases r <;> first | rfl | cases h

theorem positionalValue?_letter {r : Radix} (h : r.letter? = some c) :
    ∃ v, Text.positionalValue? c = some v ∧ 10 ≤ v := by
  cases r <;> cases h <;> exact ⟨_, rfl, by decide⟩

/-- The base is recognized from its letter. -/
theorem takeBase_letter {r : Radix} {rest : List Char} (h : r.letter? = some c.toLower)
    (hrest : '_' ∉ rest) : takeBase ('0' :: c :: rest) = some (r.base, rest) := by
  cases r with
  | decimal => cases h
  | binary | octal | hexadecimal =>
      rw [takeBase, ← Option.some.inj h]
      change Option.map _ (some _) = _
      rw [Option.map_some]
      split
      · exact absurd List.mem_cons_self hrest
      · rfl

end Radix

/-- A text spells a number in a base: the lead and the digits, without leading zeros and with letters of
either case. -/
def Spells (r : Radix) (n : Nat) (text : String) : Prop :=
  text.toList.map Char.toLower = r.lead ++ Nat.toDigits r.base n

instance (r : Radix) (n : Nat) (text : String) : Decidable (Spells r n text) :=
  inferInstanceAs (Decidable (_ = _))

namespace Spells

variable {r : Radix} {n : Nat} (h : Spells r n text)

include h

/-- A spelled number is a run of decimal digits, or a zero, a letter and a run of digits. -/
theorem parts :
    (r = .decimal ∧ Values 10 text.toList (digitsOf 10 n)) ∨
      ∃ c body, text.toList = '0' :: c :: body ∧ r.letter? = some c.toLower ∧
        Values r.base body (digitsOf r.base n) := by
  obtain ⟨start, body, htext, hstart, hbody⟩ := List.map_eq_append_iff.mp h
  have hvalues : Values r.base body (digitsOf r.base n) :=
    .of_toLower (hbody ▸ values_toDigits r.base_bounds.1 r.base_bounds.2 n)
  unfold Radix.lead at hstart
  split at hstart
  case h_1 c hletter =>
    obtain ⟨z, start', rfl, hz, hstart'⟩ := List.map_eq_cons_iff.mp hstart
    obtain ⟨c', start'', rfl, hc, hend⟩ := List.map_eq_cons_iff.mp hstart'
    obtain rfl := List.map_eq_nil_iff.mp hend
    obtain rfl : z = '0' := Text.eq_zero_of_toLower hz
    exact .inr ⟨c', body, htext, hc ▸ hletter, hvalues⟩
  case h_2 hletter =>
    obtain rfl := Radix.eq_decimal_of_letter? hletter
    obtain rfl := List.map_eq_nil_iff.mp hstart
    exact .inl ⟨rfl, htext ▸ hvalues⟩

/-- Every character of a spelled number is a digit or a letter. -/
theorem positionalValue? (hc : c ∈ text.toList) :
    ∃ v, Text.positionalValue? c = some v := by
  rcases h.parts with ⟨-, hvalues⟩ | ⟨letter, body, htext, hletter, hvalues⟩
  · obtain ⟨d, hd, -⟩ := hvalues.exists_of_mem hc
    exact ⟨d, hd⟩
  · rw [htext] at hc
    rcases List.mem_cons.mp hc with rfl | hc
    · exact ⟨0, by decide⟩
    rcases List.mem_cons.mp hc with rfl | hc
    · obtain ⟨v, hv, -⟩ := Radix.positionalValue?_letter hletter
      exact ⟨v, Text.positionalValue?_toLower c ▸ hv⟩
    · obtain ⟨d, hd, -⟩ := hvalues.exists_of_mem hc
      exact ⟨d, hd⟩

theorem solid : ∀ c ∈ text.toList, Solid c := by
  intro c hc
  obtain ⟨v, hv⟩ := h.positionalValue? hc
  exact solid_of_positionalValue? hv

end Spells

/-- A run of decimal digits names no other base. -/
theorem takeBase_of_values {ds : List Nat} (h : Values 10 cs ds) :
    takeBase cs = none := by
  unfold takeBase
  split
  case h_1 c rest =>
    obtain ⟨d, hd, hlt⟩ := h.exists_of_mem (c := c) (by simp)
    rw [← Text.positionalValue?_toLower] at hd
    have hletter : ∀ v, 10 ≤ v → Text.positionalValue? c.toLower ≠ some v := by
      intro v hv heq
      have := Option.some.inj (heq.symm.trans hd)
      omega
    dsimp only
    split
    case h_1 hc => exact absurd (by rw [hc]; rfl) (hletter 33 (by decide))
    case h_2 hc => exact absurd (by rw [hc]; rfl) (hletter 24 (by decide))
    case h_3 hc => exact absurd (by rw [hc]; rfl) (hletter 11 (by decide))
    case h_4 => rfl
  case h_2 => rfl

/-- Digits after the letter of a base are read in that base. -/
theorem magnitude?_of_letter {r : Radix} {body : List Char} {ds : List Nat}
    (hletter : r.letter? = some c.toLower) (hvalues : Values r.base body ds) (hne : ds ≠ []) :
    magnitude? ('0' :: c :: body) = some (positional r.base ds) := by
  have hrest := hvalues.not_mem (show Text.positionalValue? '_' = none by decide)
  unfold magnitude?
  rw [Radix.takeBase_letter hletter hrest]
  dsimp only
  rw [digitRun?_of_values hne hvalues, Option.map_some]

/-- The digits of a number are read in base ten up to the limit on their count. -/
theorem magnitude?_of_decimal {n : Nat} (hvalues : Values 10 cs (digitsOf 10 n)) :
    magnitude? cs = if decimalDigitLimit < (digitsOf 10 n).length then none else some n := by
  have hlead : ((digitsOf 10 n).head? = some 0 && n != 0) = false := by
    rw [Bool.and_eq_false_imp, decide_eq_true_eq]
    intro hhead
    rw [Text.eq_zero_of_head?_digitsOf (show 2 ≤ 10 by decide) n hhead]
    rfl
  unfold magnitude?
  rw [takeBase_of_values hvalues]
  simp only [digitRun?_of_values (Text.digitsOf_ne_nil 10 n) hvalues, positional_digitsOf,
    Option.bind_eq_bind, Option.bind_some, hlead, Bool.false_eq_true, if_false]

theorem lt_of_decimalDigitLimit_lt {n : Nat} (h : decimalDigitLimit < (digitsOf 10 n).length) :
    2 ^ 31 < n := by
  have hlength : (Nat.toDigits 10 n).length = (digitsOf 10 n).length := by
    rw [Text.toDigits_eq_map_digitsOf (by decide), List.length_map]
  have hten : ¬ n < 10 ^ 10 := by
    rw [← Nat.length_toDigits_le_iff (by decide) (by decide), hlength]
    unfold decimalDigitLimit at h
    omega
  omega

/-- The answer of a reader for a number: the number, or none if its magnitude is beyond 32 bits. -/
def Decoded (read : Option Int) (v : Int) : Prop :=
  read = some v ∨ read = none ∧ 2 ^ 31 < v.natAbs

theorem natAbs_signed (negative : Bool) (n : Nat) : (signed negative n).natAbs = n := by
  cases negative <;> simp [signed]

namespace Spells

variable {r : Radix} {n : Nat} (h : Spells r n text)

include h

/-- A spelled number is read exactly, unless it has too many decimal digits. -/
theorem decoded (negative : Bool) :
    Decoded ((magnitude? text.toList).map (signed negative)) (signed negative n) := by
  rcases h.parts with ⟨rfl, hvalues⟩ | ⟨c, body, htext, hletter, hvalues⟩
  · rw [magnitude?_of_decimal hvalues]
    split
    case isTrue hlimit =>
      refine .inr ⟨rfl, ?_⟩
      rw [natAbs_signed]
      exact lt_of_decimalDigitLimit_lt hlimit
    case isFalse => exact .inl rfl
  · rw [htext, magnitude?_of_letter hletter hvalues (Text.digitsOf_ne_nil r.base n),
      positional_digitsOf]
    exact .inl rfl

theorem decoded_readInt? : Decoded (readInt? text) n := by
  rw [readInt?_of_unsigned fun _ => h.positionalValue?]
  exact h.decoded false

theorem solid_neg : ∀ c ∈ ("-" ++ text).toList, Solid c := by
  intro c hc
  rw [String.toList_append] at hc
  rcases List.mem_cons.mp hc with rfl | hc
  · exact ⟨by decide, by decide⟩
  · exact h.solid c hc

theorem decoded_readInt?_neg : Decoded (readInt? ("-" ++ text)) (-n) := by
  have := h.decoded true
  rw [readInt?, literalChars_of_solid h.solid_neg, String.toList_append]
  exact this

end Spells

end Number

/-! ## Keys and integers -/

namespace Device

open Number (Decoded Spells Radix Values)

/-- A key given by a number. -/
theorem findKey_of_decoded {n : Nat} (hstart : startsWithDigit text = true)
    (h : Decoded (readCode? text) n) (verb : Option String) :
    findKey text verb = if n ≤ keyMax then .ok n else .error (.key verb text) := by
  have hmax : (keyMax : Int) = 767 := rfl
  rw [findKey, findKey?, if_pos hstart]
  rcases h with h | ⟨h, hlarge⟩
  · rw [h]
    dsimp only
    by_cases hn : n ≤ keyMax
    · rw [if_pos ⟨by omega, by omega⟩, if_pos hn]
      rfl
    · rw [if_neg (by omega), if_neg hn]
  · have hn : ¬ n ≤ keyMax := by
      unfold keyMax
      omega
    rw [h, if_neg hn]

/-- The first character of a spelled number is a digit. -/
theorem startsWithDigit_of_spells {r : Radix} {n : Nat} (h : Spells r n text) :
    startsWithDigit text = true := by
  unfold startsWithDigit
  rcases h.parts with ⟨-, hvalues⟩ | ⟨c, body, htext, -, -⟩
  · obtain ⟨c, cs, d, ds, htext, -, hc, -⟩ :=
      hvalues.exists_cons (Text.digitsOf_ne_nil _ n)
    obtain ⟨hvalue, hd⟩ := Number.positionalValue?_of_digitIn? hc
    rw [htext]
    exact (Text.isDigit_of_positionalValue? hvalue).trans (decide_eq_true hd)
  · rw [htext]
    exact Text.isDigit_of_positionalValue? (show Text.positionalValue? '0' = some 0 from rfl)

/-- No spelled number has a zero before a digit. -/
theorem readCode?_of_spells {r : Radix} {n : Nat} (h : Spells r n text) :
    readCode? text = Number.readInt? text := by
  unfold readCode?
  split
  case h_1 d rest heq =>
    apply if_neg
    rcases h.parts with ⟨-, hvalues⟩ | ⟨c, body, htext, hletter, -⟩
    · -- The digits would start with a zero, so the number is zero and has one digit only.
      rw [heq] at hvalues
      obtain ⟨_, _, z, ds, hcons, hds, hz, htail⟩ :=
        hvalues.exists_cons (Text.digitsOf_ne_nil _ n)
      cases hcons
      have hzero : z = 0 := (Option.some.inj hz).symm
      have hn : n = 0 :=
        Text.eq_zero_of_head?_digitsOf (show 2 ≤ 10 by decide) n (by rw [hds, hzero]; rfl)
      rw [hn, Text.digitsOf_of_lt (by decide)] at hds
      cases hds
      cases htail
    · obtain ⟨v, hv, hlarge⟩ := Radix.positionalValue?_letter hletter
      rw [Text.positionalValue?_toLower] at hv
      cases heq.symm.trans htext
      rw [Text.isDigit_of_positionalValue? hv, decide_eq_true_eq]
      omega
  case h_2 => rfl

/-- A zero before the octal digits of a number. -/
def leadingZero (n : Nat) : String := String.ofList ('0' :: Nat.toDigits 8 n)

theorem values_leadingZero (n : Nat) :
    Values 8 (leadingZero n).toList (0 :: Text.digitsOf 8 n) := by
  rw [leadingZero, String.toList_ofList]
  exact (Number.values_toDigits (by decide) (by decide) n).cons (by decide)

theorem startsWithDigit_leadingZero (n : Nat) : startsWithDigit (leadingZero n) = true := by
  rw [startsWithDigit, leadingZero, String.toList_ofList]
  exact Text.isDigit_of_positionalValue? (show Text.positionalValue? '0' = some 0 from rfl)

theorem readOctal?_leadingZero (n : Nat) : Number.readOctal? (leadingZero n) = some (n : Int) := by
  have hvalues := values_leadingZero n
  have hvalue : Number.positional 8 (0 :: Text.digitsOf 8 n) = n :=
    (Number.positional_replicate_zero_append 8 1 _).trans (Number.positional_digitsOf 8 n)
  have hsign : Number.takeSign (leadingZero n).toList = (false, (leadingZero n).toList) := by
    rw [leadingZero, String.toList_ofList]
    rfl
  rw [Number.readOctal?, Number.literalChars_of_solid hvalues.solid, hsign]
  dsimp only
  rw [Number.digitRun?_of_values (List.cons_ne_nil _ _) hvalues, Option.map_some, hvalue]
  rfl

/-- The digit behind the zero makes the code octal. -/
theorem readCode?_leadingZero (n : Nat) : readCode? (leadingZero n) = some (n : Int) := by
  obtain ⟨c, cs, d, ds, hdigits, -, hc, -⟩ := (Number.values_toDigits (show 2 ≤ 8 by decide)
    (by decide) n).exists_cons (Text.digitsOf_ne_nil _ n)
  obtain ⟨hvalue, hd⟩ := Number.positionalValue?_of_digitIn? hc
  have hdigit : Text.isDigit c = true :=
    (Text.isDigit_of_positionalValue? hvalue).trans (decide_eq_true (by omega))
  have htext : (leadingZero n).toList = '0' :: c :: cs := by
    rw [leadingZero, String.toList_ofList, hdigits]
  rw [readCode?, htext]
  exact (if_pos hdigit).trans (readOctal?_leadingZero n)

end Device

namespace Argument

open Number (Decoded Spells Radix)

/-- An integer given by a number. -/
theorem integer_of_decoded {v : Int} (hsolid : ∀ c ∈ text.toList, Number.Solid c)
    (h : Decoded (Number.readInt? text) v) (verb : Option String) :
    integer text verb =
      if -2 ^ 31 ≤ v ∧ v ≤ 2 ^ 31 - 1 then .ok v else .error ⟨verb, .unparsable, text⟩ := by
  rw [integer, Number.trim_of_solid hsolid]
  rcases h with h | ⟨h, hlarge⟩
  · rw [h]
    rfl
  · rw [h, if_neg (by omega)]

end Argument

open Number (Spells Radix)

/-- **Spelled numbers are decoded exactly.**  A number spelled in any base is the code of a key up to
the greatest code, and so are its octal digits after a zero.  As an integer it is taken if it has 32
bits, with or without a minus.  Beyond that the text is refused, whatever its length. -/
theorem spelled_numbers_decode (r : Radix) (n : Nat) (text : String) (verb : Option String)
    (h : Spells r n text) :
    Device.findKey text verb =
        (if n ≤ Device.keyMax then .ok n else .error (.key verb text)) ∧
      Device.findKey (Device.leadingZero n) verb =
        (if n ≤ Device.keyMax then .ok n else .error (.key verb (Device.leadingZero n))) ∧
      Argument.integer text verb =
        (if -2 ^ 31 ≤ (n : Int) ∧ (n : Int) ≤ 2 ^ 31 - 1 then .ok (n : Int)
          else .error ⟨verb, .unparsable, text⟩) ∧
      Argument.integer ("-" ++ text) verb =
        (if -2 ^ 31 ≤ -(n : Int) ∧ -(n : Int) ≤ 2 ^ 31 - 1 then .ok (-(n : Int))
          else .error ⟨verb, .unparsable, "-" ++ text⟩) := by
  refine ⟨?_, ?_, ?_, ?_⟩
  · exact Device.findKey_of_decoded (Device.startsWithDigit_of_spells h)
      (Device.readCode?_of_spells h ▸ h.decoded_readInt?) verb
  · exact Device.findKey_of_decoded (Device.startsWithDigit_leadingZero n)
      (.inl (Device.readCode?_leadingZero n)) verb
  · exact Argument.integer_of_decoded h.solid h.decoded_readInt? verb
  · exact Argument.integer_of_decoded h.solid_neg h.decoded_readInt?_neg verb

/-- At the last magnitude of a negative integer, in letters of both cases: the minus decides. -/
theorem spelled_numbers_decode_leastInteger :
    Spells .hexadecimal (2 ^ 31) "0X80000000" ∧
      Argument.integer "0X80000000" = .error ⟨none, .unparsable, "0X80000000"⟩ ∧
      Argument.integer "-0X80000000" = .ok (-2 ^ 31) ∧
      Spells .hexadecimal Device.keyMax "0x2fF" ∧ Device.findKey "0x2fF" = .ok 767 ∧
      Device.findKey "01377" = .ok 767 := by
  have hleast : Spells .hexadecimal (2 ^ 31) "0X80000000" := by decide
  have hkey : Spells .hexadecimal Device.keyMax "0x2fF" := by decide
  obtain ⟨-, -, hpositive, hnegative⟩ := spelled_numbers_decode _ _ _ none hleast
  obtain ⟨hhex, hoctal, -, -⟩ := spelled_numbers_decode _ _ _ none hkey
  exact ⟨hleast, hpositive, hnegative, hkey, hhex, hoctal⟩

end InputScript
