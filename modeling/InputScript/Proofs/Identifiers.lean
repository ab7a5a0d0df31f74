import InputScript.Proofs.CheckedSettings
import InputScript.Proofs.Numerals
import InputScript.Proofs.Utf8
import InputScript.Settings.Loader

/-!
# Device identifiers

A device is identified by vendor, product and version.  A text names the first of these numbers, or the
first two, or all three, with colons between them; `Identifies` says which texts do, and with which
numbers.  Such a text replaces the numbers it names (`Profile.identifiedBy`), and no other text is
accepted (`Profile.withIdentifier_eq_ok_iff`).

The identifier that is written for a device names all three, so it can be given to any other device.

## Main results

* `Profile.withIdentifier_eq_ok_iff` — what is accepted, and what it does.
* `Profile.Valid.inRange` — the numbers of a device in use have sixteen bits.
* `Profile.identifier_round_trip` — an identifier that is written is read back.
-/

namespace InputScript

/-! ## Numbers as they are written -/

namespace Number

theorem digitIn?_toUpper_digitChar {d : Nat} (h : d < 16) :
    digitIn? 16 (Text.digitChar d).toUpper = some d := by
  have hall : ∀ d < 16, digitIn? 16 (Text.digitChar d).toUpper = some d := by decide
  exact hall d h

/-- Padding does not change the values of digits. -/
theorem values_hexadecimal (width n : Nat) :
    Values 16 (Text.hexadecimal width n).toList
      (List.replicate (width - (Text.digitsOf 16 n).length) 0 ++ Text.digitsOf 16 n) := by
  have hdigits : ((Text.digitsOf 16 n).map fun d => (Text.digitChar d).toUpper).map (digitIn? 16) =
      (Text.digitsOf 16 n).map some := by
    rw [List.map_map]
    exact List.map_congr_left fun d hd =>
      digitIn?_toUpper_digitChar (Text.lt_of_mem_digitsOf (by decide) n d hd)
  rw [Values, Text.hexadecimal, String.toList_ofList, List.map_append, List.map_append, hdigits,
    List.map_replicate, List.map_replicate, List.length_map]
  rfl

end Number

namespace Profile

theorem toList_identifierPart (n : Nat) :
    (identifierPart n).toList = '0' :: 'x' :: (Text.hexadecimal 4 n).toList := by
  rw [identifierPart, String.toList_append]
  rfl

theorem positionalValue?_identifierPart {n : Nat} {c : Char} (hc : c ∈ (identifierPart n).toList) :
    ∃ v, Text.positionalValue? c = some v := by
  rw [toList_identifierPart, List.mem_cons, List.mem_cons] at hc
  rcases hc with rfl | rfl | hc
  · exact ⟨0, rfl⟩
  · exact ⟨33, rfl⟩
  · obtain ⟨d, hd, -⟩ := (Number.values_hexadecimal 4 n).exists_of_mem hc
    exact ⟨d, hd⟩

theorem readInt?_identifierPart (n : Nat) : Number.readInt? (identifierPart n) = some (n : Int) := by
  have hne := List.append_ne_nil_of_right_ne_nil
    (List.replicate (4 - (Text.digitsOf 16 n).length) 0)
    (Text.digitsOf_ne_nil 16 n)
  have hmagnitude := Number.magnitude?_of_letter
    (show Number.Radix.hexadecimal.letter? = some 'x'.toLower from rfl)
    (Number.values_hexadecimal 4 n) hne
  rw [Number.positional_replicate_zero_append, show Number.Radix.hexadecimal.base = 16 from rfl,
    Number.positional_digitsOf] at hmagnitude
  rw [Number.readInt?_of_unsigned fun _ => positionalValue?_identifierPart, toList_identifierPart,
    hmagnitude]
  rfl

theorem colon_not_mem_identifierPart (n : Nat) : ':' ∉ (identifierPart n).toList := by
  intro hmem
  obtain ⟨v, hv⟩ := positionalValue?_identifierPart hmem
  cases hv

/-! ## Numbers as they are read -/

theorem identifierNumber_eq_ok_iff {part : String} {n : Nat} :
    identifierNumber part = .ok n ↔
      Number.readInt? part = some (n : Int) ∧ n ≤ Validation.maxIdentifier := by
  unfold identifierNumber
  cases Number.readInt? part with
  | none => simp
  | some v =>
      dsimp only
      split
      case isTrue hrange =>
        simp only [Bool.and_eq_true, decide_eq_true_eq] at hrange
        rw [Except.ok.injEq, Option.some.injEq]
        omega
      case isFalse hrange =>
        simp only [Bool.and_eq_true, decide_eq_true_eq] at hrange
        rw [Option.some.injEq]
        constructor
        · intro h
          cases h
        · omega

theorem mapM_identifierNumber_eq_ok_iff {parts : List String} {numbers : List Nat} :
    parts.mapM identifierNumber = .ok numbers ↔
      parts.map Number.readInt? = numbers.map (fun (n : Nat) => some (n : Int)) ∧
        ∀ n ∈ numbers, n ≤ Validation.maxIdentifier := by
  induction parts generalizing numbers with
  | nil =>
      rw [List.mapM_nil]
      cases numbers with
      | nil => simp [pure, Except.pure]
      | cons n numbers => simp [pure, Except.pure]
  | cons part parts ih =>
      rw [List.mapM_cons]
      constructor
      · intro h
        obtain ⟨n, hn, h⟩ := exists_of_bind_eq_ok h
        obtain ⟨numbers', hnumbers, h⟩ := exists_of_bind_eq_ok h
        cases h
        obtain ⟨hread, hbound⟩ := identifierNumber_eq_ok_iff.mp hn
        obtain ⟨hreads, hbounds⟩ := ih.mp hnumbers
        exact ⟨by rw [List.map_cons, List.map_cons, hread, hreads],
          List.forall_mem_cons.mpr ⟨hbound, hbounds⟩⟩
      · rintro ⟨hreads, hbounds⟩
        obtain ⟨n, numbers', rfl, hread, hreads'⟩ := List.map_eq_cons_iff.mp hreads.symm
        obtain ⟨hbound, hbounds'⟩ := List.forall_mem_cons.mp hbounds
        rw [identifierNumber_eq_ok_iff.mpr ⟨hread.symm, hbound⟩, ih.mpr ⟨hreads'.symm, hbounds'⟩]
        rfl

/-- Splitting a text leaves no separator in its parts. -/
theorem not_mem_of_mem_splitOn {x : Char} {cs : List Char} :
    ∀ part ∈ cs.splitOn x, x ∉ part := by
  induction cs with
  | nil => simp
  | cons c cs ih =>
      intro part hpart
      rw [List.splitOn_cons_eq_if_modifyHead] at hpart
      split at hpart
      case isTrue =>
        rcases List.mem_cons.mp hpart with rfl | hpart
        · exact List.not_mem_nil
        · exact ih part hpart
      case isFalse hc =>
        obtain ⟨first, rest, hsplit⟩ := List.exists_cons_of_ne_nil (List.splitOn_ne_nil x cs)
        rw [hsplit] at hpart ih
        rcases List.mem_cons.mp hpart with rfl | hpart
        · exact List.not_mem_cons_of_ne_of_not_mem (fun h => hc (by simp [h]))
            (ih first List.mem_cons_self)
        · exact ih part (List.mem_cons_of_mem first hpart)

/-- The parts of an identifier are those without colons that give it when colons are put between
them. -/
theorem splitOn_colon_eq_iff {id : String} {parts : List String} :
    (id.toList.splitOn ':').map String.ofList = parts ↔
      parts ≠ [] ∧ id = String.intercalate ":" parts ∧ ∀ part ∈ parts, ':' ∉ part.toList := by
  have hchars : ∀ pieces : List (List Char), (pieces.map String.ofList).map String.toList = pieces := by
    intro pieces
    rw [List.map_map]
    exact (List.map_congr_left fun _ _ => String.toList_ofList).trans (List.map_id' _)
  constructor
  · rintro rfl
    refine ⟨?_, ?_, ?_⟩
    · exact fun h => List.splitOn_ne_nil ':' id.toList (List.map_eq_nil_iff.mp h)
    · apply String.toList_inj.mp
      rw [String.toList_intercalate, hchars]
      exact (List.intercalate_splitOn ':').symm
    · intro part hpart
      obtain ⟨piece, hpiece, rfl⟩ := List.mem_map.mp hpart
      rw [String.toList_ofList]
      exact not_mem_of_mem_splitOn piece hpiece
  · rintro ⟨hne, rfl, hparts⟩
    have hpieces : ∀ piece ∈ parts.map String.toList, ':' ∉ piece := by
      intro piece hpiece
      obtain ⟨part, hpart, rfl⟩ := List.mem_map.mp hpiece
      exact hparts part hpart
    rw [String.toList_intercalate]
    show (List.splitOn ':' ([':'].intercalate _)).map String.ofList = parts
    rw [List.splitOn_intercalate ':' hpieces (fun h => hne (List.map_eq_nil_iff.mp h)), List.map_map]
    exact (List.map_congr_left fun _ _ => String.ofList_toList).trans (List.map_id' _)

/-! ## Identifiers -/

/-- A text names the numbers of an identifier: one to three integers of sixteen bits, with colons
between them. -/
def Identifies (id : String) (numbers : List Nat) : Prop :=
  ∃ parts : List String, id = String.intercalate ":" parts ∧ (∀ part ∈ parts, ':' ∉ part.toList) ∧
    parts.map Number.readInt? = numbers.map (fun (n : Nat) => some (n : Int)) ∧
    (1 ≤ numbers.length ∧ numbers.length ≤ 3) ∧ ∀ n ∈ numbers, n ≤ 0xFFFF

/-- The numbers replace vendor, product and version in turn; what is left out stays. -/
def identifiedBy (p : Profile) (numbers : List Nat) : Profile :=
  { p with
    vendor := numbers.getD 0 p.vendor
    product := numbers.getD 1 p.product
    version := numbers.getD 2 p.version }

/-- A text is accepted exactly if it names numbers, and these replace those of the device. -/
theorem withIdentifier_eq_ok_iff {p c : Profile} {id : String} :
    p.withIdentifier id = .ok c ↔ ∃ numbers, Identifies id numbers ∧ c = p.identifiedBy numbers := by
  unfold withIdentifier
  generalize hsplit : (id.toList.splitOn ':').map String.ofList = parts
  constructor
  · intro h
    obtain ⟨hne, hid, hcolons⟩ := splitOn_colon_eq_iff.mp hsplit
    dsimp only at h
    split at h
    case isTrue => cases h
    case isFalse hlength =>
      obtain ⟨numbers, hnumbers, h⟩ := exists_of_bind_eq_ok h
      obtain ⟨hreads, hbounds⟩ := mapM_identifierNumber_eq_ok_iff.mp hnumbers
      have hcount : parts.length = numbers.length := by simpa using congrArg List.length hreads
      have hpositive : 0 < parts.length := List.length_pos_iff.mpr hne
      refine ⟨numbers, ⟨parts, hid, hcolons, hreads, by omega, hbounds⟩, ?_⟩
      split at h
      case h_4 => cases h
      all_goals exact (Except.ok.inj h).symm
  · rintro ⟨numbers, ⟨parts', hid, hcolons, hreads, hlength, hbounds⟩, rfl⟩
    have hcount : parts'.length = numbers.length := by simpa using congrArg List.length hreads
    have hparts : parts = parts' := by
      refine hsplit.symm.trans (splitOn_colon_eq_iff.mpr ⟨?_, hid, hcolons⟩)
      exact List.length_pos_iff.mp (by omega)
    rw [hparts]
    dsimp only
    rw [if_neg (by omega), mapM_identifierNumber_eq_ok_iff.mpr ⟨hreads, hbounds⟩]
    match numbers, hlength with
    | [vendor], _ => rfl
    | [vendor, product], _ => rfl
    | [vendor, product, version], _ => rfl

/-! ## Devices in use -/

/-- The numbers that identify a device have sixteen bits. -/
def InRange (p : Profile) : Prop := p.vendor ≤ 0xFFFF ∧ p.product ≤ 0xFFFF ∧ p.version ≤ 0xFFFF

/-- The devices in use: those that passed the checks, and what identifiers make of these. -/
inductive Valid : Profile → Prop
  | checked {entries : List (Value × Value)} {p : Profile} (h : Validation.profile entries = .ok p) :
      Valid p
  | identified {p c : Profile} {id : String} (hp : Valid p) (h : p.withIdentifier id = .ok c) : Valid c

theorem inRange_of_profile {entries : List (Value × Value)} {p : Profile}
    (h : Validation.profile entries = .ok p) : InRange p :=
  have bounds := Validation.bounds_of_profile h
  ⟨bounds.vendor, bounds.product, bounds.version⟩

theorem getD_le {numbers : List Nat} (h : ∀ n ∈ numbers, n ≤ 0xFFFF) {default : Nat}
    (hdefault : default ≤ 0xFFFF) (i : Nat) : numbers.getD i default ≤ 0xFFFF := by
  rw [List.getD_eq_getElem?_getD]
  cases hi : numbers[i]? with
  | none => exact hdefault
  | some n => exact h n (List.mem_of_getElem? hi)

theorem InRange.identifiedBy {p : Profile} (hp : InRange p) {numbers : List Nat}
    (h : ∀ n ∈ numbers, n ≤ 0xFFFF) : InRange (p.identifiedBy numbers) :=
  ⟨getD_le h hp.1 0, getD_le h hp.2.1 1, getD_le h hp.2.2 2⟩

/-- Checks and identifiers keep the numbers in range, and so they always are. -/
theorem Valid.inRange {p : Profile} (h : Valid p) : InRange p := by
  induction h with
  | checked h => exact inRange_of_profile h
  | identified _ h ih =>
      obtain ⟨numbers, ⟨_, _, _, _, _, hbounds⟩, rfl⟩ := withIdentifier_eq_ok_iff.mp h
      exact ih.identifiedBy hbounds

/-! ## The round trip -/

/-- What is written for a device names its three numbers. -/
theorem InRange.identifies {p : Profile} (h : InRange p) :
    Identifies p.identifier [p.vendor, p.product, p.version] := by
  refine ⟨[identifierPart p.vendor, identifierPart p.product, identifierPart p.version], ?_, ?_, ?_,
    ⟨Nat.le_add_left 1 2, Nat.le_refl 3⟩, ?_⟩
  · rw [identifier, String.intercalate_cons_cons, String.intercalate_cons_cons,
      String.intercalate_singleton]
    simp only [String.append_assoc]
  · simp [colon_not_mem_identifierPart]
  · simp [readInt?_identifierPart]
  · simpa [InRange] using h

/-- The identifier of a device gives its numbers to any other. -/
theorem withIdentifier_identifier {a : Profile} (h : InRange a) (b : Profile) :
    b.withIdentifier a.identifier =
      .ok { b with vendor := a.vendor, product := a.product, version := a.version } :=
  withIdentifier_eq_ok_iff.mpr ⟨_, h.identifies, rfl⟩

/-- **Identifiers are read back.**  The identifier of a device gives its vendor, product and version to
another and changes nothing else there; to the device itself it changes nothing.

A text that names numbers replaces as many of the three as it names, and the identifier of the outcome
has the same effect.  Any other text is a configuration error. -/
theorem identifier_round_trip {a b : Profile} (ha : Valid a) (hb : Valid b) :
    b.withIdentifier a.identifier =
        .ok { b with vendor := a.vendor, product := a.product, version := a.version } ∧
      a.withIdentifier a.identifier = .ok a ∧
      (∀ id numbers, Identifies id numbers →
        b.withIdentifier id = .ok (b.identifiedBy numbers) ∧
        InRange (b.identifiedBy numbers) ∧
        b.withIdentifier (b.identifiedBy numbers).identifier = .ok (b.identifiedBy numbers)) ∧
      ∀ id, (¬ ∃ numbers, Identifies id numbers) →
        ∃ fault, b.withIdentifier id = .error fault ∧
          (LoadFault.identifier fault id).report.kind = .config := by
  refine ⟨withIdentifier_identifier ha.inRange b, withIdentifier_identifier ha.inRange a, ?_, ?_⟩
  · intro id numbers hid
    have haccepted : b.withIdentifier id = .ok (b.identifiedBy numbers) :=
      withIdentifier_eq_ok_iff.mpr ⟨numbers, hid, rfl⟩
    have hrange := (hb.identified haccepted).inRange
    exact ⟨haccepted, hrange, withIdentifier_identifier hrange b⟩
  · intro id hid
    cases hresult : b.withIdentifier id with
    | ok c =>
        obtain ⟨numbers, hnumbers, -⟩ := withIdentifier_eq_ok_iff.mp hresult
        exact absurd ⟨numbers, hnumbers⟩ hid
    | error fault => exact ⟨fault, rfl, rfl⟩

/-- A vendor and a product are set and the version of the checked device stays; a number of more than
sixteen bits is refused. -/
theorem identifier_round_trip_partial :
    ∃ a b : Profile, Valid a ∧ Valid b ∧ b.withIdentifier a.identifier =
        .ok { b with vendor := 0xFFFF, product := 0xAB, version := 0 } ∧
      Identifies "0xBEEF: 7" [0xBEEF, 7] ∧
      b.withIdentifier "0xBEEF: 7" = .ok { b with vendor := 0xBEEF, product := 7 } ∧
      (b.identifiedBy [0xBEEF, 7]).identifier = "0xBEEF:0x0007:0x0003" ∧
      b.withIdentifier "0xBEEF:0x0007:0x0003" = .ok { b with vendor := 0xBEEF, product := 7 } ∧
      (¬ ∃ numbers, Identifies "1:0x10000" numbers) ∧
      ∃ fault, b.withIdentifier "1:0x10000" = .error fault ∧
        (LoadFault.identifier fault "1:0x10000").report.kind = .config := by
  have ha : Valid { vendor := 0xFFFF, product := 0xAB } :=
    .checked (show Validation.profile [(.text "vendor", .int 0xFFFF), (.text "product", .int 0xAB)] = _
      from rfl)
  have hb : Valid { version := 3 } :=
    .checked (show Validation.profile [(.text "version", .int 3)] = _ from rfl)
  have hnames : Identifies "0xBEEF: 7" [0xBEEF, 7] :=
    ⟨["0xBEEF", " 7"], by decide, by decide, by decide, by decide, by decide⟩
  have hwritten : (identifiedBy { version := 3 } [0xBEEF, 7]).identifier = "0xBEEF:0x0007:0x0003" := by
    decide +kernel
  have hrefused : ¬ ∃ numbers, Identifies "1:0x10000" numbers := by
    rintro ⟨numbers, h⟩
    have haccepted := withIdentifier_eq_ok_iff.mpr ⟨numbers, h, Eq.refl (identifiedBy {} numbers)⟩
    cases (show withIdentifier {} "1:0x10000" = .error .outOfRange from rfl).symm.trans haccepted
  obtain ⟨htrip, -, hnamed, hother⟩ := identifier_round_trip ha hb
  obtain ⟨haccepted, -, hagain⟩ := hnamed _ _ hnames
  exact ⟨_, _, ha, hb, htrip, hnames, haccepted, hwritten, hwritten ▸ hagain, hrefused,
    hother _ hrefused⟩

end Profile

end InputScript
