import InputScript.Text.Utf8

/-!
# Decoding is exact

A character is written in one to four bytes.  `Sequence` lists which bytes these are: the range of each
byte, by the range of the first.  Overlong forms, surrogates and values beyond the last character are
not in the list.

The bytes of every character are a sequence (`sequence_utf8EncodeChar`), and a sequence is the bytes of
the character with its value (`Sequence.utf8EncodeChar_eq`).  The decoder takes a sequence off the front
(`Sequence.decode_append`), and nothing else (`encodeUtf8_of_decodeUtf8`).  So what it accepts is what
the encoder writes.

## Main results

* `decodeUtf8_eq_ok_iff` — bytes are decoded to a text exactly if they are the bytes of that text.
* `decodeLossy_of_decodeUtf8` — nothing is replaced in the bytes of a text.
* `newline_mem_encodeUtf8` — the byte of a line end stands for a line end and nothing else.
-/

namespace InputScript

/-- A sequence of computations answers only if each does. -/
theorem exists_of_bind_eq_ok {ε α β : Type} {x : Except ε α} {f : α → Except ε β} {b : β}
    (h : x >>= f = .ok b) : ∃ a, x = .ok a ∧ f a = .ok b := by
  cases x with
  | error e => cases h
  | ok a => exact ⟨a, rfl, h⟩

variable {bytes : List UInt8} {value : Nat} {cs : List Char}

namespace Text

/-! ## Sequences -/

/-- The bytes of one character, and its value. -/
inductive Sequence : List UInt8 → Nat → Prop
  | one {b0 : UInt8} (h0 : b0.toNat < 0x80) : Sequence [b0] b0.toNat
  | two {b0 b1 : UInt8} (h0 : 0xC2 ≤ b0.toNat ∧ b0.toNat ≤ 0xDF)
      (h1 : 0x80 ≤ b1.toNat ∧ b1.toNat ≤ 0xBF) :
      Sequence [b0, b1] ((b0.toNat - 0xC0) * 64 + (b1.toNat - 0x80))
  | three {b0 b1 b2 : UInt8} (h0 : 0xE0 ≤ b0.toNat ∧ b0.toNat ≤ 0xEF)
      (h1 : 0x80 ≤ b1.toNat ∧ b1.toNat ≤ 0xBF) (h2 : 0x80 ≤ b2.toNat ∧ b2.toNat ≤ 0xBF)
      (hoverlong : b0.toNat = 0xE0 → 0xA0 ≤ b1.toNat)
      (hsurrogate : b0.toNat = 0xED → b1.toNat ≤ 0x9F) :
      Sequence [b0, b1, b2]
        (((b0.toNat - 0xE0) * 64 + (b1.toNat - 0x80)) * 64 + (b2.toNat - 0x80))
  | four {b0 b1 b2 b3 : UInt8} (h0 : 0xF0 ≤ b0.toNat ∧ b0.toNat ≤ 0xF4)
      (h1 : 0x80 ≤ b1.toNat ∧ b1.toNat ≤ 0xBF) (h2 : 0x80 ≤ b2.toNat ∧ b2.toNat ≤ 0xBF)
      (h3 : 0x80 ≤ b3.toNat ∧ b3.toNat ≤ 0xBF) (hoverlong : b0.toNat = 0xF0 → 0x90 ≤ b1.toNat)
      (hlast : b0.toNat = 0xF4 → b1.toNat ≤ 0x8F) :
      Sequence [b0, b1, b2, b3]
        ((((b0.toNat - 0xF0) * 64 + (b1.toNat - 0x80)) * 64 + (b2.toNat - 0x80)) * 64 +
          (b3.toNat - 0x80))

theorem toNat_ofNat_of_isValidChar {n : Nat} (h : n.isValidChar) :
    (Char.ofNat n).val.toNat = n := by
  rw [Char.ofNat, dif_pos h]
  rfl

theorem ofNat_eq_byte {n : Nat} {b : UInt8} (h : n = b.toNat) : UInt8.ofNat n = b := by
  rw [h, UInt8.ofNat_toNat]

/-- A sequence is the bytes of the character with its value. -/
theorem Sequence.utf8EncodeChar_eq (h : Sequence bytes value) :
    String.utf8EncodeChar (Char.ofNat value) = bytes := by
  cases h with
  | one h0 =>
      rw [String.utf8EncodeChar, toNat_ofNat_of_isValidChar (by left; omega),
        if_pos (by omega), UInt8.ofNat_toNat]
  | @two b0 b1 h0 h1 =>
      rw [String.utf8EncodeChar, toNat_ofNat_of_isValidChar (by left; omega),
        if_neg (by omega), if_pos (by omega), ofNat_eq_byte (b := b0) (by omega),
        ofNat_eq_byte (b := b1) (by omega)]
  | @three b0 b1 b2 h0 h1 h2 hoverlong hsurrogate =>
      rw [String.utf8EncodeChar, toNat_ofNat_of_isValidChar (by unfold Nat.isValidChar; omega),
        if_neg (by omega), if_neg (by omega), if_pos (by omega),
        ofNat_eq_byte (b := b0) (by omega), ofNat_eq_byte (b := b1) (by omega),
        ofNat_eq_byte (b := b2) (by omega)]
  | @four b0 b1 b2 b3 h0 h1 h2 h3 hoverlong hlast =>
      rw [String.utf8EncodeChar, toNat_ofNat_of_isValidChar (by unfold Nat.isValidChar; omega),
        if_neg (by omega), if_neg (by omega), if_neg (by omega),
        ofNat_eq_byte (b := b0) (by omega), ofNat_eq_byte (b := b1) (by omega),
        ofNat_eq_byte (b := b2) (by omega), ofNat_eq_byte (b := b3) (by omega)]

theorem Sequence.of_value {value' : Nat} (h : Sequence bytes value) (hvalue : value = value') :
    Sequence bytes value' := hvalue ▸ h

/-- The bytes of a character are a sequence. -/
theorem sequence_utf8EncodeChar (c : Char) : Sequence (String.utf8EncodeChar c) c.toNat := by
  have hvalid : c.val.toNat < 0xD800 ∨ 0xDFFF < c.val.toNat ∧ c.val.toNat < 0x110000 := c.valid
  show Sequence (String.utf8EncodeChar c) c.val.toNat
  rw [String.utf8EncodeChar]
  generalize c.val.toNat = n at hvalid ⊢
  split
  · refine .of_value (.one ?_) ?_ <;> simp only [UInt8.toNat_ofNat'] <;> omega
  split
  · refine .of_value (.two ?_ ?_) ?_ <;> simp only [UInt8.toNat_ofNat'] <;> omega
  split
  · refine .of_value (.three ?_ ?_ ?_ ?_ ?_) ?_ <;> simp only [UInt8.toNat_ofNat'] <;> omega
  · refine .of_value (.four ?_ ?_ ?_ ?_ ?_ ?_) ?_ <;> simp only [UInt8.toNat_ofNat'] <;> omega

/-! ## The decoder -/

/-- The range of the second byte, as the list of sequences has it. -/
theorem mem_secondByteRange {lead byte : Nat} :
    (secondByteRange lead).1 ≤ byte ∧ byte ≤ (secondByteRange lead).2 ↔
      (0x80 ≤ byte ∧ byte ≤ 0xBF) ∧ (lead = 0xE0 → 0xA0 ≤ byte) ∧ (lead = 0xED → byte ≤ 0x9F) ∧
        (lead = 0xF0 → 0x90 ≤ byte) ∧ (lead = 0xF4 → byte ≤ 0x8F) := by
  unfold secondByteRange
  simp only [beq_iff_eq]
  split
  · omega
  split
  · omega
  split
  · omega
  split
  · omega
  · omega

theorem continueChar_of_mem (range : Nat × Nat) {byte : UInt8}
    (h : range.1 ≤ byte.toNat ∧ byte.toNat ≤ range.2) (value : Nat) :
    continueChar range value byte = .ok (value * 64 + (byte.toNat - 0x80)) := by
  rw [continueChar, if_pos (by simpa using h)]

theorem continueChar_eq_ok {range : Nat × Nat} {byte : UInt8} {next : Nat}
    (h : continueChar range value byte = .ok next) :
    (range.1 ≤ byte.toNat ∧ byte.toNat ≤ range.2) ∧ next = value * 64 + (byte.toNat - 0x80) := by
  unfold continueChar at h
  split at h
  · next hmem => exact ⟨by simpa using hmem, (Except.ok.inj h).symm⟩
  · cases h

theorem leadByte?_eq_some_iff {lead more : Nat} :
    leadByte? lead = some (more, value) ↔
      (more = 0 ∧ lead < 0x80 ∧ value = lead) ∨
      (more = 1 ∧ (0xC2 ≤ lead ∧ lead ≤ 0xDF) ∧ value = lead - 0xC0) ∨
      (more = 2 ∧ (0xE0 ≤ lead ∧ lead ≤ 0xEF) ∧ value = lead - 0xE0) ∨
      (more = 3 ∧ (0xF0 ≤ lead ∧ lead ≤ 0xF4) ∧ value = lead - 0xF0) := by
  unfold leadByte?
  grind

/-- Both decoders take a sequence off the front. -/
theorem Sequence.decode_append (h : Sequence bytes value) (rest : List UInt8) :
    decodeUtf8 (bytes ++ rest) = (decodeUtf8 rest).map (Char.ofNat value :: ·) ∧
      decodeLossy (bytes ++ rest) = Char.ofNat value :: decodeLossy rest := by
  cases h with
  | @one b0 h0 =>
      have hlead := leadByte?_eq_some_iff.mpr (.inl ⟨rfl, h0, rfl⟩)
      constructor
      · simp only [List.cons_append, List.nil_append, decodeUtf8, hlead, bind, Except.bind]
        cases decodeUtf8 rest <;> rfl
      · simp [decodeLossy, hlead, restOfChar]
  | @two b0 b1 h0 h1 =>
      have hlead := leadByte?_eq_some_iff.mpr (.inr (.inl ⟨rfl, h0, rfl⟩))
      have hsecond : (secondByteRange b0.toNat).1 ≤ b1.toNat ∧
          b1.toNat ≤ (secondByteRange b0.toNat).2 :=
        mem_secondByteRange.mpr ⟨h1, by omega, by omega, by omega, by omega⟩
      constructor
      · simp only [List.cons_append, List.nil_append, decodeUtf8, hlead, bind, Except.bind,
          continueChar_of_mem _ hsecond]
        cases decodeUtf8 rest <;> rfl
      · simp [decodeLossy, hlead, restOfChar, continueChar_of_mem _ hsecond]
  | @three b0 b1 b2 h0 h1 h2 hoverlong hsurrogate =>
      have hlead := leadByte?_eq_some_iff.mpr (.inr (.inr (.inl ⟨rfl, h0, rfl⟩)))
      have hsecond := mem_secondByteRange.mpr ⟨h1, hoverlong, hsurrogate, by omega, by omega⟩
      have hthird := continueChar_of_mem (0x80, 0xBF) h2
      constructor
      · simp only [List.cons_append, List.nil_append, decodeUtf8, hlead, bind, Except.bind,
          continueChar_of_mem _ hsecond, hthird]
        cases decodeUtf8 rest <;> rfl
      · simp [decodeLossy, hlead, restOfChar, continueChar_of_mem _ hsecond, hthird]
  | @four b0 b1 b2 b3 h0 h1 h2 h3 hoverlong hlast =>
      have hlead := leadByte?_eq_some_iff.mpr (.inr (.inr (.inr ⟨rfl, h0, rfl⟩)))
      have hsecond := mem_secondByteRange.mpr ⟨h1, by omega, by omega, hoverlong, hlast⟩
      have hthird := continueChar_of_mem (0x80, 0xBF) h2
      have hfourth := continueChar_of_mem (0x80, 0xBF) h3
      constructor
      · simp only [List.cons_append, List.nil_append, decodeUtf8, hlead, bind, Except.bind,
          continueChar_of_mem _ hsecond, hthird, hfourth]
        cases decodeUtf8 rest <;> rfl
      · simp [decodeLossy, hlead, restOfChar, continueChar_of_mem _ hsecond, hthird, hfourth]

/-! ## Texts -/

theorem encodeUtf8_cons (c : Char) (cs : List Char) :
    encodeUtf8 (c :: cs) = String.utf8EncodeChar c ++ encodeUtf8 cs := List.flatMap_cons

theorem encodeUtf8_append (cs ds : List Char) :
    encodeUtf8 (cs ++ ds) = encodeUtf8 cs ++ encodeUtf8 ds := List.flatMap_append

theorem decodeUtf8_encodeUtf8 (cs : List Char) : decodeUtf8 (encodeUtf8 cs) = .ok cs := by
  induction cs with
  | nil => rfl
  | cons c cs ih =>
      rw [encodeUtf8_cons, ((sequence_utf8EncodeChar c).decode_append _).1, ih, Char.ofNat_toNat]
      rfl

/-- What is decoded starts with the value of the sequence in front. -/
theorem Sequence.encodeUtf8_cons {rest : List UInt8} (h : Sequence bytes value)
    (hrest : encodeUtf8 cs = rest) :
    encodeUtf8 (Char.ofNat value :: cs) = bytes ++ rest := by
  rw [Text.encodeUtf8_cons, h.utf8EncodeChar_eq, hrest]

theorem encodeUtf8_of_decodeUtf8 (h : decodeUtf8 bytes = .ok cs) : encodeUtf8 cs = bytes := by
  fun_induction decodeUtf8 bytes generalizing cs with
  | case1 =>
      cases h
      rfl
  | case3 b0 rest v hlead ih =>
      obtain ⟨ds, hds, h⟩ := exists_of_bind_eq_ok h
      cases h
      have hcase := leadByte?_eq_some_iff.mp hlead
      obtain ⟨h0, rfl⟩ : b0.toNat < 0x80 ∧ v = b0.toNat := by omega
      exact (Sequence.one h0).encodeUtf8_cons (ih hds)
  | case4 b0 v hlead b1 rest ih =>
      obtain ⟨v₁, hsecond, h⟩ := exists_of_bind_eq_ok h
      obtain ⟨ds, hds, h⟩ := exists_of_bind_eq_ok h
      cases h
      have hcase := leadByte?_eq_some_iff.mp hlead
      obtain ⟨h0, hv⟩ : (0xC2 ≤ b0.toNat ∧ b0.toNat ≤ 0xDF) ∧ v = b0.toNat - 0xC0 := by omega
      obtain ⟨hmem, hv₁⟩ := continueChar_eq_ok hsecond
      rw [hv₁, hv]
      exact (Sequence.two h0 (mem_secondByteRange.mp hmem).1).encodeUtf8_cons (ih hds)
  | case6 b0 v hlead b1 b2 rest ih =>
      obtain ⟨v₁, hsecond, h⟩ := exists_of_bind_eq_ok h
      obtain ⟨v₂, hthird, h⟩ := exists_of_bind_eq_ok h
      obtain ⟨ds, hds, h⟩ := exists_of_bind_eq_ok h
      cases h
      have hcase := leadByte?_eq_some_iff.mp hlead
      obtain ⟨h0, hv⟩ : (0xE0 ≤ b0.toNat ∧ b0.toNat ≤ 0xEF) ∧ v = b0.toNat - 0xE0 := by omega
      obtain ⟨hmem, hv₁⟩ := continueChar_eq_ok hsecond
      obtain ⟨h2, hv₂⟩ := continueChar_eq_ok hthird
      rw [hv₂, hv₁, hv]
      obtain ⟨h1, hoverlong, hsurrogate, -, -⟩ := mem_secondByteRange.mp hmem
      exact (Sequence.three h0 h1 h2 hoverlong hsurrogate).encodeUtf8_cons (ih hds)
  | case9 b0 more v hzero hone htwo hlead b1 b2 b3 rest ih =>
      obtain ⟨v₁, hsecond, h⟩ := exists_of_bind_eq_ok h
      obtain ⟨v₂, hthird, h⟩ := exists_of_bind_eq_ok h
      obtain ⟨v₃, hfourth, h⟩ := exists_of_bind_eq_ok h
      obtain ⟨ds, hds, h⟩ := exists_of_bind_eq_ok h
      cases h
      have hmore : more ≠ 0 ∧ more ≠ 1 ∧ more ≠ 2 := ⟨hzero, hone, htwo⟩
      have hcase := leadByte?_eq_some_iff.mp hlead
      obtain ⟨h0, hv⟩ : (0xF0 ≤ b0.toNat ∧ b0.toNat ≤ 0xF4) ∧ v = b0.toNat - 0xF0 := by omega
      obtain ⟨hmem, hv₁⟩ := continueChar_eq_ok hsecond
      obtain ⟨h2, hv₂⟩ := continueChar_eq_ok hthird
      obtain ⟨h3, hv₃⟩ := continueChar_eq_ok hfourth
      rw [hv₃, hv₂, hv₁, hv]
      obtain ⟨h1, -, -, hoverlong, hlast⟩ := mem_secondByteRange.mp hmem
      exact (Sequence.four h0 h1 h2 h3 hoverlong hlast).encodeUtf8_cons (ih hds)
  | case2 | case5 | case8 | case12 => cases h
  | case7 | case11 =>
      -- The end comes before the third byte.
      obtain ⟨_, -, h⟩ := exists_of_bind_eq_ok h
      cases h
  | case10 =>
      obtain ⟨_, -, h⟩ := exists_of_bind_eq_ok h
      obtain ⟨_, -, h⟩ := exists_of_bind_eq_ok h
      cases h

/-- **Decoding is exact.**  Bytes are decoded to a text exactly if they are the bytes of that text. -/
theorem decodeUtf8_eq_ok_iff :
    decodeUtf8 bytes = .ok cs ↔ encodeUtf8 cs = bytes :=
  ⟨encodeUtf8_of_decodeUtf8, fun h => h ▸ decodeUtf8_encodeUtf8 cs⟩

/-- Nothing is replaced in the bytes of a text. -/
theorem decodeLossy_of_decodeUtf8 (h : decodeUtf8 bytes = .ok cs) : decodeLossy bytes = cs := by
  rw [← encodeUtf8_of_decodeUtf8 h]
  clear h
  induction cs with
  | nil => exact decodeLossy.eq_1
  | cons c cs ih =>
      rw [encodeUtf8_cons, ((sequence_utf8EncodeChar c).decode_append _).2, ih, Char.ofNat_toNat]

/-- Only a sequence of one byte has a byte that small. -/
theorem Sequence.eq_of_newline_mem (h : Sequence bytes value) (hmem : 10 ∈ bytes) : value = 10 := by
  cases h with
  | one h0 =>
      rw [← List.mem_singleton.mp hmem]
      rfl
  | two h0 h1 =>
      simp only [List.mem_cons, List.not_mem_nil, or_false] at hmem
      rcases hmem with rfl | rfl
      · exact absurd h0 (by decide)
      · exact absurd h1 (by decide)
  | three h0 h1 h2 =>
      simp only [List.mem_cons, List.not_mem_nil, or_false] at hmem
      rcases hmem with rfl | rfl | rfl
      · exact absurd h0 (by decide)
      · exact absurd h1 (by decide)
      · exact absurd h2 (by decide)
  | four h0 h1 h2 h3 =>
      simp only [List.mem_cons, List.not_mem_nil, or_false] at hmem
      rcases hmem with rfl | rfl | rfl | rfl
      · exact absurd h0 (by decide)
      · exact absurd h1 (by decide)
      · exact absurd h2 (by decide)
      · exact absurd h3 (by decide)

theorem newline_mem_utf8EncodeChar {c : Char} : 10 ∈ String.utf8EncodeChar c ↔ c = '\n' := by
  constructor
  · intro hmem
    have hvalue : c.toNat = 10 := (sequence_utf8EncodeChar c).eq_of_newline_mem hmem
    exact Char.ext (UInt32.toNat_inj.mp hvalue)
  · rintro rfl
    decide

/-- The byte of a line end stands for a line end and nothing else. -/
theorem newline_mem_encodeUtf8 : 10 ∈ encodeUtf8 cs ↔ '\n' ∈ cs := by
  simp [encodeUtf8, newline_mem_utf8EncodeChar]

end Text

end InputScript
