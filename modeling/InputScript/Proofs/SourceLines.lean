import InputScript.Proofs.Reading
import InputScript.Proofs.Utf8

/-!
# Sources of lines

A script may come as text or as bytes.  Either is cut into physical lines after each line end, and a
line of bytes is decoded when its turn comes.  Since no other character has the byte of a line end in
it, cutting and encoding commute (`CutAfter.encoded`), and both sources have the same lines.

`CutAfter` says what the physical lines are without saying how they are found; there is one way to cut
a sequence (`CutAfter.eq_splitAfter`).  `linesOf` says what becomes of them.

## Main results

* `readLinesFrom_of_decoded` — what is read of lines that can be decoded.
* `exists_undecodable` — bytes that are no text have a first line that is none.
* `sources_agree` — the lines of a text and of its bytes, and of bytes that are no text.
-/

namespace InputScript.Script

open Text (encodeUtf8 decodeUtf8)

/-! ## Physical lines -/

section Cuts

variable {α : Type} {separator : α}

/-- The sequence is cut after each separator, and nowhere else. -/
inductive CutAfter (separator : α) : List α → List (List α) → Prop
  | nil : CutAfter separator [] []
  | last {piece : List α} (hne : piece ≠ []) (hopen : separator ∉ piece) :
      CutAfter separator piece [piece]
  | cons {body rest : List α} {pieces : List (List α)} (hbody : separator ∉ body)
      (h : CutAfter separator rest pieces) :
      CutAfter separator (body ++ separator :: rest) ((body ++ [separator]) :: pieces)

theorem CutAfter.flatten_eq {xs : List α} {pieces : List (List α)} (h : CutAfter separator xs pieces) :
    pieces.flatten = xs := by
  induction h with
  | nil => rfl
  | last hne hopen => simp
  | cons hbody h ih => simp [ih]

variable [DecidableEq α]

theorem splitAfter_of_not_mem {piece : List α} (hne : piece ≠ []) (hopen : separator ∉ piece) :
    splitAfter separator piece = [piece] := by
  induction piece with
  | nil => exact absurd rfl hne
  | cons a piece ih =>
      rw [splitAfter, if_neg (List.ne_of_not_mem_cons hopen).symm]
      cases piece with
      | nil => rfl
      | cons b piece => rw [ih (List.cons_ne_nil b piece) (List.not_mem_of_not_mem_cons hopen)]

theorem splitAfter_append_cons {body : List α} (hbody : separator ∉ body) (rest : List α) :
    splitAfter separator (body ++ separator :: rest) =
      (body ++ [separator]) :: splitAfter separator rest := by
  induction body with
  | nil => rw [List.nil_append, splitAfter, if_pos rfl, List.nil_append]
  | cons a body ih =>
      rw [List.cons_append, splitAfter, if_neg (List.ne_of_not_mem_cons hbody).symm,
        ih (List.not_mem_of_not_mem_cons hbody), List.cons_append]

/-- There is one way to cut a sequence, and it is found. -/
theorem CutAfter.eq_splitAfter {xs : List α} {pieces : List (List α)}
    (h : CutAfter separator xs pieces) : pieces = splitAfter separator xs := by
  induction h with
  | nil => rfl
  | last hne hopen => exact (splitAfter_of_not_mem hne hopen).symm
  | cons hbody h ih => rw [splitAfter_append_cons hbody, ← ih]

theorem exists_cutAfter (separator : α) (xs : List α) : ∃ pieces, CutAfter separator xs pieces := by
  induction xs with
  | nil => exact ⟨[], .nil⟩
  | cons a xs ih =>
      obtain ⟨pieces, h⟩ := ih
      by_cases ha : a = separator
      · subst ha
        exact ⟨_, .cons (show a ∉ [] from List.not_mem_nil) h⟩
      · -- An element that is no separator goes to the piece that follows it.
        have hopen : ∀ {body : List α}, separator ∉ body → separator ∉ a :: body :=
          List.not_mem_cons_of_ne_of_not_mem (Ne.symm ha)
        cases h with
        | nil => exact ⟨_, .last (List.cons_ne_nil a []) (hopen List.not_mem_nil)⟩
        | last hne hpiece => exact ⟨_, .last (List.cons_ne_nil a _) (hopen hpiece)⟩
        | cons hbody h => exact ⟨_, .cons (hopen hbody) h⟩

theorem cutAfter_splitAfter (separator : α) (xs : List α) :
    CutAfter separator xs (splitAfter separator xs) := by
  obtain ⟨pieces, h⟩ := exists_cutAfter separator xs
  rwa [← h.eq_splitAfter]

end Cuts

/-- The bytes of a text are cut where the text is. -/
theorem CutAfter.encoded {cs : List Char} {pieces : List (List Char)}
    (h : CutAfter '\n' cs pieces) : CutAfter 10 (encodeUtf8 cs) (pieces.map encodeUtf8) := by
  have hopen : ∀ {body : List Char}, '\n' ∉ body → 10 ∉ encodeUtf8 body :=
    fun hbody hmem => hbody (Text.newline_mem_encodeUtf8.mp hmem)
  induction h with
  | nil => exact .nil
  | last hne hpiece =>
      refine .last (fun hnil => hne ?_) (hopen hpiece)
      exact (Except.ok.inj (Text.decodeUtf8_eq_ok_iff.mpr hnil)).symm
  | cons hbody h ih =>
      rw [Text.encodeUtf8_append, Text.encodeUtf8_cons, List.map_cons, Text.encodeUtf8_append]
      exact .cons (hopen hbody) ih

/-! ## What is read -/

/-- The lines of physical lines with their numbers: each without the blanks around it, except those of
which nothing is left and those that are comments. -/
def linesOf (first : Nat) (texts : List String) : List Line :=
  ((texts.zipIdx first).map fun (text, number) => ⟨number, Text.trim text⟩).filter fun line =>
    line.text.toList.head? ∉ [none, some '#', some ';']

theorem decide_kept (text : String) :
    decide (text.toList.head? ∉ [none, some '#', some ';']) = !isDropped text := by
  unfold isDropped
  cases text.toList with
  | nil => rfl
  | cons c cs => simp [Bool.beq_eq_decide_eq]

theorem linesOf_cons (first : Nat) (text : String) (texts : List String) :
    linesOf first (text :: texts) =
      if isDropped (Text.trim text) then linesOf (first + 1) texts
      else ⟨first, Text.trim text⟩ :: linesOf (first + 1) texts := by
  simp only [linesOf, List.zipIdx_cons, List.map_cons, List.filter_cons, decide_kept]
  cases isDropped (Text.trim text) <;> rfl

/-- Physical lines that can be decoded are read. -/
theorem readLinesFrom_of_decoded {raws : List RawLine} {texts : List String}
    (h : raws.map RawLine.decode = texts.map .ok) (consumed : Nat) :
    readLinesFrom consumed raws = (linesOf (consumed + 1) texts, none) := by
  induction raws generalizing texts consumed with
  | nil =>
      cases texts with
      | nil => rfl
      | cons text texts => cases h
  | cons raw raws ih =>
      cases texts with
      | nil => cases h
      | cons text texts =>
          obtain ⟨hraw, hraws⟩ := List.cons.inj h
          rw [readLinesFrom, hraw, linesOf_cons]
          dsimp only
          rw [ih hraws]
          split <;> rfl

/-- A line that cannot be decoded ends the reading. -/
theorem readLines_of_undecodable {raws : List RawLine} {texts : List String} {bad : RawLine}
    {fault : Text.Utf8Fault} (h : raws.map RawLine.decode = texts.map .ok)
    (hbad : bad.decode = .error fault) (rest : List RawLine) :
    readLines (raws ++ bad :: rest) = (linesOf 1 texts, some ⟨texts.length + 1, fault⟩) := by
  have hlength : raws.length = texts.length := by simpa using congrArg List.length h
  rw [readLines, readLinesFrom_append (readLinesFrom_of_decoded h 0), readLinesFrom, hbad, hlength]
  simp

/-! ## Texts and bytes -/

/-- The bytes are those of some text. -/
def IsUtf8 (bytes : List UInt8) : Prop := ∃ cs, encodeUtf8 cs = bytes

theorem decode_ofText (pieces : List (List Char)) :
    (pieces.map fun cs => RawLine.text (String.ofList cs)).map RawLine.decode =
      (pieces.map String.ofList).map .ok := by
  rw [List.map_map, List.map_map]
  rfl

theorem decode_encoded (pieces : List (List Char)) :
    ((pieces.map encodeUtf8).map RawLine.bytes).map RawLine.decode =
      (pieces.map String.ofList).map .ok := by
  rw [List.map_map, List.map_map, List.map_map]
  refine List.map_congr_left fun cs _ => ?_
  show (decodeUtf8 (encodeUtf8 cs)).map String.ofList = .ok (String.ofList cs)
  rw [Text.decodeUtf8_encodeUtf8]
  rfl

/-- Among pieces some of which are no text there is a first. -/
theorem exists_undecodable {pieces : List (List UInt8)} (h : ¬ IsUtf8 pieces.flatten) :
    ∃ (texts : List (List Char)) (bad : List UInt8) (rest : List (List UInt8)),
      pieces = texts.map encodeUtf8 ++ bad :: rest ∧ ¬ IsUtf8 bad := by
  induction pieces with
  | nil => exact absurd ⟨[], rfl⟩ h
  | cons piece pieces ih =>
      by_cases hpiece : IsUtf8 piece
      · obtain ⟨cs, rfl⟩ := hpiece
        have hpieces : ¬ IsUtf8 pieces.flatten := by
          rintro ⟨ds, hds⟩
          exact h ⟨cs ++ ds, by rw [Text.encodeUtf8_append, hds, List.flatten_cons]⟩
        obtain ⟨texts, bad, rest, rfl, hbad⟩ := ih hpieces
        exact ⟨cs :: texts, bad, rest, rfl, hbad⟩
      · exact ⟨[], piece, pieces, rfl, hpiece⟩

theorem exists_fault_of_not_isUtf8 {bytes : List UInt8} (h : ¬ IsUtf8 bytes) :
    ∃ fault, RawLine.decode (.bytes bytes) = .error fault := by
  cases hdecode : decodeUtf8 bytes with
  | error fault => exact ⟨fault, by rw [RawLine.decode, hdecode]; rfl⟩
  | ok cs => exact absurd ⟨cs, Text.decodeUtf8_eq_ok_iff.mp hdecode⟩ h

/-- The failure of a script whose line cannot be decoded. -/
def DecodeFault.failure (f : DecodeFault) : Failure :=
  { fault := .undecodable f.fault, line := some f.number }

/-- **Texts and bytes are read alike.**  A text and its bytes have the same lines, and reading them
does not fail: the physical lines in order, each with its number from one on and without the blanks
around it, except those of which nothing is left and those that start with `#` or `;`.

Bytes that are no text have a first physical line that is none.  The lines before that one are read,
and then reading fails with a parse error that has its number. -/
theorem sources_agree :
    (∀ s : String, ∃ pieces, CutAfter '\n' s.toList pieces ∧
      readLines (RawLine.ofText s) = (linesOf 1 (pieces.map String.ofList), none) ∧
      readLines (RawLine.ofBytes (encodeUtf8 s.toList)) = (linesOf 1 (pieces.map String.ofList), none)) ∧
    ∀ bytes : List UInt8, ¬ IsUtf8 bytes →
      ∃ (texts : List (List Char)) (bad : List UInt8) (rest : List (List UInt8)) (fault : DecodeFault),
        CutAfter 10 bytes (texts.map encodeUtf8 ++ bad :: rest) ∧ ¬ IsUtf8 bad ∧
        readLines (RawLine.ofBytes bytes) = (linesOf 1 (texts.map String.ofList), some fault) ∧
        fault.failure.report.kind = .parse ∧
        fault.failure.report.context = [("line", .ofNat (texts.length + 1))] := by
  refine ⟨fun s => ?_, fun bytes hbytes => ?_⟩
  · have hcut := cutAfter_splitAfter '\n' s.toList
    refine ⟨_, hcut, readLinesFrom_of_decoded (decode_ofText _) 0, ?_⟩
    rw [RawLine.ofBytes, ← hcut.encoded.eq_splitAfter]
    exact readLinesFrom_of_decoded (decode_encoded _) 0
  · have hcut := cutAfter_splitAfter 10 bytes
    obtain ⟨texts, bad, rest, hpieces, hbad⟩ :=
      exists_undecodable (show ¬ IsUtf8 (splitAfter 10 bytes).flatten by rwa [hcut.flatten_eq])
    obtain ⟨fault, hfault⟩ := exists_fault_of_not_isUtf8 hbad
    have hread := readLines_of_undecodable (decode_encoded texts) hfault (rest.map .bytes)
    rw [List.length_map] at hread
    refine ⟨texts, bad, rest, ⟨texts.length + 1, fault⟩, hpieces ▸ hcut, hbad, ?_, rfl, rfl⟩
    rw [RawLine.ofBytes, hpieces, List.map_append, List.map_cons]
    exact hread

/-- A comment, a blank line and a line with a surrogate in it. -/
def withSurrogate : List UInt8 :=
  encodeUtf8 "# note\n  tap €\n \n".toList ++ [0x61, 0xED, 0xA0, 0x80, 10, 0x62]

theorem sources_agree_withSurrogate :
    ¬ IsUtf8 withSurrogate ∧
      readLines (RawLine.ofBytes withSurrogate) =
        ([⟨2, "tap €"⟩], some ⟨4, .continuation⟩) ∧
      ∃ (texts : List (List Char)) (bad : List UInt8) (rest : List (List UInt8)) (fault : DecodeFault),
        CutAfter 10 withSurrogate (texts.map encodeUtf8 ++ bad :: rest) ∧ ¬ IsUtf8 bad ∧
        readLines (RawLine.ofBytes withSurrogate) =
          (linesOf 1 (texts.map String.ofList), some fault) ∧
        fault.failure.report.kind = .parse ∧
        fault.failure.report.context = [("line", .ofNat (texts.length + 1))] := by
  have hbytes : ¬ IsUtf8 withSurrogate := by
    rintro ⟨cs, hcs⟩
    cases (Text.decodeUtf8_eq_ok_iff.mpr hcs).symm.trans
      (show decodeUtf8 withSurrogate = .error .continuation from rfl)
  exact ⟨hbytes, by decide +kernel, sources_agree.2 withSurrogate hbytes⟩

end InputScript.Script
