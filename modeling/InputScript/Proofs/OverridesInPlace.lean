import InputScript.Proofs.Overrides

/-!
# Overriding settings in place

The mappings of a configuration are changed where they stand, and a section of one mapping may be the
very same as a section of another.  To say that the mapping of the file is not changed, mappings are
kept here in a memory: a document holds plain values, and numbers of sections in place of sections.

Overriding copies the document, which then shares its sections with the file's, and copies the section
of the device before each setting in it.  `Frame` says what such a step may change: one document, and
no section that is there already.

## Main results

* `exists_overrideAt` — a step in memory makes of a document what the override makes of its entries.
* `exists_overrideCopy` — so does the whole run, and all that was in memory is left as it was.
* `environment_overrides` — what the environment makes of the entries of a file.
-/

namespace InputScript.Loader

open Value (setEntry field?)

/-- What a document holds under a key: a value of its own, or a section that others may hold too. -/
inductive Slot
  | plain (v : Value)
  | shared (number : Nat)

/-- Documents and sections, numbered in the order in which they were made. -/
structure Memory where
  documents : List (List (Value × Slot))
  sections : List (List (Value × Value))

variable {env : Environment} {o : Override} {os : List Override}
  {entries result : List (Value × Value)} {m m' m'' : Memory} {d : Nat}

namespace Memory

/-! ## Operations -/

/-- The value that a slot stands for. -/
def value (m : Memory) : Slot → Option Value
  | .plain v => some v
  | .shared n => (m.sections[n]?).map .mapping

/-- The value under a key of a document. -/
def lookup (m : Memory) (d : Nat) (name : String) : Option Value := do
  let slots ← m.documents[d]?
  let slot ← field? slots name
  m.value slot

/-- Adds a copy of a document, which shares the sections of the document. -/
def copyDocument (m : Memory) (d : Nat) : Memory :=
  { m with documents := m.documents ++ [m.documents.getD d []] }

/-- Sets a key of a document. -/
def put (m : Memory) (d : Nat) (name : String) (slot : Slot) : Memory :=
  { m with documents := m.documents.modify d fun slots => setEntry slots (.text name) slot }

/-- Adds a section. -/
def addSection (m : Memory) (nested : List (Value × Value)) : Memory :=
  { m with sections := m.sections ++ [nested] }

/-- Sets a key of a section. -/
def putInside (m : Memory) (n : Nat) (name : String) (v : Value) : Memory :=
  { m with sections := m.sections.modify n fun nested => setEntry nested (.text name) v }

/-! ## What memory shows -/

/-- The entries of a document, with its sections in their places. -/
def Shows (m : Memory) (d : Nat) (entries : List (Value × Value)) : Prop :=
  ∃ slots, m.documents[d]? = some slots ∧
    slots.map (Prod.map id m.value) = entries.map (Prod.map id some)

/-- All that is in memory is still there, with the same number. -/
structure Extends (m m' : Memory) : Prop where
  documents : m.documents <+: m'.documents
  sections : m.sections <+: m'.sections

/-- One document may have changed, and sections may have been added. -/
structure Frame (d : Nat) (m m' : Memory) : Prop where
  documents : ∀ e : Nat, e ≠ d → m'.documents[e]? = m.documents[e]?
  sections : m.sections <+: m'.sections

theorem Frame.refl (d : Nat) (m : Memory) : Frame d m m where
  documents _ _ := rfl
  sections := List.prefix_rfl

theorem Frame.trans (h : Frame d m m') (h' : Frame d m' m'') : Frame d m m'' where
  documents e he := (h'.documents e he).trans (h.documents e he)
  sections := h.sections.trans h'.sections

theorem Frame.put (d : Nat) (m : Memory) (name : String) (slot : Slot) :
    Frame d m (m.put d name slot) where
  documents e he := by simp [Memory.put, he.symm]
  sections := List.prefix_rfl

theorem Frame.addSection (d : Nat) (m : Memory) (nested : List (Value × Value)) :
    Frame d m (m.addSection nested) where
  documents _ _ := rfl
  sections := List.prefix_append _ _

theorem value_of_sections {slot : Slot} {v : Value} (h : m.sections <+: m'.sections)
    (hvalue : m.value slot = some v) : m'.value slot = some v := by
  cases slot with
  | plain w => exact hvalue
  | shared n =>
      obtain ⟨nested, hnested, rfl⟩ := Option.map_eq_some_iff.mp hvalue
      obtain ⟨added, hadded⟩ := h
      obtain ⟨hlt, -⟩ := List.getElem?_eq_some_iff.mp hnested
      refine Option.map_eq_some_iff.mpr ⟨nested, ?_, rfl⟩
      rw [← hadded, List.getElem?_append_left hlt, hnested]

/-- A document with the same slots shows the same entries, as no section has changed. -/
theorem Shows.of_sections {e : Nat} (h : m.Shows d entries)
    (hdocument : m'.documents[e]? = m.documents[d]?) (hsections : m.sections <+: m'.sections) :
    m'.Shows e entries := by
  obtain ⟨slots, hslots, hvalues⟩ := h
  refine ⟨slots, hdocument.trans hslots, ?_⟩
  rw [← hvalues]
  refine List.map_congr_left fun entry hentry => ?_
  have hmem : Prod.map id m.value entry ∈ entries.map (Prod.map id some) := by
    rw [← hvalues]
    exact List.mem_map_of_mem hentry
  obtain ⟨shown, -, hshown⟩ := List.mem_map.mp hmem
  have hvalue : m.value entry.2 = some shown.2 := congrArg Prod.snd hshown.symm
  exact Prod.ext rfl ((value_of_sections hsections hvalue).trans hvalue.symm)

theorem Shows.lookup_eq (h : m.Shows d entries) (name : String) :
    m.lookup d name = field? entries name := by
  obtain ⟨slots, hslots, hvalues⟩ := h
  have hfield := congrArg (field? · name) hvalues
  simp only [Value.field?_map] at hfield
  calc m.lookup d name = (field? slots name).bind m.value := by rw [lookup, hslots]; rfl
    _ = ((field? slots name).map m.value).bind id := by
      cases field? slots name <;> rfl
    _ = ((field? entries name).map some).bind id := by rw [hfield]
    _ = field? entries name := by cases field? entries name <;> rfl

theorem Shows.put (h : m.Shows d entries) {slot : Slot} {v : Value} (name : String)
    (hvalue : m.value slot = some v) :
    (m.put d name slot).Shows d (setEntry entries (.text name) v) := by
  obtain ⟨slots, hslots, hvalues⟩ := h
  refine ⟨setEntry slots (.text name) slot, ?_, ?_⟩
  · simp [Memory.put, hslots]
  · show (setEntry slots (.text name) slot).map (Prod.map id m.value) = _
    rw [← Value.setEntry_map, ← Value.setEntry_map, hvalues, hvalue]

theorem Shows.copyDocument (h : m.Shows d entries) :
    (m.copyDocument d).Shows m.documents.length entries := by
  refine h.of_sections ?_ List.prefix_rfl
  obtain ⟨slots, hslots, -⟩ := h
  simp [Memory.copyDocument, List.getD_eq_getElem?_getD, hslots]

theorem Shows.addSection (h : m.Shows d entries) (nested : List (Value × Value)) :
    (m.addSection nested).Shows d entries :=
  h.of_sections rfl (List.prefix_append _ _)

theorem value_addSection (m : Memory) (nested : List (Value × Value)) :
    (m.addSection nested).value (.shared m.sections.length) = some (.mapping nested) := by
  simp [value, addSection]

/-- A document that has not changed shows what it showed. -/
theorem Shows.of_extends (h : m.Shows d entries) (hextends : m.Extends m') :
    m'.Shows d entries := by
  refine h.of_sections ?_ hextends.sections
  obtain ⟨slots, hslots, -⟩ := h
  obtain ⟨hlt, -⟩ := List.getElem?_eq_some_iff.mp hslots
  rw [List.prefix_iff_getElem?.mp hextends.documents d hlt, List.getElem?_eq_getElem hlt]

/-- Only the section that has just been added is changed. -/
theorem putInside_addSection (m : Memory) (nested : List (Value × Value)) (name : String)
    (v : Value) :
    (m.addSection nested).putInside m.sections.length name v =
      m.addSection (setEntry nested (.text name) v) := by
  have hmodify : ∀ sections : List (List (Value × Value)),
      (sections ++ [nested]).modify sections.length (fun nested => setEntry nested (.text name) v) =
        sections ++ [setEntry nested (.text name) v] := by
    intro sections
    induction sections with
    | nil => rfl
    | cons first sections ih => exact congrArg (first :: ·) ih
  exact congrArg (Memory.mk m.documents) (hmodify m.sections)

end Memory

/-! ## Overriding in memory -/

/-- Applies one override to a document. -/
def overrideAt (env : Environment) (d : Nat) (m : Memory) (o : Override) :
    Except LoadCrash Memory :=
  match o.given env with
  | none => .ok m
  | some v =>
    if o.ofDevice then do
      let nested ← entriesOf ((m.lookup d "device").getD .null)
      let copy := m.sections.length
      return ((m.addSection nested).putInside copy o.field v).put d "device" (.shared copy)
    else .ok (m.put d o.field (.plain v))

/-- Copies a document and applies all overrides to the copy. -/
def overrideCopy (env : Environment) (d : Nat) (m : Memory) : Except LoadCrash Memory :=
  overrides.foldlM (overrideAt env m.documents.length) (m.copyDocument d)

theorem exists_overrideAt (hshows : m.Shows d entries)
    (h : applyOverride env entries o = .ok result) :
    ∃ m', overrideAt env d m o = .ok m' ∧ m'.Shows d result ∧ m.Frame d m' := by
  rw [applyOverride_eq] at h
  unfold overrideAt
  cases hgiven : o.given env with
  | none =>
      rw [hgiven] at h
      cases h
      exact ⟨m, rfl, hshows, .refl d m⟩
  | some v =>
      rw [hgiven] at h
      cases hof : o.ofDevice with
      | false =>
          rw [hof] at h
          cases h
          exact ⟨_, rfl, hshows.put o.field rfl, .put d m o.field (.plain v)⟩
      | true =>
          rw [hof] at h
          rw [hshows.lookup_eq]
          cases hnested : entriesOf ((field? entries "device").getD .null) with
          | error crash =>
              rw [hnested] at h
              cases h
          | ok nested =>
              rw [hnested] at h
              cases h
              -- The section was copied first, so what is changed in place is not shared.
              have hcopy := m.putInside_addSection nested o.field v
              refine ⟨_, rfl, ?_, ?_⟩
              · rw [hcopy]
                exact (hshows.addSection _).put "device" (m.value_addSection _)
              · rw [hcopy]
                exact (Memory.Frame.addSection d m _).trans (.put d _ _ _)

theorem exists_foldlM (hshows : m.Shows d entries)
    (h : os.foldlM (applyOverride env) entries = .ok result) :
    ∃ m', os.foldlM (overrideAt env d) m = .ok m' ∧ m'.Shows d result ∧ m.Frame d m' := by
  induction os generalizing entries m with
  | nil =>
      cases h
      exact ⟨m, rfl, hshows, .refl d m⟩
  | cons o os ih =>
      rw [List.foldlM_cons] at h
      cases hfirst : applyOverride env entries o with
      | error crash =>
          rw [hfirst] at h
          cases h
      | ok mid =>
          rw [hfirst] at h
          obtain ⟨m₁, hm₁, hshows₁, hframe₁⟩ := exists_overrideAt hshows hfirst
          obtain ⟨m₂, hm₂, hshows₂, hframe₂⟩ := ih hshows₁ h
          refine ⟨m₂, ?_, hshows₂, hframe₁.trans hframe₂⟩
          rw [List.foldlM_cons, hm₁]
          exact hm₂

theorem exists_overrideCopy (hshows : m.Shows d entries)
    (h : applyOverrides env entries = .ok result) :
    ∃ m', overrideCopy env d m = .ok m' ∧ m'.Shows m.documents.length result ∧ m.Extends m' := by
  obtain ⟨m', hm', hresult, hframe⟩ := exists_foldlM hshows.copyDocument h
  refine ⟨m', hm', hresult, ?_, hframe.sections⟩
  rw [List.prefix_iff_getElem?]
  intro e he
  rw [hframe.documents e (Nat.ne_of_lt he), Memory.copyDocument, List.getElem?_append_left he,
    List.getElem?_eq_getElem he]

/-! ## The environment and a file -/

/-- What stands at the place of a setting. -/
def Override.lookup (o : Override) (entries : List (Value × Value)) : Option Value :=
  field? (if o.ofDevice then deviceEntries entries else entries) o.field

theorem Override.HeldIn.lookup_eq {v : Value} (h : o.HeldIn v entries) :
    o.lookup entries = some v := by
  unfold Override.lookup
  cases h with
  | beside hof hholds =>
      rw [hof]
      exact hholds.field?_eq
  | inside hof nested hsection hholds =>
      rw [hof, deviceEntries_of_field? hsection.field?_eq]
      exact hholds.field?_eq

/-- Where a variable is set, and not empty, the setting that it names has the value derived from it.
All entries under keys that no such variable names are those of the file, in their order; so are the
entries in the section of the device.  The overrides may be applied in any order, and applied again
they change nothing.  In memory they are applied to a copy: all that was there is left as it was. -/
theorem environment_overrides (env : Environment) (h : HasSection entries) :
    ∃ result, applyOverrides env entries = .ok result ∧
      (∀ o ∈ overrides, ∀ v, o.given env = some v → o.lookup result = some v) ∧
      (∀ keep : Value → Bool,
        (∀ o ∈ overrides, o.given env ≠ none → keep (.text o.key) = false) →
        result.filter (fun entry => keep entry.1) = entries.filter (fun entry => keep entry.1)) ∧
      (∀ keep : Value → Bool,
        (∀ o ∈ overrides, o.ofDevice = true → o.given env ≠ none → keep (.text o.field) = false) →
        (deviceEntries result).filter (fun entry => keep entry.1) =
          (deviceEntries entries).filter (fun entry => keep entry.1)) ∧
      (∀ os : List Override, os.Perm overrides →
        ∃ other, os.foldlM (applyOverride env) entries = .ok other ∧ SameEntries result other) ∧
      applyOverrides env result = .ok result ∧
      ∀ (m : Memory) (d : Nat), m.Shows d entries →
        ∃ m', overrideCopy env d m = .ok m' ∧ m'.Shows m.documents.length result ∧
          m.Extends m' ∧ m'.Shows d entries := by
  obtain ⟨result, hrun, hover⟩ := overridden_foldlM env apart_overrides h
  refine ⟨result, hrun, fun o ho v hgiven => (hover.held o ho v hgiven).lookup_eq, hover.kept,
    hover.keptInside, ?_, foldlM_of_heldIn hover.held, ?_⟩
  · intro os hperm
    obtain ⟨other, hother, -⟩ := overridden_foldlM env (apart_overrides.perm hperm) h
    exact ⟨other, hother, foldlM_perm hperm apart_overrides h hrun hother⟩
  · intro m d hshows
    obtain ⟨m', hm', hresult, hextends⟩ := exists_overrideCopy hshows hrun
    exact ⟨m', hm', hresult, hextends, hshows.of_extends hextends⟩

/-- A device of the file keeps its colour when the environment names its path, and the file in memory
keeps the path that it had. -/
theorem environment_overrides_devicePath :
    ∃ (env : Environment) (file result : List (Value × Value)) (m : Memory),
      HasSection file ∧ applyOverrides env file = .ok result ∧
      field? (deviceEntries file) "path" = some (.text "/dev/a") ∧
      field? (deviceEntries result) "path" = some (.text "/dev/b") ∧
      field? result "dry_run" = some (.bool true) ∧
      (deviceEntries result).filter (fun entry => entry.1.sameKey (.text "colour")) =
        [(.text "colour", .text "red")] ∧
      result.filter (fun entry => entry.1.sameKey (.text "extra")) = [(.text "extra", .null)] ∧
      m.Shows 0 file ∧ ∃ m', overrideCopy env 0 m = .ok m' ∧ m'.Shows 0 file ∧ m'.Shows 1 result := by
  let env : Environment :=
    [("UDOSCRIPT_DEVICE", "/dev/b"), ("UDOSCRIPT_DRY_RUN", " Yes "), ("UDOSCRIPT_SHELL", "")]
  let device : List (Value × Value) :=
    [(.text "colour", .text "red"), (.text "path", .text "/dev/a")]
  let m : Memory := ⟨[[(.text "extra", .plain .null), (.text "device", .shared 0)]], [device]⟩
  have hsection : HasSection [(.text "extra", .null), (.text "device", .mapping device)] :=
    .inr (.inr ⟨device, rfl⟩)
  have hyes : yes " Yes " = .bool true := congrArg Value.bool (by decide +kernel)
  have hextra : ∀ o ∈ overrides, (Value.text o.key).sameKey (.text "extra") = false := by decide
  have hcolour : ∀ o ∈ overrides, (Value.text o.field).sameKey (.text "colour") = false := by decide
  have hshows : m.Shows 0 [(.text "extra", .null), (.text "device", .mapping device)] :=
    ⟨_, rfl, rfl⟩
  obtain ⟨result, hrun, hset, hkept, hinside, -, -, hmemory⟩ := environment_overrides env hsection
  obtain ⟨m', hm', hresult, -, hfile⟩ := hmemory m 0 hshows
  refine ⟨env, _, result, m, hsection, hrun, rfl, ?_, ?_, ?_, ?_, hshows, m', hm', hfile, hresult⟩
  · exact hset ⟨"UDOSCRIPT_DEVICE", true, "path", .text⟩ (by simp [overrides]) _ rfl
  · exact hset ⟨"UDOSCRIPT_DRY_RUN", false, "dry_run", yes⟩ (by simp [overrides]) _
      (congrArg some hyes)
  · exact hinside (fun key => key.sameKey (.text "colour")) fun o ho _ _ => hcolour o ho
  · exact hkept (fun key => key.sameKey (.text "extra")) fun o ho _ => hextra o ho

end InputScript.Loader
