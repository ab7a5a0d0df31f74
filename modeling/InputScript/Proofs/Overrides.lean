import InputScript.Proofs.Entries
import InputScript.Settings.Loader

/-!
# Settings from the environment

Each variable of the environment that is set, and not to nothing, gives one setting its value.  Some of
these settings stand in the section of the device, which is added if it is missing.

`Applied` says once what applying one override can do; that a run of overrides gives each setting its
value, and leaves all other entries as they were, follows by induction on the list of overrides
(`overridden_foldlM`).  It is said for any list of overrides that write to different places, so the
order in which they apply is one among others.

## Main results

* `overridden_foldlM` — what the overrides change, and what they do not.
* `foldlM_of_heldIn` — applied again, they change nothing.
* `foldlM_perm` — in another order, they give the same entries in another order.
-/

namespace InputScript.Loader

open Value (setEntry field? Holds assign)

variable {env : Environment} {o other : Override} {os : List Override}
  {entries result : List (Value × Value)} {v : Value}

/-! ## One override -/

namespace Override

/-- The value that a variable gives, if it is set and not empty. -/
def given (o : Override) (env : Environment) : Option Value :=
  (env.get? o.name).bind fun raw => if raw = "" then none else some (o.value raw)

/-- Where a value is set: in the section of the device or beside it, and under which name. -/
def place (o : Override) : Bool × String := (o.ofDevice, o.field)

/-- The key of the engine's entries under which a value is set. -/
def key (o : Override) : String := if o.ofDevice then "device" else o.field

end Override

/-- The entries in the section of the device. -/
def deviceEntries (entries : List (Value × Value)) : List (Value × Value) :=
  match field? entries "device" with
  | some (.mapping nested) => nested
  | _ => []

/-- The section of the device is missing, null or a mapping. -/
def HasSection (entries : List (Value × Value)) : Prop :=
  field? entries "device" = none ∨ field? entries "device" = some .null ∨
    ∃ nested, field? entries "device" = some (.mapping nested)

theorem entriesOf_mapping (nested : List (Value × Value)) :
    entriesOf (.mapping nested) = .ok nested := by
  cases nested <;> rfl

theorem entriesOf_section (h : HasSection entries) :
    entriesOf ((field? entries "device").getD .null) = .ok (deviceEntries entries) := by
  unfold deviceEntries
  rcases h with h | h | ⟨nested, h⟩
  · rw [h]
    rfl
  · rw [h]
    rfl
  · rw [h]
    exact entriesOf_mapping nested

/-- What applying an override makes of some entries. -/
inductive Applied (env : Environment) (o : Override) (entries : List (Value × Value)) :
    List (Value × Value) → Prop
  | unset (hgiven : o.given env = none) : Applied env o entries entries
  | beside {v : Value} (hgiven : o.given env = some v) (hof : o.ofDevice = false) :
      Applied env o entries (setEntry entries (.text o.field) v)
  | inside {v : Value} (hgiven : o.given env = some v) (hof : o.ofDevice = true) :
      Applied env o entries
        (setEntry entries (.text "device")
          (.mapping (setEntry (deviceEntries entries) (.text o.field) v)))

theorem applyOverride_eq (env : Environment) (entries : List (Value × Value)) (o : Override) :
    applyOverride env entries o =
      match o.given env with
      | none => .ok entries
      | some v =>
        if o.ofDevice then do
          let nested ← entriesOf ((field? entries "device").getD .null)
          return setEntry entries (.text "device") (.mapping (setEntry nested (.text o.field) v))
        else .ok (setEntry entries (.text o.field) v) := by
  unfold applyOverride Override.given
  cases env.get? o.name with
  | none => rfl
  | some raw =>
      by_cases hempty : raw = ""
      · rw [hempty]
        rfl
      · rw [Option.bind_some, if_neg hempty]
        split
        · next hnone => cases hnone
        · next hsome => exact absurd (Option.some.inj hsome) hempty
        · next hsome =>
            cases hsome
            rfl

theorem applied_of_section (env : Environment) (o : Override) (h : HasSection entries) :
    ∃ result, applyOverride env entries o = .ok result ∧ Applied env o entries result := by
  rw [applyOverride_eq]
  cases hgiven : o.given env with
  | none => exact ⟨_, rfl, .unset hgiven⟩
  | some v =>
      cases hof : o.ofDevice with
      | false => exact ⟨_, rfl, .beside hgiven hof⟩
      | true =>
          rw [entriesOf_section h]
          exact ⟨_, rfl, .inside hgiven hof⟩

/-! ## What a step changes -/

/-- A setting has the value that was given for it, wherever it stands. -/
inductive Override.HeldIn (o : Override) (v : Value) (entries : List (Value × Value)) : Prop
  | beside (hof : o.ofDevice = false) (hholds : Holds entries o.field v)
  | inside (hof : o.ofDevice = true) (nested : List (Value × Value))
      (hsection : Holds entries "device" (.mapping nested)) (hholds : Holds nested o.field v)

/-- The place of the section is not one of a setting. -/
def sectionPlace : Bool × String := (false, "device")

theorem deviceEntries_of_field? {nested : List (Value × Value)}
    (h : field? entries "device" = some (.mapping nested)) : deviceEntries entries = nested := by
  rw [deviceEntries, h]

theorem Override.field_ne (hof : o.ofDevice = false) (h : o.place ≠ sectionPlace) :
    o.field ≠ "device" := by
  intro hfield
  exact h (Prod.ext hof hfield)

namespace Applied

/-- Beside the section, the section stays what it is. -/
theorem field?_device (h : Applied env o entries result) (hof : o.ofDevice = false)
    (hplace : o.place ≠ sectionPlace) : field? result "device" = field? entries "device" := by
  cases h with
  | unset => rfl
  | beside hgiven hof => exact Value.field?_setEntry_of_ne (Override.field_ne hof hplace)
  | inside _ hdevice =>
      rw [hof] at hdevice
      cases hdevice

theorem hasSection (h : Applied env o entries result) (hplace : o.place ≠ sectionPlace)
    (hsection : HasSection entries) : HasSection result := by
  cases h with
  | unset => exact hsection
  | beside hgiven hof =>
      have hsame := (Applied.beside hgiven hof : Applied env o entries _).field?_device hof hplace
      unfold HasSection
      rw [hsame]
      exact hsection
  | inside => exact .inr (.inr ⟨_, Value.field?_setEntry_self _ _ _⟩)

/-- An override gives its setting its value. -/
theorem heldIn (h : Applied env o entries result) (hgiven : o.given env = some v) :
    o.HeldIn v result := by
  cases h with
  | unset hnone =>
      rw [hgiven] at hnone
      cases hnone
  | beside hsome hof =>
      cases hgiven.symm.trans hsome
      exact .beside hof (Value.holds_setEntry _ _ _)
  | inside hsome hof =>
      cases hgiven.symm.trans hsome
      exact .inside hof _ (Value.holds_setEntry _ _ _) (Value.holds_setEntry _ _ _)

/-- An override leaves what others have set. -/
theorem heldIn_of_ne (h : Applied env other entries result) (hheld : o.HeldIn v entries)
    (hne : o.place ≠ other.place) (hplace : o.place ≠ sectionPlace)
    (hother : other.place ≠ sectionPlace) : o.HeldIn v result := by
  cases h with
  | unset => exact hheld
  | beside _ hof' =>
      cases hheld with
      | beside hof hholds =>
          refine .beside hof (hholds.setEntry_of_ne (fun hfield => hne ?_) _)
          exact Prod.ext (hof.trans hof'.symm) hfield.symm
      | inside hof nested hsection hholds =>
          exact .inside hof nested (hsection.setEntry_of_ne (Override.field_ne hof' hother) _) hholds
  | inside _ hof' =>
      cases hheld with
      | beside hof hholds =>
          exact .beside hof (hholds.setEntry_of_ne (Override.field_ne hof hplace).symm _)
      | inside hof nested hsection hholds =>
          refine .inside hof _ (Value.holds_setEntry _ _ _) ?_
          rw [deviceEntries_of_field? hsection.field?_eq]
          refine hholds.setEntry_of_ne (fun hfield => hne ?_) _
          exact Prod.ext (hof.trans hof'.symm) hfield.symm

/-- Entries under other keys stay as they are. -/
theorem filter_eq (h : Applied env o entries result) (keep : Value → Bool)
    (hkeep : o.given env ≠ none → keep (.text o.key) = false) :
    result.filter (fun entry => keep entry.1) = entries.filter (fun entry => keep entry.1) := by
  cases h with
  | unset => rfl
  | beside hgiven hof =>
      have hkey : o.key = o.field := by rw [Override.key, hof]; rfl
      rw [hgiven, hkey] at hkeep
      exact Value.filter_setEntry keep (hkeep nofun)
  | inside hgiven hof =>
      have hkey : o.key = "device" := by rw [Override.key, hof]; rfl
      rw [hgiven, hkey] at hkeep
      exact Value.filter_setEntry keep (hkeep nofun)

/-- Entries of the section under other keys stay as they are. -/
theorem filter_deviceEntries (h : Applied env o entries result) (hplace : o.place ≠ sectionPlace)
    (keep : Value → Bool)
    (hkeep : o.ofDevice = true → o.given env ≠ none → keep (.text o.field) = false) :
    (deviceEntries result).filter (fun entry => keep entry.1) =
      (deviceEntries entries).filter (fun entry => keep entry.1) := by
  cases hof : o.ofDevice with
  | false =>
      unfold deviceEntries
      rw [h.field?_device hof hplace]
  | true =>
      cases h with
      | unset => rfl
      | beside _ hbeside =>
          rw [hof] at hbeside
          cases hbeside
      | inside hgiven =>
          rw [deviceEntries_of_field? (Value.field?_setEntry_self _ _ _)]
          refine Value.filter_setEntry keep (hkeep hof ?_)
          rw [hgiven]
          nofun

end Applied

/-- An override whose value is held already changes nothing. -/
theorem applyOverride_of_heldIn (hgiven : o.given env = some v) (h : o.HeldIn v entries) :
    applyOverride env entries o = .ok entries := by
  rw [applyOverride_eq, hgiven]
  cases h with
  | beside hof hholds =>
      simp only [hof, Bool.false_eq_true, if_false, hholds.setEntry_eq]
  | inside hof nested hsection hholds =>
      simp only [hof, if_true, hsection.field?_eq, Option.getD_some, entriesOf_mapping]
      show Except.ok (setEntry entries (.text "device")
        (.mapping (setEntry nested (.text o.field) v))) = _
      rw [hholds.setEntry_eq, hsection.setEntry_eq]

/-! ## A run of overrides -/

/-- Overrides of different settings. -/
structure Apart (os : List Override) : Prop where
  distinct : os.Pairwise fun o o' => o.place ≠ o'.place
  off : ∀ o ∈ os, o.place ≠ sectionPlace

theorem Apart.of_cons (h : Apart (o :: os)) :
    o.place ≠ sectionPlace ∧ (∀ o' ∈ os, o.place ≠ o'.place) ∧ Apart os := by
  obtain ⟨hfirst, hrest⟩ := List.pairwise_cons.mp h.distinct
  refine ⟨h.off o List.mem_cons_self, hfirst, hrest, fun o' ho' => ?_⟩
  exact h.off o' (List.mem_cons_of_mem o ho')

variable {os' : List Override}

theorem Apart.perm (h : Apart os) (hperm : os'.Perm os) : Apart os' where
  distinct := (hperm.pairwise_iff fun hne => hne.symm).mpr h.distinct
  off o ho := h.off o (hperm.mem_iff.mp ho)

theorem apart_overrides : Apart overrides := by
  constructor <;> decide

/-- What a run of overrides makes of some entries. -/
structure Overridden (env : Environment) (os : List Override)
    (entries result : List (Value × Value)) : Prop where
  held : ∀ o ∈ os, ∀ v, o.given env = some v → o.HeldIn v result
  heldBefore : ∀ {o : Override} {v : Value}, o.HeldIn v entries →
    (∀ o' ∈ os, o.place ≠ o'.place) → o.place ≠ sectionPlace → o.HeldIn v result
  kept : ∀ keep : Value → Bool, (∀ o ∈ os, o.given env ≠ none → keep (.text o.key) = false) →
    result.filter (fun entry => keep entry.1) = entries.filter (fun entry => keep entry.1)
  keptInside : ∀ keep : Value → Bool,
    (∀ o ∈ os, o.ofDevice = true → o.given env ≠ none → keep (.text o.field) = false) →
    (deviceEntries result).filter (fun entry => keep entry.1) =
      (deviceEntries entries).filter (fun entry => keep entry.1)

theorem Overridden.refl (env : Environment) (entries : List (Value × Value)) :
    Overridden env [] entries entries where
  held _ ho := absurd ho List.not_mem_nil
  heldBefore hheld _ _ := hheld
  kept _ _ := rfl
  keptInside _ _ := rfl

theorem Overridden.cons {mid : List (Value × Value)} (hapart : Apart (o :: os))
    (hfirst : Applied env o entries mid) (hrest : Overridden env os mid result) :
    Overridden env (o :: os) entries result := by
  obtain ⟨hplace, hne, -⟩ := hapart.of_cons
  constructor
  · intro o' ho' v hgiven
    rcases List.mem_cons.mp ho' with rfl | hlater
    · -- The later overrides write elsewhere, so the value that was just set stays.
      exact hrest.heldBefore (hfirst.heldIn hgiven) hne hplace
    · exact hrest.held o' hlater v hgiven
  · intro o' v hheld hothers hplace'
    rw [List.forall_mem_cons] at hothers
    exact hrest.heldBefore (hfirst.heldIn_of_ne hheld hothers.1 hplace' hplace) hothers.2 hplace'
  · intro keep hkeep
    rw [List.forall_mem_cons] at hkeep
    rw [hrest.kept keep hkeep.2, hfirst.filter_eq keep hkeep.1]
  · intro keep hkeep
    rw [List.forall_mem_cons] at hkeep
    rw [hrest.keptInside keep hkeep.2, hfirst.filter_deviceEntries hplace keep hkeep.1]

theorem overridden_foldlM (env : Environment) (hapart : Apart os) (h : HasSection entries) :
    ∃ result, os.foldlM (applyOverride env) entries = .ok result ∧
      Overridden env os entries result := by
  induction os generalizing entries with
  | nil => exact ⟨entries, rfl, .refl env entries⟩
  | cons o os ih =>
      obtain ⟨hplace, -, hrest⟩ := hapart.of_cons
      obtain ⟨mid, hmid, happlied⟩ := applied_of_section env o h
      obtain ⟨result, hrun, hover⟩ := ih hrest (happlied.hasSection hplace h)
      refine ⟨result, ?_, .cons hapart happlied hover⟩
      rw [List.foldlM_cons, hmid]
      exact hrun

/-- Overrides whose values are held already change nothing. -/
theorem foldlM_of_heldIn (h : ∀ o ∈ os, ∀ v, o.given env = some v → o.HeldIn v entries) :
    os.foldlM (applyOverride env) entries = .ok entries := by
  induction os with
  | nil => rfl
  | cons o os ih =>
      rw [List.forall_mem_cons] at h
      have hfirst : applyOverride env entries o = .ok entries := by
        cases hgiven : o.given env with
        | none => rw [applyOverride_eq, hgiven]
        | some v => exact applyOverride_of_heldIn hgiven (h.1 v hgiven)
      rw [List.foldlM_cons, hfirst]
      exact ih h.2

/-! ## The order of the overrides -/

/-- The setting that the environment gives, if it stands in the section of the device or beside it. -/
def Override.setting? (o : Override) (env : Environment) (ofDevice : Bool) :
    Option (String × Value) :=
  if o.ofDevice = ofDevice then (o.given env).map (o.field, ·) else none

/-- The settings that the environment gives, in the section of the device or beside it. -/
def givenSettings (env : Environment) (ofDevice : Bool) (os : List Override) :
    List (String × Value) :=
  os.filterMap fun o => o.setting? env ofDevice

/-- The entries with all settings given that stand beside the section, and then with those inside. -/
def withSettings (env : Environment) (os : List Override) (entries : List (Value × Value)) :
    List (Value × Value) :=
  if (givenSettings env true os).isEmpty then assign entries (givenSettings env false os)
  else
    setEntry (assign entries (givenSettings env false os)) (.text "device")
      (.mapping (assign (deviceEntries entries) (givenSettings env true os)))

/-- The same entries in another order; those of the device's section may be in another order too. -/
inductive SameEntries (entries others : List (Value × Value)) : Prop
  | outside (h : entries.Perm others)
  | inside (base nested nested' : List (Value × Value)) (hnested : nested.Perm nested')
      (hleft : entries.Perm (setEntry base (.text "device") (.mapping nested)))
      (hright : others.Perm (setEntry base (.text "device") (.mapping nested')))

theorem Override.place_of_setting? {ofDevice : Bool} {s : String × Value}
    (h : o.setting? env ofDevice = some s) : o.place = (ofDevice, s.1) := by
  unfold Override.setting? at h
  split at h
  · next hof =>
      obtain ⟨v, -, rfl⟩ := Option.map_eq_some_iff.mp h
      exact Prod.ext hof rfl
  · cases h

/-- No setting is given twice. -/
theorem nodup_givenSettings (env : Environment) (ofDevice : Bool) (h : Apart os) :
    ((givenSettings env ofDevice os).map (·.1)).Nodup := by
  rw [List.Nodup, List.pairwise_map]
  refine h.distinct.filterMap _ fun o o' hne s hs s' hs' hsame => hne ?_
  rw [Override.place_of_setting? hs, Override.place_of_setting? hs', hsame]

theorem device_notMem_givenSettings (env : Environment)
    (hoff : ∀ o ∈ os, o.place ≠ sectionPlace) : "device" ∉ (givenSettings env false os).map (·.1) := by
  intro hmem
  obtain ⟨s, hs, hname⟩ := List.mem_map.mp hmem
  obtain ⟨o, ho, hsetting⟩ := List.mem_filterMap.mp hs
  refine hoff o ho ?_
  rw [Override.place_of_setting? hsetting, hname, sectionPlace]

theorem givenSettings_cons_of_none {ofDevice : Bool} (h : o.setting? env ofDevice = none) :
    givenSettings env ofDevice (o :: os) = givenSettings env ofDevice os :=
  List.filterMap_cons_none h

theorem givenSettings_cons_of_some {ofDevice : Bool} {s : String × Value}
    (h : o.setting? env ofDevice = some s) :
    givenSettings env ofDevice (o :: os) = s :: givenSettings env ofDevice os :=
  List.filterMap_cons_some h

/-- Applying one override first is setting its value with those of the others. -/
theorem withSettings_cons (hplace : o.place ≠ sectionPlace)
    (hoff : ∀ o ∈ os, o.place ≠ sectionPlace) (h : Applied env o entries result) :
    (withSettings env os result).Perm (withSettings env (o :: os) entries) := by
  unfold withSettings
  cases h with
  | unset hgiven =>
      have hnone : ∀ ofDevice, o.setting? env ofDevice = none := by
        intro ofDevice
        simp [Override.setting?, hgiven]
      rw [givenSettings_cons_of_none (hnone true), givenSettings_cons_of_none (hnone false)]
  | @beside v hgiven hof =>
      have hbeside : o.setting? env false = some (o.field, v) := by
        simp [Override.setting?, hgiven, hof]
      have hinside : o.setting? env true = none := by simp [Override.setting?, hof]
      have hsection : deviceEntries (setEntry entries (.text o.field) v) = deviceEntries entries := by
        unfold deviceEntries
        rw [Value.field?_setEntry_of_ne (Override.field_ne hof hplace)]
      rw [givenSettings_cons_of_none hinside, givenSettings_cons_of_some hbeside, hsection,
        Value.assign_cons]
  | @inside v hgiven hof =>
      have hbeside : o.setting? env false = none := by simp [Override.setting?, hof]
      have hinside : o.setting? env true = some (o.field, v) := by
        simp [Override.setting?, hgiven, hof]
      have hsection := Value.assign_setEntry (device_notMem_givenSettings env hoff)
        (.mapping (setEntry (deviceEntries entries) (.text o.field) v)) entries
      rw [givenSettings_cons_of_none hbeside, givenSettings_cons_of_some hinside,
        deviceEntries_of_field? (Value.field?_setEntry_self _ _ _)]
      -- If more values follow inside, the section set now is replaced by the one that has them all.
      cases givenSettings env true os with
      | nil => exact hsection
      | cons s inside =>
          have hset := Value.setEntry_perm hsection "device"
            (.mapping (assign (setEntry (deviceEntries entries) (.text o.field) v) (s :: inside)))
          rw [Value.setEntry_setEntry] at hset
          exact hset

theorem foldlM_withSettings (hoff : ∀ o ∈ os, o.place ≠ sectionPlace) (h : HasSection entries)
    (hrun : os.foldlM (applyOverride env) entries = .ok result) :
    result.Perm (withSettings env os entries) := by
  induction os generalizing entries with
  | nil =>
      cases hrun
      exact .refl _
  | cons o os ih =>
      rw [List.forall_mem_cons] at hoff
      obtain ⟨mid, hmid, happlied⟩ := applied_of_section env o h
      rw [List.foldlM_cons, hmid] at hrun
      exact (ih hoff.2 (happlied.hasSection hoff.1 h) hrun).trans
        (withSettings_cons hoff.1 hoff.2 happlied)

theorem withSettings_perm (hperm : os'.Perm os) (hapart : Apart os) (entries : List (Value × Value)) :
    SameEntries (withSettings env os entries) (withSettings env os' entries) := by
  have hsettings : ∀ ofDevice,
      (givenSettings env ofDevice os).Perm (givenSettings env ofDevice os') :=
    fun ofDevice => hperm.symm.filterMap _
  have hbeside := Value.assign_perm (hsettings false) (nodup_givenSettings env false hapart) entries
  have hinside := Value.assign_perm (hsettings true) (nodup_givenSettings env true hapart)
    (deviceEntries entries)
  unfold withSettings
  rw [(hsettings true).isEmpty_eq]
  split
  · exact .outside hbeside
  · exact .inside _ _ _ hinside (.refl _) (Value.setEntry_perm hbeside.symm _ _)

theorem SameEntries.of_perm {others entries' others' : List (Value × Value)}
    (h : SameEntries entries others) (hentries : entries'.Perm entries)
    (hothers : others'.Perm others) : SameEntries entries' others' := by
  cases h with
  | outside h => exact .outside ((hentries.trans h).trans hothers.symm)
  | inside base nested nested' hnested hleft hright =>
      exact .inside base nested nested' hnested (hentries.trans hleft) (hothers.trans hright)

theorem foldlM_perm {result' : List (Value × Value)} (hperm : os'.Perm os) (hapart : Apart os)
    (h : HasSection entries) (hrun : os.foldlM (applyOverride env) entries = .ok result)
    (hrun' : os'.foldlM (applyOverride env) entries = .ok result') :
    SameEntries result result' :=
  (withSettings_perm hperm hapart entries).of_perm (foldlM_withSettings hapart.off h hrun)
    (foldlM_withSettings (hapart.perm hperm).off h hrun')

end InputScript.Loader
