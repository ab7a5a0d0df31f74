import InputScript.Proofs.Identifiers
import InputScript.Proofs.Overrides

/-!
# Loading settings

Settings come from a file and the environment.  The overrides are merged into the entries of the file
before anything is checked, so they may meet a section of the device that is no section at all.  If
nothing else can go wrong, because the file can be read and holds a document, loading ends with
settings that are within their bounds or with a fault of the settings, except in this one case.

## Main results

* `entriesOf_isOk_iff` — what can be taken as a section.
* `foldlM_crash_iff` — the overrides fail only if one has to be put into what is no section.
* `loading_fails_as_fault` — how loading ends.
-/

namespace InputScript.Loader

open Value (setEntry field?)

variable {env : Environment} {o : Override} {os : List Override} {entries : List (Value × Value)}
  {src : Sources} {path : Option String} {file : String} {checked s : Settings}

/-! ## Sections -/

/-- What stands for an entry of a section in a list: anything that has two parts, of which the first
may be a key. -/
def IsPair : Value → Prop
  | .list items => ∃ k v, items = [k, v] ∧ k.isKey = true
  | .text s => s.length = 2
  | .unpaired codes => codes.length = 2
  | .mapping entries => entries.length = 2
  | _ => False

/-- What can be taken as the section of the device: a mapping, a list of pairs, or nothing. -/
def Mergeable : Value → Prop
  | .mapping _ => True
  | .list items => ∀ item ∈ items, IsPair item
  | v => v.isTruthy = false

theorem pairOf_isOk_iff (v : Value) : (∃ pair, pairOf v = .ok pair) ↔ IsPair v := by
  cases v with
  | list items =>
      match items with
      | [k, v] => by_cases hkey : k.isKey = true <;> simp [pairOf, IsPair, hkey]
      | [] | [_] | _ :: _ :: _ :: _ => simp [pairOf, IsPair]
  | text s =>
      simp only [pairOf, IsPair, ← String.length_toList]
      match s.toList with
      | [a, b] => simp
      | [] | [_] | _ :: _ :: _ :: _ => simp
  | unpaired codes =>
      match codes with
      | [a, b] => simp [pairOf, IsPair]
      | [] | [_] | _ :: _ :: _ :: _ => simp [pairOf, IsPair]
  | mapping entries =>
      match entries with
      | [(a, _), (b, _)] => simp [pairOf, IsPair]
      | [] | [_] | _ :: _ :: _ :: _ => simp [pairOf, IsPair]
  | null | bool | int | float | moment => simp [pairOf, IsPair]

theorem mapM_pairOf_isOk_iff (items : List Value) :
    (∃ pairs, items.mapM pairOf = .ok pairs) ↔ ∀ item ∈ items, IsPair item := by
  induction items with
  | nil => simp [pure, Except.pure]
  | cons item items ih =>
      rw [List.forall_mem_cons, ← pairOf_isOk_iff, ← ih, List.mapM_cons]
      cases pairOf item with
      | error crash => simp [bind, Except.bind]
      | ok pair =>
          cases items.mapM pairOf with
          | error crash => simp [bind, Except.bind]
          | ok pairs => simp [bind, Except.bind, pure, Except.pure]

theorem entriesOf_isOk_iff (v : Value) : (∃ nested, entriesOf v = .ok nested) ↔ Mergeable v := by
  cases v with
  | mapping nested => exact ⟨fun _ => trivial, fun _ => ⟨nested, entriesOf_mapping nested⟩⟩
  | list items =>
      rw [Mergeable, ← mapM_pairOf_isOk_iff]
      cases items with
      | nil => exact ⟨fun _ => ⟨[], rfl⟩, fun _ => ⟨[], rfl⟩⟩
      | cons item items =>
          simp only [entriesOf, Value.isTruthy, List.isEmpty_cons, Bool.not_false, Bool.not_true,
            Bool.false_eq_true, if_false]
          cases (item :: items).mapM pairOf with
          | error crash => simp [bind, Except.bind]
          | ok pairs => simp [bind, Except.bind, pure, Except.pure]
  | null | bool | int | float | text | unpaired | moment =>
      unfold Mergeable entriesOf
      split
      · next hfalse => simpa using hfalse
      · next htrue => simpa using htrue

/-! ## Merging -/

/-- The value that the section of the device is taken from. -/
def sectionValue (entries : List (Value × Value)) : Value := (field? entries "device").getD .null

/-- The environment gives a value that belongs into the section. -/
def Override.IsInside (o : Override) (env : Environment) : Prop :=
  o.ofDevice = true ∧ o.given env ≠ none

/-- Any other override applies, and leaves the section as it is. -/
theorem applyOverride_of_not_inside (hplace : o.place ≠ sectionPlace) (h : ¬ o.IsInside env) :
    ∃ result, applyOverride env entries o = .ok result ∧
      sectionValue result = sectionValue entries := by
  rw [applyOverride_eq]
  cases hgiven : o.given env with
  | none => exact ⟨entries, rfl, rfl⟩
  | some v =>
      have hof : o.ofDevice = false := by
        rw [Bool.eq_false_iff]
        intro hof
        exact h ⟨hof, by rw [hgiven]; nofun⟩
      refine ⟨setEntry entries (.text o.field) v, by rw [hof]; rfl, ?_⟩
      unfold sectionValue
      rw [Value.field?_setEntry_of_ne (Override.field_ne hof hplace)]

/-- A value is put into what can be taken as a section, which then is one. -/
theorem applyOverride_of_mergeable (h : o.IsInside env) (hmerge : Mergeable (sectionValue entries)) :
    ∃ result, applyOverride env entries o = .ok result ∧ HasSection result := by
  obtain ⟨hof, hgiven⟩ := h
  obtain ⟨v, hv⟩ := Option.ne_none_iff_exists'.mp hgiven
  obtain ⟨nested, hnested⟩ := (entriesOf_isOk_iff _).mpr hmerge
  rw [applyOverride_eq, hv, hof]
  refine ⟨setEntry entries (.text "device") (.mapping (setEntry nested (.text o.field) v)), ?_,
    .inr (.inr ⟨_, Value.field?_setEntry_self _ _ _⟩)⟩
  show (entriesOf (sectionValue entries) >>= _) = _
  rw [hnested]
  rfl

theorem applyOverride_of_not_mergeable (h : o.IsInside env)
    (hmerge : ¬ Mergeable (sectionValue entries)) :
    ∃ crash, applyOverride env entries o = .error crash := by
  obtain ⟨hof, hgiven⟩ := h
  obtain ⟨v, hv⟩ := Option.ne_none_iff_exists'.mp hgiven
  rw [applyOverride_eq, hv, hof]
  cases hnested : entriesOf (sectionValue entries) with
  | ok nested => exact absurd ((entriesOf_isOk_iff _).mp ⟨nested, hnested⟩) hmerge
  | error crash =>
      refine ⟨crash, ?_⟩
      show (entriesOf (sectionValue entries) >>= _) = _
      rw [hnested]
      rfl

/-- The overrides fail exactly if one has to be put into what is no section. -/
theorem foldlM_crash_iff (hapart : Apart os) :
    (∃ crash, os.foldlM (applyOverride env) entries = .error crash) ↔
      (∃ o ∈ os, o.IsInside env) ∧ ¬ Mergeable (sectionValue entries) := by
  induction os generalizing entries with
  | nil =>
      constructor
      · rintro ⟨crash, hcrash⟩
        cases hcrash
      · rintro ⟨⟨o, ho, -⟩, -⟩
        cases ho
  | cons o os ih =>
      obtain ⟨hplace, -, hrest⟩ := hapart.of_cons
      rw [List.foldlM_cons]
      by_cases hinside : o.IsInside env
      · by_cases hmerge : Mergeable (sectionValue entries)
        · -- The first value makes a section of it, and no later one can fail.
          obtain ⟨mid, hmid, hsection⟩ := applyOverride_of_mergeable hinside hmerge
          obtain ⟨result, hresult, -⟩ := overridden_foldlM env hrest hsection
          rw [hmid]
          constructor
          · rintro ⟨crash, hcrash⟩
            cases hresult.symm.trans hcrash
          · rintro ⟨-, hnot⟩
            exact absurd hmerge hnot
        · obtain ⟨crash, hcrash⟩ := applyOverride_of_not_mergeable hinside hmerge
          rw [hcrash]
          exact ⟨fun _ => ⟨⟨o, List.mem_cons_self, hinside⟩, hmerge⟩, fun _ => ⟨crash, rfl⟩⟩
      · obtain ⟨mid, hmid, hsame⟩ := applyOverride_of_not_inside hplace hinside
        have hlater : (∃ o' ∈ o :: os, o'.IsInside env) ↔ ∃ o' ∈ os, o'.IsInside env := by
          simp [hinside]
        rw [hmid, hlater, ← hsame]
        exact ih hrest

/-! ## Reading -/

/-- The file that settings are loaded from. -/
def configPath (env : Environment) (path : Option String) : Option String :=
  (path <|> env.get? "UDOSCRIPT_CONFIG").filter (!·.isEmpty)

/-- A file that can be read, and that holds a document in the format that its ending tells. -/
def Readable (src : Sources) (file : String) : Prop :=
  ∃ bytes cs, src.readFile file = .ok bytes ∧ Text.decodeUtf8 bytes = .ok cs ∧
    (ending file = ".yaml" ∨ ending file = ".yml" →
      ∃ v, src.readYaml (String.ofList (uniformLines cs)) = .ok v) ∧
    (ending file = ".json" → ∃ v, Json.parse (String.ofList (uniformLines cs)) = .ok v)

/-- The entries of the file, if there is one. -/
def fileEntries (src : Sources) (env : Environment) (path : Option String) :
    Except LoadTrouble (List (Value × Value)) :=
  match configPath env path with
  | some file => readEntries src (normalise file)
  | none => .ok []

/-- No crash: a result or a fault. -/
def Faultable {α : Type} (outcome : Except LoadTrouble α) : Prop :=
  (∃ a, outcome = .ok a) ∨ ∃ fault, outcome = .error (.fault fault)

theorem Faultable.bind {α β : Type} {outcome : Except LoadTrouble α}
    {next : α → Except LoadTrouble β} (h : Faultable outcome)
    (hnext : ∀ a, outcome = .ok a → Faultable (next a)) : Faultable (outcome >>= next) := by
  rcases h with ⟨a, rfl⟩ | ⟨fault, rfl⟩
  · exact hnext a rfl
  · exact .inr ⟨fault, rfl⟩

theorem readText_faultable {bytes : List UInt8} {cs : List Char}
    (hbytes : src.readFile file = .ok bytes) (hcs : Text.decodeUtf8 bytes = .ok cs) :
    Faultable (readText src file) := by
  unfold readText
  split
  · exact .inr ⟨_, rfl⟩
  · simp only [hbytes, hcs]
    exact .inl ⟨_, rfl⟩

theorem readText_eq_ok {bytes : List UInt8} {cs : List Char} {content : String}
    (hbytes : src.readFile file = .ok bytes) (hcs : Text.decodeUtf8 bytes = .ok cs)
    (h : readText src file = .ok content) : content = String.ofList (uniformLines cs) := by
  unfold readText at h
  split at h
  · cases h
  · simp only [hbytes, hcs] at h
    exact (Except.ok.inj h).symm

theorem readValue_faultable {content : String}
    (hyaml : ending file = ".yaml" ∨ ending file = ".yml" → ∃ v, src.readYaml content = .ok v)
    (hjson : ending file = ".json" → ∃ v, Json.parse content = .ok v) :
    Faultable (readValue src file content) := by
  unfold readValue
  simp only [Bool.or_eq_true, beq_iff_eq]
  split
  · next hformat =>
      obtain ⟨v, hv⟩ := hyaml hformat
      rw [hv]
      exact .inl ⟨_, rfl⟩
  · split
    · next hformat =>
        obtain ⟨v, hv⟩ := hjson hformat
        rw [hv]
        exact .inl ⟨v, rfl⟩
    · exact .inr ⟨_, rfl⟩

theorem readEntries_faultable (h : Readable src file) : Faultable (readEntries src file) := by
  obtain ⟨bytes, cs, hbytes, hcs, hyaml, hjson⟩ := h
  refine (readText_faultable hbytes hcs).bind fun content hcontent => ?_
  cases readText_eq_ok hbytes hcs hcontent
  refine (readValue_faultable hyaml hjson).bind fun v _ => ?_
  split
  · exact .inl ⟨_, rfl⟩
  · exact .inr ⟨_, rfl⟩

theorem fileEntries_faultable
    (h : ∀ file, configPath env path = some file → Readable src (normalise file)) :
    Faultable (fileEntries src env path) := by
  unfold fileEntries
  cases hpath : configPath env path with
  | none => exact .inl ⟨[], rfl⟩
  | some file => exact readEntries_faultable (h file hpath)

/-! ## Checking -/

/-- What is made of the settings by the device identifier in the environment. -/
inductive Identified (env : Environment) (checked : Settings) : Settings → Prop
  | unset (hid : ∀ id, env.get? "UDOSCRIPT_DEV_ID" = some id → id = "") :
      Identified env checked checked
  | set {id : String} {numbers : List Nat} (hid : env.get? "UDOSCRIPT_DEV_ID" = some id)
      (hne : id ≠ "") (hnumbers : Profile.Identifies id numbers) :
      Identified env checked { checked with device := checked.device.identifiedBy numbers }

theorem identified_iff_of_unset (hid : ∀ id, env.get? "UDOSCRIPT_DEV_ID" = some id → id = "") :
    Identified env checked s ↔ s = checked := by
  constructor
  · rintro (_ | ⟨hset, hne, -⟩)
    · rfl
    · exact absurd (hid _ hset) hne
  · rintro rfl
    exact .unset hid

theorem identified_iff_of_set {id : String} (hid : env.get? "UDOSCRIPT_DEV_ID" = some id)
    (hne : id ≠ "") :
    Identified env checked s ↔
      ∃ device, checked.device.withIdentifier id = .ok device ∧ s = { checked with device } := by
  constructor
  · rintro (hunset | ⟨hset, -, hnumbers⟩)
    · exact absurd (hunset id hid) hne
    · cases hid.symm.trans hset
      exact ⟨_, Profile.withIdentifier_eq_ok_iff.mpr ⟨_, hnumbers, rfl⟩, rfl⟩
  · rintro ⟨device, hdevice, rfl⟩
    obtain ⟨numbers, hnumbers, rfl⟩ := Profile.withIdentifier_eq_ok_iff.mp hdevice
    exact .set hid hne hnumbers

/-- Applies the device identifier in the environment. -/
def identify (env : Environment) (checked : Settings) : Except LoadTrouble Settings :=
  match env.get? "UDOSCRIPT_DEV_ID" with
  | none | some "" => return checked
  | some id =>
    match checked.device.withIdentifier id with
    | .ok device => return { checked with device }
    | .error fault => throw (.fault (.identifier fault id))

theorem identify_of_unset (hid : ∀ id, env.get? "UDOSCRIPT_DEV_ID" = some id → id = "") :
    identify env checked = .ok checked := by
  unfold identify
  split
  · rfl
  · rfl
  · next id hne hset => exact absurd (hid id hset) hne

theorem identify_of_set {id : String} (hid : env.get? "UDOSCRIPT_DEV_ID" = some id)
    (hne : id ≠ "") :
    identify env checked =
      match checked.device.withIdentifier id with
      | .ok device => .ok { checked with device }
      | .error fault => .error (.fault (.identifier fault id)) := by
  unfold identify
  split
  · next hnone => cases hnone.symm.trans hid
  · next hempty => exact absurd (Option.some.inj (hid.symm.trans hempty)) hne
  · next id' _ hset =>
      cases hset.symm.trans hid
      rfl

theorem identify_eq_ok_iff : identify env checked = .ok s ↔ Identified env checked s := by
  by_cases hunset : ∀ id, env.get? "UDOSCRIPT_DEV_ID" = some id → id = ""
  · rw [identify_of_unset hunset, identified_iff_of_unset hunset, Except.ok.injEq, eq_comm]
  · simp only [not_forall] at hunset
    obtain ⟨id, hid, hne⟩ := hunset
    rw [identify_of_set hid hne, identified_iff_of_set hid hne]
    cases checked.device.withIdentifier id with
    | ok device => simp [eq_comm]
    | error fault => simp

theorem identify_faultable (env : Environment) (checked : Settings) :
    Faultable (identify env checked) := by
  unfold identify
  split
  · exact .inl ⟨_, rfl⟩
  · exact .inl ⟨_, rfl⟩
  · split
    · exact .inl ⟨_, rfl⟩
    · exact .inr ⟨_, rfl⟩

/-- The last part of loading: the entries are checked, and then the identifier is applied. -/
def check (env : Environment) (path : Option String) (merged : List (Value × Value)) :
    Except LoadTrouble Settings := do
  if !(merged.all fun (k, _) => k.isString) then throw (.fault (.badKey path))
  let checked ← (Validation.settings merged).mapError fun r => .fault (refused path r)
  identify env checked

theorem load_eq (src : Sources) (env : Environment) (path : Option String) :
    load src env path =
      fileEntries src env path >>= fun entries =>
        (applyOverrides env entries).mapError .crash >>= check env (configPath env path) := by
  unfold load fileEntries configPath
  cases ((path <|> env.get? "UDOSCRIPT_CONFIG").filter (!·.isEmpty)) with
  | none => rfl
  | some file => rfl

theorem check_eq_ok_iff {merged : List (Value × Value)} :
    check env path merged = .ok s ↔
      (∀ entry ∈ merged, entry.1.isString = true) ∧
        ∃ checked, Validation.settings merged = .ok checked ∧ Identified env checked s := by
  unfold check
  rw [← List.all_eq_true]
  cases merged.all fun entry => entry.1.isString with
  | false => simp [throw, throwThe, MonadExceptOf.throw, bind, Except.bind]
  | true =>
      cases Validation.settings merged with
      | error refusal =>
          constructor
          · intro h
            cases h
          · rintro ⟨-, checked, h, -⟩
            cases h
      | ok checked =>
          change identify env checked = .ok s ↔ _
          simpa using identify_eq_ok_iff

theorem check_faultable (env : Environment) (path : Option String) (merged : List (Value × Value)) :
    Faultable (check env path merged) := by
  unfold check
  split
  · exact .inr ⟨_, rfl⟩
  · cases Validation.settings merged with
    | error refusal => exact .inr ⟨_, rfl⟩
    | ok checked => exact identify_faultable env checked

/-! ## Loading -/

/-- How settings come about: the overrides are merged into the entries of the file, the result passes
the checks, and the device identifier is applied last. -/
def Loaded (src : Sources) (env : Environment) (path : Option String) (s : Settings) : Prop :=
  ∃ entries merged checked, fileEntries src env path = .ok entries ∧
    applyOverrides env entries = .ok merged ∧ (∀ entry ∈ merged, entry.1.isString = true) ∧
    Validation.settings merged = .ok checked ∧ Identified env checked s

/-- The environment gives a setting of the device, but the file has something else in its place. -/
def Unmergeable (src : Sources) (env : Environment) (path : Option String) : Prop :=
  ∃ entries, fileEntries src env path = .ok entries ∧ (∃ o ∈ overrides, o.IsInside env) ∧
    ¬ Mergeable (sectionValue entries)

theorem load_of_merged {merged : List (Value × Value)}
    (hfile : fileEntries src env path = .ok entries)
    (hmerged : applyOverrides env entries = .ok merged) :
    load src env path = check env (configPath env path) merged := by
  rw [load_eq, hfile]
  show (applyOverrides env entries).mapError _ >>= _ = _
  rw [hmerged]
  rfl

theorem load_of_crash {crash : LoadCrash} (hfile : fileEntries src env path = .ok entries)
    (hcrash : applyOverrides env entries = .error crash) :
    load src env path = .error (.crash crash) := by
  rw [load_eq, hfile]
  show (applyOverrides env entries).mapError _ >>= _ = _
  rw [hcrash]
  rfl

theorem load_of_trouble {trouble : LoadTrouble}
    (hfile : fileEntries src env path = .error trouble) :
    load src env path = .error trouble := by
  rw [load_eq, hfile]
  rfl

/-- Settings are loaded exactly in the steps of `Loaded`. -/
theorem load_eq_ok_iff : load src env path = .ok s ↔ Loaded src env path s := by
  constructor
  · intro h
    cases hfile : fileEntries src env path with
    | error trouble => cases (load_of_trouble hfile).symm.trans h
    | ok entries =>
        cases hmerged : applyOverrides env entries with
        | error crash => cases (load_of_crash hfile hmerged).symm.trans h
        | ok merged =>
            obtain ⟨hkeys, checked, hchecked, hid⟩ :=
              check_eq_ok_iff.mp ((load_of_merged hfile hmerged).symm.trans h)
            exact ⟨entries, merged, checked, hfile, hmerged, hkeys, hchecked, hid⟩
  · rintro ⟨entries, merged, checked, hfile, hmerged, hkeys, hchecked, hid⟩
    rw [load_of_merged hfile hmerged]
    exact check_eq_ok_iff.mpr ⟨hkeys, checked, hchecked, hid⟩

/-- Where reading the file ends with entries or a fault, only the overrides can crash. -/
theorem load_faultable (hfile : Faultable (fileEntries src env path))
    (h : ¬ Unmergeable src env path) : Faultable (load src env path) := by
  rcases hfile with ⟨entries, hfile⟩ | ⟨fault, hfile⟩
  · cases hmerged : applyOverrides env entries with
    | error crash =>
        obtain ⟨hinside, hmerge⟩ := (foldlM_crash_iff apart_overrides).mp ⟨crash, hmerged⟩
        exact absurd ⟨entries, hfile, hinside, hmerge⟩ h
    | ok merged =>
        rw [load_of_merged hfile hmerged]
        exact check_faultable env _ merged
  · exact .inr ⟨fault, load_of_trouble hfile⟩

theorem load_crash_of_unmergeable (h : Unmergeable src env path) :
    ∃ crash, load src env path = .error (.crash crash) := by
  obtain ⟨entries, hfile, hinside, hmerge⟩ := h
  obtain ⟨crash, hcrash⟩ := (foldlM_crash_iff apart_overrides).mpr ⟨hinside, hmerge⟩
  exact ⟨crash, load_of_crash hfile hcrash⟩

theorem Identified.bounds (h : Identified env checked s)
    (hchecked : Validation.SettingsBounds checked) : Validation.SettingsBounds s := by
  cases h with
  | unset => exact hchecked
  | set hid hne hnumbers =>
      obtain ⟨_, _, _, _, _, hbounds⟩ := hnumbers
      have hdevice := hchecked.device
      exact { hchecked with
        device := { hdevice with
          vendor := Profile.getD_le hbounds hdevice.vendor 0
          product := Profile.getD_le hbounds hdevice.product 1
          version := Profile.getD_le hbounds hdevice.version 2 } }

/-- **Loading fails as a fault of the settings.**  Where the file can be read and holds a document,
and the settings of the device in the environment have a section to be put into, loading gives settings
within their bounds, with the device identifier applied last, or reports a fault of the settings.  In
all other cases it gives neither.  Settings that pass are loaded. -/
theorem loading_fails_as_fault (src : Sources) (env : Environment) (path : Option String)
    (h : ∀ file, configPath env path = some file → Readable src (normalise file)) :
    (¬ Unmergeable src env path →
      (∃ s, load src env path = .ok s ∧ Validation.SettingsBounds s ∧
        Loaded src env path s) ∨
      ∃ fault, load src env path = .error (.fault fault) ∧ fault.report.kind = .config) ∧
    (Unmergeable src env path → ∃ crash, load src env path = .error (.crash crash)) ∧
    ∀ s, Loaded src env path s → load src env path = .ok s := by
  refine ⟨fun hmerge => ?_, load_crash_of_unmergeable, fun s hs => load_eq_ok_iff.mpr hs⟩
  rcases load_faultable (fileEntries_faultable h) hmerge with ⟨s, hs⟩ | ⟨fault, hfault⟩
  · obtain ⟨_, _, checked, -, -, -, hchecked, hid⟩ := load_eq_ok_iff.mp hs
    have hbounds := hid.bounds (Validation.bounds_of_settings hchecked)
    exact .inl ⟨s, hs, hbounds, load_eq_ok_iff.mp hs⟩
  · exact .inr ⟨fault, hfault, rfl⟩

/-- Every file has the same plain content. -/
def everyFile (content : String) : Sources where
  readFile _ := .ok (content.toList.map fun c => c.toNat.toUInt8)
  readYaml := Yaml.parse

theorem readable_everyFile {content : String}
    (hcs : Text.decodeUtf8 (content.toList.map fun c => c.toNat.toUInt8) = .ok content.toList)
    (hending : ending file = ".json")
    (hparse : (Json.parse (String.ofList (uniformLines content.toList))).isOk = true) :
    Readable (everyFile content) file := by
  refine ⟨_, content.toList, rfl, hcs, ?_, fun _ => ?_⟩
  · rw [hending]
    rintro (h | h) <;> simp at h
  · cases hvalue : Json.parse (String.ofList (uniformLines content.toList)) with
    | ok v => exact ⟨v, rfl⟩
    | error fault =>
        rw [hvalue] at hparse
        cases hparse

/-- The environment names the path and the vendor of a device; the file keeps its say on the
product. -/
theorem loading_fails_as_fault_identified :
    ∃ (src : Sources) (env : Environment) (path : Option String),
      (∀ file, configPath env path = some file → Readable src (normalise file)) ∧
      ¬ Unmergeable src env path ∧
      ∃ s, load src env path = .ok s ∧ Validation.SettingsBounds s ∧
        s.device.path = "/dev/y" ∧ s.device.vendor = 0xBEEF ∧ s.device.product = 9 := by
  let content := "\x7b\"device\": \x7b\"vendor\": 7, \"product\": 9\x7d\x7d"
  let env : Environment := [("UDOSCRIPT_DEVICE", "/dev/y"), ("UDOSCRIPT_DEV_ID", "0xBEEF")]
  have hload : load (everyFile content) env (some "e.json") =
      .ok { device := { path := "/dev/y", vendor := 0xBEEF, product := 9 } } := by
    decide +kernel
  have hfile : configPath env (some "e.json") = some "e.json" := rfl
  have hreadable : ∀ file, configPath env (some "e.json") = some file →
      Readable (everyFile content) (normalise file) := by
    intro file hpath
    cases hfile.symm.trans hpath
    exact readable_everyFile (by decide +kernel) (by decide +kernel) (by decide +kernel)
  obtain ⟨hends, hcrash, -⟩ := loading_fails_as_fault (everyFile content) env (some "e.json") hreadable
  have hmerge : ¬ Unmergeable (everyFile content) env (some "e.json") := by
    intro h
    obtain ⟨crash, h⟩ := hcrash h
    cases hload.symm.trans h
  refine ⟨_, env, _, hreadable, hmerge, ?_⟩
  rcases hends hmerge with ⟨s, hs, hbounds, -⟩ | ⟨fault, hfault, -⟩
  · cases hload.symm.trans hs
    exact ⟨_, hload, hbounds, rfl, rfl, rfl⟩
  · cases hload.symm.trans hfault

/-- A number in place of the section is a fault of the settings, but not once the environment gives the
path of the device. -/
theorem section_of_number_crashes :
    ∃ src : Sources, Readable src "e.json" ∧
      load src [] (some "e.json") =
        .error (.fault (.invalid [⟨["device"], .modelType⟩] (some "e.json"))) ∧
      load src [("UDOSCRIPT_DEVICE", "/dev/y")] (some "e.json") = .error (.crash .wrongType) := by
  refine ⟨everyFile "\x7b\"device\": 5\x7d", ?_, by decide +kernel, by decide +kernel⟩
  exact readable_everyFile (by decide +kernel) (by decide +kernel) (by decide +kernel)

end InputScript.Loader
