import Mathlib.Order.Bounds.Defs
import InputScript.Proofs.Rounding
import InputScript.Settings.Validation

/-!
# Settings that pass the checks

The settings of the engine are checked field by field, and the findings of all fields are put
together.  If there are none, every field was left out or passed its own check
(`Validation.passed_of_settings`).  So a bound that the check of a field enforces, and that its default
respects, holds of all settings that are ever used.

## Main results

* `Validation.passed_of_settings` — each field passed its own check.
* `Validation.bounds_of_settings` — all fields are within their bounds.
* `Validation.isDuration_keyDelay` — the pause between taps is a time as scripts have it.
* `Validation.isLeast_maxExpressionDepth` — conditions always have room for four operators.
-/

namespace InputScript.Validation

variable {α β : Type}

theorem apply_eq_ok {f : Checked (α → β)} {a : Checked α} {b : β} (h : apply f a = .ok b) :
    ∃ g x, f = .ok g ∧ a = .ok x ∧ b = g x := by
  unfold apply at h
  split at h
  · next g x =>
      cases h
      exact ⟨g, x, rfl, rfl, rfl⟩
  · cases h
  · cases h
  · cases h

variable {entries : List (Value × Value)}

/-- A field is its default or was checked. -/
theorem field_eq_ok {name : String} {default x : α} {check : Value → Checked α}
    (h : field entries name default check = .ok x) :
    x = default ∨ ∃ v, check v = .ok x := by
  unfold field at h
  split at h
  · next v _ =>
      cases hcheck : check v with
      | error e =>
          rw [hcheck] at h
          cases h
      | ok y =>
          rw [hcheck] at h
          cases h
          exact .inr ⟨v, hcheck⟩
  · cases h
    exact .inl rfl

/-- What the default has, and everything that passes the check, the field has. -/
theorem of_field {P : α → Prop} {name : String} {default x : α} {check : Value → Checked α}
    (h : field entries name default check = .ok x) (hdefault : P default)
    (hcheck : ∀ v, check v = .ok x → P x) : P x := by
  rcases field_eq_ok h with rfl | ⟨v, hv⟩
  · exact hdefault
  · exact hcheck v hv

/-! ## Fields -/

variable {v : Value}

/-- A text has a length within its bounds. -/
theorem bounds_of_boundedText {least : Nat} {most : Option Nat} {s : String}
    (h : boundedText least most v = .ok s) : least ≤ s.length ∧ ∀ m ∈ most, s.length ≤ m := by
  unfold boundedText at h
  split at h
  · next t =>
      split at h
      · cases h
      · next hleast =>
          split at h
          · cases h
          · next hmost =>
              cases h
              refine ⟨Nat.le_of_not_lt hleast, fun m hm => Nat.le_of_not_lt fun hlt => hmost ?_⟩
              rw [Option.mem_def.mp hm]
              exact decide_eq_true hlt
  · cases h
  · cases h

/-- A time lies within its bounds; the lower one is excluded if the check is strict. -/
theorem bounds_of_duration {isStrict : Bool} {x : Binary64} (h : duration isStrict v = .ok x) :
    x ≤ Argument.maxDuration ∧ (isStrict = true → Argument.minDuration < x) ∧
      (isStrict = false → Argument.minDuration ≤ x) := by
  unfold duration at h
  cases hfloat : float v with
  | error e =>
      rw [hfloat] at h
      cases h
  | ok y =>
      rw [hfloat] at h
      simp only [bind, Except.bind] at h
      split at h
      · cases h
      · next hmax =>
          split at h
          · cases h
          · next hstrict =>
              split at h
              · cases h
              · next hlax =>
                  cases h
                  simp only [Bool.not_eq_true', Bool.not_eq_false] at hmax
                  refine ⟨hmax, ?_, ?_⟩
                  · rintro rfl
                    simp only [Bool.true_and, Bool.not_eq_true', Bool.not_eq_false] at hstrict
                    exact hstrict
                  · rintro rfl
                    simp only [Bool.not_false, Bool.true_and, Bool.not_eq_true',
                      Bool.not_eq_false] at hlax
                    exact hlax

theorem isDuration_of_duration {x : Binary64} (h : duration true v = .ok x) :
    Argument.IsDuration x :=
  have ⟨hmax, hmin, _⟩ := bounds_of_duration h
  ⟨hmin rfl, hmax⟩

/-- A bounded integer lies within its bounds. -/
theorem bounds_of_boundedInteger {least most n : Nat} (h : boundedInteger least most v = .ok n) :
    least ≤ n ∧ n ≤ most := by
  unfold boundedInteger at h
  cases hinteger : integer v with
  | error e =>
      rw [hinteger] at h
      cases h
  | ok z =>
      rw [hinteger] at h
      simp only [bind, Except.bind] at h
      split at h
      · cases h
      · next hmost =>
          split at h
          · cases h
          · next hleast =>
              cases h
              constructor <;> omega

/-- All consumers are known. -/
theorem known_of_traits {names : List String} (h : traits v = .ok names) :
    ∀ name ∈ names, name = libinputTrait := by
  unfold traits at h
  cases htexts : texts v with
  | error e =>
      rw [htexts] at h
      cases h
  | ok all =>
      rw [htexts] at h
      simp only [bind, Except.bind] at h
      split at h
      · cases h
      · split at h
        · next hknown =>
            cases h
            intro name hname
            have hcontains := List.all_eq_true.mp hknown name hname
            exact List.mem_singleton.mp (List.contains_iff_mem.mp hcontains)
        · cases h

theorem known_of_logFormat {name : String} (h : logFormat v = .ok name) :
    name = "console" ∨ name = "json" := by
  unfold logFormat at h
  cases htext : text v with
  | error e =>
      rw [htext] at h
      cases h
  | ok s =>
      rw [htext] at h
      simp only [bind, Except.bind] at h
      split at h
      · cases h
      · split at h
        · next hknown =>
            cases h
            simpa using hknown
        · cases h

/-! ## Profiles -/

/-- Every field of a profile was left out or passed its own check. -/
structure PassedProfile (entries : List (Value × Value)) (p : Profile) : Prop where
  path : field entries "path" ({} : Profile).path (boundedText 1 none) = .ok p.path
  name : field entries "name" ({} : Profile).name (boundedText 1 (some 79)) = .ok p.name
  bus : field entries "bus" ({} : Profile).bus (boundedInteger 0 maxIdentifier) = .ok p.bus
  vendor : field entries "vendor" ({} : Profile).vendor (boundedInteger 0 maxIdentifier) =
    .ok p.vendor
  product : field entries "product" ({} : Profile).product (boundedInteger 0 maxIdentifier) =
    .ok p.product
  version : field entries "version" ({} : Profile).version (boundedInteger 0 maxIdentifier) =
    .ok p.version
  settleTime : field entries "settle_time" ({} : Profile).settleTime (duration false) =
    .ok p.settleTime
  traits : field entries "quirks" ({} : Profile).traits traits = .ok p.traits

theorem passed_of_profile {p : Profile} (h : profile entries = .ok p) :
    PassedProfile entries p := by
  unfold profile at h
  obtain ⟨f₁, _, h₁, htraits, rfl⟩ := apply_eq_ok h
  obtain ⟨f₂, _, h₂, hsettleTime, rfl⟩ := apply_eq_ok h₁
  obtain ⟨f₃, _, h₃, hversion, rfl⟩ := apply_eq_ok h₂
  obtain ⟨f₄, _, h₄, hproduct, rfl⟩ := apply_eq_ok h₃
  obtain ⟨f₅, _, h₅, hvendor, rfl⟩ := apply_eq_ok h₄
  obtain ⟨f₆, _, h₆, hbus, rfl⟩ := apply_eq_ok h₅
  obtain ⟨f₇, _, h₇, hname, rfl⟩ := apply_eq_ok h₆
  cases hpath : field entries "path" ({} : Profile).path (boundedText 1 none) with
  | error e =>
      rw [hpath] at h₇
      cases h₇
  | ok path =>
      rw [hpath] at h₇
      cases h₇
      exact ⟨hpath, hname, hbus, hvendor, hproduct, hversion, hsettleTime, htraits⟩

/-- The bounds of a profile. -/
structure ProfileBounds (p : Profile) : Prop where
  path : 1 ≤ p.path.length
  name : 1 ≤ p.name.length ∧ p.name.length ≤ 79
  bus : p.bus ≤ 0xFFFF
  vendor : p.vendor ≤ 0xFFFF
  product : p.product ≤ 0xFFFF
  version : p.version ≤ 0xFFFF
  settleTime : Argument.minDuration ≤ p.settleTime ∧ p.settleTime ≤ Argument.maxDuration
  traits : ∀ name ∈ p.traits, name = libinputTrait

theorem profileBounds_default : ProfileBounds {} where
  path := by decide
  name := by decide
  bus := by decide
  vendor := by decide
  product := by decide
  version := by decide
  settleTime := ⟨by decide +kernel, by decide +kernel⟩
  traits := by decide

theorem bounds_of_profile {p : Profile} (h : profile entries = .ok p) : ProfileBounds p := by
  have passed := passed_of_profile h
  have usual := profileBounds_default
  have hnumber : ∀ {name : String} {default n : Nat},
      field entries name default (boundedInteger 0 maxIdentifier) = .ok n → default ≤ 0xFFFF →
      n ≤ 0xFFFF := fun hfield hdefault =>
    of_field (P := (· ≤ 0xFFFF)) hfield hdefault fun _ hv => (bounds_of_boundedInteger hv).2
  constructor
  · exact of_field (P := (1 ≤ ·.length)) passed.path usual.path fun _ hv =>
      (bounds_of_boundedText hv).1
  · refine of_field (P := fun s => 1 ≤ s.length ∧ s.length ≤ 79) passed.name usual.name fun _ hv => ?_
    obtain ⟨hleast, hmost⟩ := bounds_of_boundedText hv
    exact ⟨hleast, hmost 79 rfl⟩
  · exact hnumber passed.bus usual.bus
  · exact hnumber passed.vendor usual.vendor
  · exact hnumber passed.product usual.product
  · exact hnumber passed.version usual.version
  · refine of_field (P := fun x => Argument.minDuration ≤ x ∧ x ≤ Argument.maxDuration)
      passed.settleTime usual.settleTime fun _ hv => ?_
    obtain ⟨hmax, -, hmin⟩ := bounds_of_duration hv
    exact ⟨hmin rfl, hmax⟩
  · exact of_field (P := fun names => ∀ name ∈ names, name = libinputTrait) passed.traits usual.traits
      fun _ hv => known_of_traits hv

/-! ## Settings -/

/-- Every field of the settings was left out or passed its own check. -/
structure Passed (entries : List (Value × Value)) (s : Settings) : Prop where
  device : field entries "device" ({} : Settings).device nestedProfile = .ok s.device
  keyDelay : field entries "key_delay" ({} : Settings).keyDelay (duration true) = .ok s.keyDelay
  dryRun : field entries "dry_run" ({} : Settings).dryRun truth = .ok s.dryRun
  shell : field entries "shell" ({} : Settings).shell text = .ok s.shell
  maxControlDepth : field entries "max_control_depth" ({} : Settings).maxControlDepth
    (boundedInteger 2 256) = .ok s.maxControlDepth
  maxExpressionDepth : field entries "max_expression_depth" ({} : Settings).maxExpressionDepth
    (boundedInteger 4 1024) = .ok s.maxExpressionDepth
  maxScriptDepth : field entries "max_script_depth" ({} : Settings).maxScriptDepth
    (boundedInteger 1 64) = .ok s.maxScriptDepth
  verbosity : field entries "verbosity" ({} : Settings).verbosity (boundedInteger 0 3) =
    .ok s.verbosity
  logFormat : field entries "log_format" ({} : Settings).logFormat logFormat = .ok s.logFormat

theorem passed_of_settings {s : Settings} (h : settings entries = .ok s) : Passed entries s := by
  unfold settings at h
  obtain ⟨f₁, _, h₁, hformat, rfl⟩ := apply_eq_ok h
  obtain ⟨f₂, _, h₂, hverbosity, rfl⟩ := apply_eq_ok h₁
  obtain ⟨f₃, _, h₃, hscript, rfl⟩ := apply_eq_ok h₂
  obtain ⟨f₄, _, h₄, hexpression, rfl⟩ := apply_eq_ok h₃
  obtain ⟨f₅, _, h₅, hcontrol, rfl⟩ := apply_eq_ok h₄
  obtain ⟨f₆, _, h₆, hshell, rfl⟩ := apply_eq_ok h₅
  obtain ⟨f₇, _, h₇, hdryRun, rfl⟩ := apply_eq_ok h₆
  obtain ⟨f₈, _, h₈, hkeyDelay, rfl⟩ := apply_eq_ok h₇
  cases hdevice : field entries "device" ({} : Settings).device nestedProfile with
  | error e =>
      rw [hdevice] at h₈
      cases h₈
  | ok device =>
      rw [hdevice] at h₈
      cases h₈
      exact ⟨hdevice, hkeyDelay, hdryRun, hshell, hcontrol, hexpression, hscript, hverbosity, hformat⟩

/-- The pause between taps is a time as scripts have it. -/
theorem isDuration_keyDelay {checked : Settings} (h : settings entries = .ok checked) :
    Argument.IsDuration checked.keyDelay :=
  of_field (P := Argument.IsDuration) (passed_of_settings h).keyDelay
    ⟨by decide +kernel, by decide +kernel⟩ fun _ hv => isDuration_of_duration hv

/-- The bounds of the settings. -/
structure SettingsBounds (s : Settings) : Prop where
  device : ProfileBounds s.device
  keyDelay : Argument.minDuration < s.keyDelay ∧ s.keyDelay ≤ Argument.maxDuration
  maxControlDepth : 2 ≤ s.maxControlDepth ∧ s.maxControlDepth ≤ 256
  maxExpressionDepth : 4 ≤ s.maxExpressionDepth ∧ s.maxExpressionDepth ≤ 1024
  maxScriptDepth : 1 ≤ s.maxScriptDepth ∧ s.maxScriptDepth ≤ 64
  verbosity : s.verbosity ≤ 3
  logFormat : s.logFormat = "console" ∨ s.logFormat = "json"

theorem bounds_of_nestedProfile {p : Profile} (h : nestedProfile v = .ok p) :
    ProfileBounds p := by
  unfold nestedProfile at h
  split at h
  · exact bounds_of_profile h
  · cases h

theorem bounds_of_settings {s : Settings} (h : settings entries = .ok s) : SettingsBounds s := by
  have passed := passed_of_settings h
  have hnumber : ∀ {name : String} {default n least most : Nat},
      field entries name default (boundedInteger least most) = .ok n →
      least ≤ default ∧ default ≤ most → least ≤ n ∧ n ≤ most := fun hfield hdefault =>
    of_field (P := fun n => _ ≤ n ∧ n ≤ _) hfield hdefault fun _ hv => bounds_of_boundedInteger hv
  constructor
  · exact of_field passed.device profileBounds_default fun _ hv => bounds_of_nestedProfile hv
  · exact isDuration_keyDelay h
  · exact hnumber passed.maxControlDepth (by decide)
  · exact hnumber passed.maxExpressionDepth (by decide)
  · exact hnumber passed.maxScriptDepth (by decide)
  · exact (hnumber passed.verbosity (by decide)).2
  · exact of_field (P := fun name => name = "console" ∨ name = "json") passed.logFormat (.inl rfl)
      fun _ hv => known_of_logFormat hv

/-- Conditions always have room for four operators, and may have no more. -/
theorem isLeast_maxExpressionDepth :
    IsLeast { limit | ∃ entries checked, settings entries = .ok checked ∧
      checked.maxExpressionDepth = limit } 4 := by
  constructor
  · exact ⟨[(.text "max_expression_depth", .int 4)], _, rfl, rfl⟩
  · rintro limit ⟨entries, checked, hchecked, rfl⟩
    exact (bounds_of_settings hchecked).maxExpressionDepth.1

end InputScript.Validation
