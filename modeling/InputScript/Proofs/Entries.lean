import InputScript.Settings.Value

/-!
# Entries of a mapping

A mapping is a list of entries, and setting a textual key either replaces the value where the key
stands or adds an entry at the end.  What is said here about it needs no key to be unique: a key is
set wherever it stands.

The entries under other keys are what is left when a set of keys is filtered out, and setting a key
outside of that set does not touch them (`filter_setEntry`).  Looking up another key is a case of this.

## Main results

* `filter_setEntry` — other keys keep their entries, in their order.
* `Holds.setEntry_eq` — setting a key to what it holds changes nothing.
* `setEntry_comm` — two keys may be set in any order, but for the order of the entries.
-/

namespace InputScript.Value

variable {α : Type} {entries others : List (Value × α)} {entry : Value × α} {name other : String}
  {value : α}

/-! ## Keys -/

theorem sameKey_text {key : Value} : key.sameKey (.text name) = true ↔ key = .text name := by
  cases key <;> simp [sameKey, number?]

/-- Whether an entry stands under a textual key. -/
def isUnder (name : String) (entry : Value × α) : Bool := entry.1.sameKey (.text name)

theorem isUnder_iff : isUnder name entry = true ↔ entry.1 = .text name :=
  sameKey_text

theorem isUnder_of_ne (h : isUnder name entry = true) (hne : name ≠ other) :
    isUnder other entry = false := by
  rw [Bool.eq_false_iff]
  intro hother
  rw [isUnder_iff] at h hother
  exact hne (Value.text.inj (h.symm.trans hother))

/-- An entry with another value, if it stands under a key. -/
def withValue (name : String) (value : α) (entry : Value × α) : Value × α :=
  if isUnder name entry then (entry.1, value) else entry

theorem fst_withValue (entry : Value × α) : (withValue name value entry).1 = entry.1 := by
  unfold withValue
  split <;> rfl

@[simp] theorem isUnder_withValue (entry : Value × α) :
    isUnder other (withValue name value entry) = isUnder other entry := by
  unfold isUnder
  rw [fst_withValue]

theorem withValue_of_under (h : isUnder name entry = true) :
    withValue name value entry = (entry.1, value) := if_pos h

theorem withValue_of_not_under (h : ¬ isUnder name entry = true) :
    withValue name value entry = entry := if_neg h

/-! ## Setting a key -/

theorem setEntry_of_any (h : entries.any (isUnder name) = true) :
    setEntry entries (.text name) value = entries.map (withValue name value) := if_pos h

theorem setEntry_of_not_any (h : ¬ entries.any (isUnder name) = true) :
    setEntry entries (.text name) value = entries ++ [(.text name, value)] := if_neg h

theorem any_setEntry_self : (setEntry entries (.text name) value).any (isUnder name) = true := by
  by_cases h : entries.any (isUnder name) = true
  · rw [setEntry_of_any h, List.any_map]
    simpa [Function.comp_def] using h
  · rw [setEntry_of_not_any h, List.any_append]
    simp [isUnder, sameKey]

/-- Entries under keys that are not set stay as they are, and in their order. -/
theorem filter_setEntry (keep : Value → Bool) (h : keep (.text name) = false) :
    (setEntry entries (.text name) value).filter (fun entry => keep entry.1) =
      entries.filter (fun entry => keep entry.1) := by
  by_cases hany : entries.any (isUnder name) = true
  · have hsame : (fun entry : Value × α => keep entry.1) ∘ withValue name value =
        fun entry => keep entry.1 := by
      funext entry
      simp only [Function.comp_apply, fst_withValue]
    rw [setEntry_of_any hany, List.filter_map, hsame]
    refine (List.map_congr_left fun entry hentry => ?_).trans (List.map_id _)
    refine withValue_of_not_under fun hunder => ?_
    have hkeep := (List.mem_filter.mp hentry).2
    rw [isUnder_iff.mp hunder, h] at hkeep
    cases hkeep
  · rw [setEntry_of_not_any hany, List.filter_append]
    simp [h]

theorem filter_setEntry_of_ne (h : name ≠ other) :
    (setEntry entries (.text name) value).filter (isUnder other) =
      entries.filter (isUnder other) := by
  refine filter_setEntry (fun key => key.sameKey (.text other)) ?_
  rw [Bool.eq_false_iff]
  intro hsame
  exact h (Value.text.inj (sameKey_text.mp hsame))

theorem field?_eq (entries : List (Value × α)) (name : String) :
    field? entries name = ((entries.filter (isUnder name)).head?).map (·.2) := by
  rw [List.head?_filter]
  rfl

theorem field?_setEntry_of_ne (h : name ≠ other) :
    field? (setEntry entries (.text name) value) other = field? entries other := by
  rw [field?_eq, filter_setEntry_of_ne h, field?_eq]

/-- The last value that a key is set to is the one that counts. -/
theorem setEntry_setEntry (first : α) :
    setEntry (setEntry entries (.text name) first) (.text name) value =
      setEntry entries (.text name) value := by
  have htwice : withValue name value ∘ withValue name first = withValue name value := by
    funext entry
    by_cases hunder : isUnder name entry = true
    · rw [Function.comp_apply, withValue_of_under hunder, withValue_of_under hunder,
        withValue_of_under (show isUnder name (entry.1, first) = true from hunder)]
    · rw [Function.comp_apply, withValue_of_not_under hunder]
  rw [setEntry_of_any any_setEntry_self]
  by_cases hany : entries.any (isUnder name) = true
  · rw [setEntry_of_any hany, setEntry_of_any hany, List.map_map, htwice]
  · have hfirst : ∀ entry ∈ entries, withValue name value entry = entry := by
      intro entry hentry
      refine withValue_of_not_under fun hunder => hany ?_
      exact List.any_eq_true.mpr ⟨entry, hentry, hunder⟩
    rw [setEntry_of_not_any hany, setEntry_of_not_any hany, List.map_append, List.map_singleton,
      withValue_of_under (isUnder_iff.mpr rfl), List.map_congr_left hfirst, List.map_id']

/-! ## What a key holds -/

/-- A key is there, and it has the same value wherever it stands. -/
structure Holds (entries : List (Value × α)) (name : String) (value : α) : Prop where
  present : entries.any (isUnder name) = true
  value : ∀ entry ∈ entries, isUnder name entry = true → entry.2 = value

theorem holds_setEntry (entries : List (Value × α)) (name : String) (value : α) :
    Holds (setEntry entries (.text name) value) name value := by
  refine ⟨any_setEntry_self, fun entry hentry hunder => ?_⟩
  by_cases hany : entries.any (isUnder name) = true
  · rw [setEntry_of_any hany] at hentry
    obtain ⟨old, -, rfl⟩ := List.mem_map.mp hentry
    rw [isUnder_withValue] at hunder
    rw [withValue_of_under hunder]
  · rw [setEntry_of_not_any hany] at hentry
    rcases List.mem_append.mp hentry with hold | hnew
    · exact absurd (List.any_eq_true.mpr ⟨entry, hold, hunder⟩) hany
    · rw [List.mem_singleton.mp hnew]

namespace Holds

/-- What a key holds depends on the entries under it only. -/
theorem of_filter_eq (h : Holds entries name value)
    (heq : others.filter (isUnder name) = entries.filter (isUnder name)) :
    Holds others name value := by
  constructor
  · obtain ⟨entry, hentry, hunder⟩ := List.any_eq_true.mp h.present
    have hmem : entry ∈ others.filter (isUnder name) := by
      rw [heq]
      exact List.mem_filter.mpr ⟨hentry, hunder⟩
    exact List.any_eq_true.mpr ⟨entry, (List.mem_filter.mp hmem).1, hunder⟩
  · intro entry hentry hunder
    have hmem : entry ∈ entries.filter (isUnder name) := by
      rw [← heq]
      exact List.mem_filter.mpr ⟨hentry, hunder⟩
    exact h.value entry (List.mem_filter.mp hmem).1 hunder

theorem setEntry_of_ne (h : Holds entries name value) (hne : other ≠ name) (v : α) :
    Holds (setEntry entries (.text other) v) name value :=
  h.of_filter_eq (filter_setEntry_of_ne hne)

theorem field?_eq (h : Holds entries name value) : field? entries name = some value := by
  obtain ⟨entry, hentry, hunder⟩ := List.any_eq_true.mp h.present
  rw [Value.field?_eq]
  cases hfilter : entries.filter (isUnder name) with
  | nil =>
      have hmem := List.mem_filter.mpr ⟨hentry, hunder⟩
      rw [hfilter] at hmem
      cases hmem
  | cons first rest =>
      have hfirst := List.mem_filter.mp (hfilter ▸ List.mem_cons_self : first ∈ entries.filter _)
      rw [List.head?_cons, Option.map_some, h.value first hfirst.1 hfirst.2]

/-- Setting a key to what it holds changes nothing. -/
theorem setEntry_eq (h : Holds entries name value) :
    setEntry entries (.text name) value = entries := by
  rw [setEntry_of_any h.present]
  refine (List.map_congr_left fun entry hentry => ?_).trans (List.map_id _)
  by_cases hunder : isUnder name entry = true
  · rw [withValue_of_under hunder, ← h.value entry hentry hunder, id]
  · exact withValue_of_not_under hunder

end Holds

theorem field?_setEntry_self (entries : List (Value × α)) (name : String) (value : α) :
    field? (setEntry entries (.text name) value) name = some value :=
  (holds_setEntry entries name value).field?_eq

/-! ## Entries with other values -/

theorem setEntry_map {β : Type} (f : α → β) (entries : List (Value × α)) (name : String)
    (value : α) :
    setEntry (entries.map (Prod.map id f)) (.text name) (f value) =
      (setEntry entries (.text name) value).map (Prod.map id f) := by
  have hany : (entries.map (Prod.map id f)).any (isUnder name) = entries.any (isUnder name) :=
    List.any_map
  by_cases h : entries.any (isUnder name) = true
  · rw [setEntry_of_any (hany.trans h), setEntry_of_any h, List.map_map, List.map_map]
    refine List.map_congr_left fun entry _ => ?_
    by_cases hunder : isUnder name entry = true
    · rw [Function.comp_apply, Function.comp_apply, withValue_of_under hunder,
        withValue_of_under (show isUnder name (Prod.map id f entry) = true from hunder)]
      rfl
    · rw [Function.comp_apply, Function.comp_apply, withValue_of_not_under hunder,
        withValue_of_not_under (show ¬ isUnder name (Prod.map id f entry) = true from hunder)]
  · rw [setEntry_of_not_any (by rwa [hany]), setEntry_of_not_any h, List.map_append]
    rfl

theorem field?_map {β : Type} (f : α → β) (entries : List (Value × α)) (name : String) :
    field? (entries.map (Prod.map id f)) name = (field? entries name).map f := by
  unfold field?
  rw [List.find?_map, Option.map_map, Option.map_map]
  rfl

/-! ## The order of the entries -/

theorem setEntry_perm (h : entries.Perm others) (name : String) (value : α) :
    (setEntry entries (.text name) value).Perm (setEntry others (.text name) value) := by
  have hany : others.any (isUnder name) = entries.any (isUnder name) := h.symm.any_eq
  by_cases hentries : entries.any (isUnder name) = true
  · rw [setEntry_of_any hentries, setEntry_of_any (hany.trans hentries)]
    exact h.map _
  · rw [setEntry_of_not_any hentries, setEntry_of_not_any (by rwa [hany])]
    exact h.append_right _

theorem any_setEntry_of_ne (entries : List (Value × α)) (h : name ≠ other) (value : α) :
    (setEntry entries (.text name) value).any (isUnder other) = entries.any (isUnder other) := by
  rw [Bool.eq_iff_iff, List.any_eq_true, List.any_eq_true]
  simp only [← List.mem_filter, filter_setEntry_of_ne h]

theorem withValue_comm (h : name ≠ other) (v w : α) (entry : Value × α) :
    withValue other w (withValue name v entry) = withValue name v (withValue other w entry) := by
  by_cases hname : isUnder name entry = true
  · have hother : ¬ isUnder other entry = true := Bool.eq_false_iff.mp (isUnder_of_ne hname h)
    rw [withValue_of_not_under hother, withValue_of_not_under (by rwa [isUnder_withValue])]
  · have hlast : ¬ isUnder name (withValue other w entry) = true := by rwa [isUnder_withValue]
    rw [withValue_of_not_under hname, withValue_of_not_under hlast]

theorem withValue_new (h : name ≠ other) (v w : α) :
    withValue name v (.text other, w) = (.text other, w) := by
  refine withValue_of_not_under fun hunder => h ?_
  exact (Value.text.inj (isUnder_iff.mp hunder)).symm

/-- A key that is there can be set before or after another one. -/
theorem setEntry_comm_of_any (h : name ≠ other) (v w : α)
    (hany : entries.any (isUnder name) = true) :
    setEntry (setEntry entries (.text name) v) (.text other) w =
      setEntry (setEntry entries (.text other) w) (.text name) v := by
  have hother := any_setEntry_of_ne entries h v
  rw [setEntry_of_any ((any_setEntry_of_ne entries h.symm w).trans hany)]
  by_cases ho : entries.any (isUnder other) = true
  · rw [setEntry_of_any (hother.trans ho), setEntry_of_any hany, setEntry_of_any ho, List.map_map,
      List.map_map]
    exact List.map_congr_left fun entry _ => withValue_comm h v w entry
  · rw [setEntry_of_not_any (by rwa [hother]), setEntry_of_any hany, setEntry_of_not_any ho,
      List.map_append, List.map_singleton, withValue_new h v w]

/-- Two keys can be set in either order; if both are new, the entries are in that order. -/
theorem setEntry_comm (entries : List (Value × α)) (h : name ≠ other) (v w : α) :
    (setEntry (setEntry entries (.text name) v) (.text other) w).Perm
      (setEntry (setEntry entries (.text other) w) (.text name) v) := by
  by_cases hn : entries.any (isUnder name) = true
  · exact .of_eq (setEntry_comm_of_any h v w hn)
  · by_cases ho : entries.any (isUnder other) = true
    · exact .of_eq (setEntry_comm_of_any h.symm w v ho).symm
    · have hn' : ¬ (setEntry entries (.text other) w).any (isUnder name) = true := by
        rwa [any_setEntry_of_ne entries h.symm w]
      have ho' : ¬ (setEntry entries (.text name) v).any (isUnder other) = true := by
        rwa [any_setEntry_of_ne entries h v]
      rw [setEntry_of_not_any ho', setEntry_of_not_any hn', setEntry_of_not_any hn,
        setEntry_of_not_any ho, List.append_assoc, List.append_assoc]
      exact .append_left _ (.swap _ _ _)

/-! ## Setting several keys -/

/-- Sets several keys one after the other. -/
def assign (entries : List (Value × α)) (settings : List (String × α)) : List (Value × α) :=
  settings.foldl (fun entries s => setEntry entries (.text s.1) s.2) entries

theorem assign_cons (entries : List (Value × α)) (s : String × α) (settings : List (String × α)) :
    assign entries (s :: settings) = assign (setEntry entries (.text s.1) s.2) settings := rfl

theorem assign_perm_left (h : entries.Perm others) (settings : List (String × α)) :
    (assign entries settings).Perm (assign others settings) := by
  induction settings generalizing entries others with
  | nil => exact h
  | cons s settings ih => exact ih (setEntry_perm h s.1 s.2)

/-- A key that is not among them may be set before or after. -/
theorem assign_setEntry {settings : List (String × α)} (h : name ∉ settings.map (·.1)) (value : α)
    (entries : List (Value × α)) :
    (assign (setEntry entries (.text name) value) settings).Perm
      (setEntry (assign entries settings) (.text name) value) := by
  induction settings generalizing entries with
  | nil => exact .refl _
  | cons s settings ih =>
      rw [List.map_cons, List.mem_cons, not_or] at h
      rw [assign_cons, assign_cons]
      exact (assign_perm_left (setEntry_comm entries h.1 value s.2) settings).trans (ih h.2 _)

/-- Different keys may be set in any order. -/
theorem assign_perm {settings settings' : List (String × α)} (h : settings.Perm settings')
    (hnodup : (settings.map (·.1)).Nodup) (entries : List (Value × α)) :
    (assign entries settings).Perm (assign entries settings') := by
  induction h generalizing entries with
  | nil => exact .refl _
  | cons s _ ih => exact ih (List.nodup_cons.mp hnodup).2 _
  | swap s t settings =>
      have hne : t.1 ≠ s.1 := by
        intro heq
        exact (List.nodup_cons.mp hnodup).1 (List.mem_map.mpr ⟨s, List.mem_cons_self, heq.symm⟩)
      exact assign_perm_left (setEntry_comm entries hne t.2 s.2) settings
  | trans first _ ih₁ ih₂ =>
      exact (ih₁ hnodup entries).trans (ih₂ ((first.map _).nodup_iff.mp hnodup) entries)

end InputScript.Value
