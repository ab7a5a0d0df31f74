/-!
# Environments

The variables that expansions and child processes see, by name, in order of insertion.
-/

namespace InputScript

/-- Variables with their values; no name occurs twice. -/
abbrev Environment := List (String × String)

namespace Environment

/-- The value of a variable. -/
def get? (env : Environment) (name : String) : Option String := env.lookup name

/-- Removes a variable. -/
def erase (env : Environment) (name : String) : Environment :=
  env.filter fun (n, _) => n != name

/-- Sets a variable, in place if it exists. -/
def set (env : Environment) (name value : String) : Environment :=
  if (env.lookup name).isSome then
    env.map fun (n, v) => if n == name then (n, value) else (n, v)
  else env ++ [(name, value)]

/-! ## Laws -/

variable (env : Environment) (name value : String)

theorem get?_cons (entry : String × String) :
    get? (entry :: env) name = if name = entry.1 then some entry.2 else env.get? name := by
  unfold get?
  rw [List.lookup_cons]
  by_cases h : name = entry.1
  · rw [if_pos h, beq_iff_eq.mpr h]
  · rw [if_neg h, beq_eq_false_iff_ne.mpr h]

/-- A variable that is removed has no value; the others keep theirs. -/
theorem get?_erase (other : String) :
    (env.erase name).get? other = if other = name then none else env.get? other := by
  induction env with
  | nil => simp [erase, get?]
  | cons entry env ih =>
      unfold erase at ih ⊢
      by_cases hentry : entry.1 = name
      · rw [List.filter_cons_of_neg (by simp [hentry]), ih, get?_cons, hentry]
        split <;> rfl
      · rw [List.filter_cons_of_pos (by simp [hentry]), get?_cons, get?_cons, ih]
        by_cases hother : other = entry.1
        · rw [if_pos hother, if_pos hother, if_neg (by rw [hother]; exact hentry)]
        · rw [if_neg hother, if_neg hother]

theorem get?_replace (other : String) :
    get? (env.map fun (n, v) => if n == name then (n, value) else (n, v)) other =
      (env.get? other).map fun v => if other = name then value else v := by
  induction env with
  | nil => simp [get?]
  | cons entry env ih =>
      rw [List.map_cons, get?_cons, ih, get?_cons]
      by_cases hother : other = entry.1
      · by_cases hentry : entry.1 = name
        · simp [hentry, hother]
        · simp [hentry, hother]
      · have hkept : (if entry.1 == name then (entry.1, value) else entry).1 = entry.1 := by
          split <;> rfl
        rw [hkept, if_neg hother, if_neg hother]

/-- A variable that is set has the new value; the others keep theirs. -/
theorem get?_set (other : String) :
    (env.set name value).get? other = if other = name then some value else env.get? other := by
  unfold set
  split
  · next hsome =>
      obtain ⟨old, hold⟩ := Option.isSome_iff_exists.mp hsome
      rw [get?_replace]
      by_cases hother : other = name
      · have hvalue : env.get? name = some old := hold
        rw [if_pos hother, hother, hvalue]
        simp
      · simp [hother]
  · next hnone =>
      have hvalue : env.get? name = none := Option.not_isSome_iff_eq_none.mp hnone
      have happend : get? (env ++ [(name, value)]) other =
          (env.get? other).or (if other = name then some value else none) := by
        have hsingle := get?_cons [] other (name, value)
        unfold get? at hsingle ⊢
        rw [List.lookup_append, hsingle]
        rfl
      rw [happend]
      by_cases hother : other = name
      · rw [if_pos hother, if_pos hother, hother, hvalue]
        rfl
      · rw [if_neg hother, if_neg hother, Option.or_none]

end Environment

end InputScript
