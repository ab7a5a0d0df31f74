import InputScript.Proofs.Action
import InputScript.Machine.Step

/-!
# Running a stack of scripts

Laws of the functions that carry the moves of one script out on the whole stack, and of what a step
makes of an answer or a trouble.

A script looks at those that called it for one thing only, the loop that it inherits.  So a turn of
a stack is a turn of its upper part, run inside of the loop that the lower part is in, and then what
is left to do in the lower part: `turn_append` for an answer, `abandon_append` for a failure.
-/

namespace InputScript

/-- The trouble with a position attached. -/
def Trouble.locate (source : String) (line : Option Nat) : Trouble Failure → Trouble Failure
  | .fault f => .fault (f.locate source line)
  | .crash c => .crash c

namespace Machine

open Device (Sink)

variable {σ ω : Type}

/-! ## Positions -/

section Located

variable {α β : Type} {source : String} {line : Option Nat} {act : Act σ ω α}
  {s s' : Session σ ω}

theorem exec_located (source : String) (line : Option Nat) (act : Act σ ω α)
    (s : Session σ ω) :
    (located source line act).exec s =
      match act.exec s with
      | (.ok a, s') => (.ok a, s')
      | (.error e, s') => (.error (e.locate source line), s') := by
  rw [located, Act.exec_tryCatch]
  rcases act.exec s with ⟨(f | c) | a, s'⟩ <;> rfl

theorem exec_located_of_ok {a : α} (h : act.exec s = (.ok a, s')) :
    (located source line act).exec s = (.ok a, s') := by
  rw [exec_located, h]

theorem exec_located_eq_ok {a : α} :
    (located source line act).exec s = (.ok a, s') ↔ act.exec s = (.ok a, s') := by
  rw [exec_located]
  rcases act.exec s with ⟨e | a', s₁⟩ <;> simp

theorem exec_located_fault {f : Failure}
    (h : (located source line act).exec s = (.error (.fault f), s')) :
    ∃ g, act.exec s = (.error (.fault g), s') ∧ f = g.locate source line := by
  rw [exec_located] at h
  rcases hact : act.exec s with ⟨(g | c) | a, s₁⟩
  · rw [hact] at h
    cases h
    exact ⟨g, rfl, rfl⟩
  · rw [hact] at h
    cases h
  · rw [hact] at h
    cases h

/-- A last part that cannot fail needs no position. -/
theorem exec_located_bind {next : α → Act σ ω β}
    (hnext : ∀ a s, ∃ b s', (next a).exec s = (.ok b, s')) (source : String)
    (line : Option Nat) (act : Act σ ω α) (s : Session σ ω) :
    (located source line (act >>= next)).exec s = (located source line act >>= next).exec s := by
  rw [exec_located, Act.exec_bind, Act.exec_bind, exec_located]
  rcases act.exec s with ⟨e | a, s'⟩
  · rfl
  · obtain ⟨b, s'', hb⟩ := hnext a s'
    simp only [hb]

end Located

variable [Host σ] (inherited : Option Countdown)

/-! ## Actions that cannot fail -/

/-- Reading the clock changes the host only. -/
theorem exec_readClock (s : Session σ ω) :
    (Act.readClock : Act σ ω Binary64).exec s =
      (.ok (Clock.read s.host).1, { s with host := (Clock.read s.host).2 }) := rfl

theorem exec_publish (c : Option Countdown) (s : Session σ ω) :
    (publish c : Act σ ω Unit).exec s = (.ok (), ((publish c : Act σ ω Unit).exec s).2) := by
  rcases c with _ | ⟨remaining, _ | deadline⟩ <;> rfl

theorem exec_timeIsUp (deadline : Option Binary64) (s : Session σ ω) :
    ∃ up s', (timeIsUp deadline : Act σ ω Bool).exec s = (.ok up, s') := by
  cases deadline with
  | none => exact ⟨false, s, rfl⟩
  | some deadline => exact ⟨_, _, rfl⟩

theorem abandon_singleton (f : Failure) (a : Activation) :
    (abandon inherited f [a] : Act σ ω Failure) = (publish inherited >>= fun _ => pure f) := rfl

theorem abandon_cons (f : Failure) (a caller : Activation) (callers : List Activation) :
    (abandon inherited f (a :: caller :: callers) : Act σ ω Failure) =
      (publish (countdown? inherited (caller :: callers)) >>= fun _ =>
        abandon inherited (f.locate caller.source a.calledFrom) (caller :: callers)) := rfl

theorem exec_abandon (f : Failure) (activations : List Activation) (s : Session σ ω) :
    ∃ f' s', (abandon inherited f activations : Act σ ω Failure).exec s = (.ok f', s') := by
  induction activations generalizing f s with
  | nil => exact ⟨f, s, rfl⟩
  | cons a callers ih =>
      cases callers with
      | nil =>
          rw [abandon_singleton, Act.exec_bind_of_ok (exec_publish _ s)]
          exact ⟨f, _, rfl⟩
      | cons caller callers =>
          rw [abandon_cons, Act.exec_bind_of_ok (exec_publish _ s)]
          exact ih _ _

theorem leaveLoops_zero (a : Activation) (replays : List Replay) :
    (leaveLoops inherited a 0 replays : Act σ ω _) = pure (0, { a with replays }) := by
  cases replays <;> rfl

theorem exec_leaveLoops (a : Activation) (levels : Nat) (replays : List Replay) (s : Session σ ω) :
    ∃ r s', (leaveLoops inherited a levels replays : Act σ ω _).exec s = (.ok r, s') := by
  induction replays generalizing a levels s with
  | nil => cases levels <;> exact ⟨_, s, rfl⟩
  | cons replay replays ih =>
      cases levels with
      | zero => exact ⟨_, s, rfl⟩
      | succ levels =>
          rw [leaveLoops, Act.exec_bind_of_ok (exec_publish _ s),
            Act.exec_bind_of_ok (Act.exec_note _ _)]
          exact ih _ _ _

/-! ## The lower part of a stack -/

theorem countdown?_append (upper lower : List Activation) :
    countdown? inherited (upper ++ lower) = countdown? (countdown? inherited lower) upper := by
  induction upper with
  | nil => rfl
  | cons a upper ih => rw [List.cons_append, countdown?, countdown?, ih]

/-- The line that called the outermost of some scripts. -/
def enteredFrom : List Activation → Option Nat
  | [] => none
  | [a] => a.calledFrom
  | _ :: caller :: callers => enteredFrom (caller :: callers)

theorem enteredFrom_congr {a a' : Activation} (h : a'.calledFrom = a.calledFrom)
    (callers : List Activation) : enteredFrom (a' :: callers) = enteredFrom (a :: callers) := by
  cases callers with
  | nil => exact h
  | cons caller callers => rfl

/-- A failure abandons the upper part of a stack, and then the lower part from the line that called
the upper part. -/
theorem abandon_append (f : Failure) (a : Activation) (upper : List Activation)
    (caller : Activation) (lower : List Activation) (s : Session σ ω) :
    (abandon inherited f (a :: upper ++ caller :: lower) : Act σ ω Failure).exec s =
      (abandon (countdown? inherited (caller :: lower)) f (a :: upper) >>= fun f' =>
        abandon inherited (f'.locate caller.source (enteredFrom (a :: upper)))
          (caller :: lower)).exec s := by
  induction upper generalizing a f s with
  | nil =>
      rw [List.cons_append, List.nil_append, abandon_cons, abandon_singleton,
        Act.exec_bind_of_ok (exec_publish _ s), bind_assoc, Act.exec_bind_of_ok (exec_publish _ s)]
      rfl
  | cons next upper ih =>
      have hinner := countdown?_append inherited (next :: upper) (caller :: lower)
      rw [List.cons_append, List.cons_append, abandon_cons, abandon_cons,
        Act.exec_bind_of_ok (exec_publish _ s), ← List.cons_append, hinner, ih, bind_assoc,
        Act.exec_bind_of_ok (exec_publish _ s)]
      rfl

/-- What is left to do in the lower part of a stack after a turn of the upper part. -/
def below (inherited : Option Countdown) (lower : List Activation) :
    Nat × List Activation → Act σ ω (Nat × List Activation)
  | (0, upper) => pure (0, upper ++ lower)
  | (levels + 1, _) => unwind inherited (levels + 1) lower

theorem exec_unwind_zero (activations : List Activation) (s : Session σ ω) :
    (unwind inherited 0 activations : Act σ ω _).exec s = (.ok (0, activations), s) := by
  cases activations with
  | nil => rfl
  | cons a callers =>
      rw [unwind, leaveLoops_zero]
      rfl

theorem exec_unwind (levels : Nat) (activations : List Activation) (s : Session σ ω) :
    ∃ r s', (unwind inherited levels activations : Act σ ω _).exec s = (.ok r, s') := by
  induction activations generalizing levels s with
  | nil => exact ⟨_, s, rfl⟩
  | cons a callers ih =>
      obtain ⟨⟨left, a'⟩, s', hleave⟩ :=
        exec_leaveLoops (countdown? inherited callers) a levels a.replays s
      rw [unwind, Act.exec_bind_of_ok hleave]
      cases left with
      | zero => exact ⟨_, s', rfl⟩
      | succ left => exact ih (left + 1) s'

theorem exec_follow (callers : List Activation) (m : Move) (s : Session σ ω) :
    ∃ r s', (follow inherited callers m : Act σ ω _).exec s = (.ok r, s') := by
  cases m with
  | next a => exact ⟨_, s, rfl⟩
  | call callee a => exact ⟨_, s, rfl⟩
  | leave => exact ⟨_, s, rfl⟩
  | unwind levels => exact exec_unwind inherited levels callers s

/-- Loops that the upper part of a stack does not have are left in the lower part. -/
theorem unwind_append (levels : Nat) (upper lower : List Activation) (s : Session σ ω) :
    (unwind inherited levels (upper ++ lower) : Act σ ω _).exec s =
      (unwind (countdown? inherited lower) levels upper >>= below inherited lower).exec s := by
  induction upper generalizing levels s with
  | nil =>
      cases levels with
      | zero => rw [Act.exec_bind, exec_unwind_zero, exec_unwind_zero]; rfl
      | succ levels => rfl
  | cons a upper ih =>
      rw [List.cons_append, unwind, unwind, countdown?_append, bind_assoc]
      obtain ⟨⟨left, a'⟩, s', hleave⟩ :=
        exec_leaveLoops (countdown? (countdown? inherited lower) upper) a levels a.replays s
      rw [Act.exec_bind_of_ok hleave, Act.exec_bind_of_ok hleave]
      cases left with
      | zero => rfl
      | succ left => exact ih (left + 1) s'

variable [Sink ω]

/-- A turn of a stack is a turn of its upper part, and then what is left to do in the lower part. -/
theorem turn_append (settings : Settings) (inherited : Option Countdown) (a : Activation)
    (upper lower : List Activation) (s : Session σ ω) :
    (turn settings inherited (a :: upper ++ lower)).exec s =
      (turn settings (countdown? inherited lower) (a :: upper) >>= below inherited lower).exec s := by
  rw [List.cons_append, turn, turn, countdown?_append, bind_assoc, Act.exec_bind, Act.exec_bind]
  rcases (advance settings (countdown? (countdown? inherited lower) upper) a).exec s with
    ⟨e | move, s'⟩
  · rfl
  · cases move with
    | next a => rfl
    | call callee a => rfl
    | leave => rfl
    | unwind levels => exact unwind_append inherited levels upper lower s'

/-! ## The end of a step -/

section Settle

omit [Sink ω]

variable {activations : List Activation} {act : Act σ ω (Nat × List Activation)}
  {s s' : Session σ ω}

theorem settle_of_running {a : Activation} {callers : List Activation}
    (h : act.exec s = (.ok (0, a :: callers), s')) :
    settle activations act s = (.running (a :: callers), s') := by
  rw [settle, Act.exec_bind_of_ok h]
  rfl

theorem settle_of_over (h : act.exec s = (.ok (0, []), s')) :
    settle activations act s = (.done .success, s') := by
  rw [settle, Act.exec_bind_of_ok h]
  rfl

theorem settle_of_stray {levels : Nat} {left : List Activation}
    (h : act.exec s = (.ok (levels + 1, left), s')) :
    settle activations act s = (.done (.crash .strayBreak), s') := by
  rw [settle, Act.exec_bind_of_ok h]
  rfl

theorem settle_of_crash {c : Crash} (h : act.exec s = (.error (.crash c), s')) :
    settle activations act s = (.done (.crash c), s') := by
  rw [settle, Act.exec_bind_of_error h]

theorem settle_of_fault {f f' : Failure} {s'' : Session σ ω}
    (h : act.exec s = (.error (.fault f), s'))
    (habandon : (abandon none f activations : Act σ ω _).exec s' = (.ok f', s'')) :
    settle activations act s = (.done (.failure f'), s'') := by
  rw [settle, Act.exec_bind_of_error h]
  simp only [habandon]

/-- How a step came to its end: scripts are left to go on with, none is left, a fault stopped it and
all scripts were abandoned, or it crashed, if only for loops that nobody left. -/
theorem exec_of_settle {status : Status} (h : settle activations act s = (status, s')) :
    match status with
    | .running left => act.exec s = (.ok (0, left), s')
    | .done .success => act.exec s = (.ok (0, []), s')
    | .done (.failure f) =>
      ∃ f₀ s₁, act.exec s = (.error (.fault f₀), s₁) ∧
        (abandon none f₀ activations : Act σ ω _).exec s₁ = (.ok f, s')
    | .done (.crash c) =>
      act.exec s = (.error (.crash c), s') ∨
        ∃ levels left, act.exec s = (.ok (levels + 1, left), s') := by
  rcases hact : act.exec s with ⟨(f₀ | c) | ⟨_ | levels, _ | ⟨a, callers⟩⟩, s₁⟩
  · obtain ⟨f, s₂, habandon⟩ := exec_abandon none f₀ activations s₁
    rw [settle_of_fault hact habandon] at h
    cases h
    exact ⟨f₀, s₁, rfl, habandon⟩
  · rw [settle_of_crash hact] at h
    cases h
    exact .inl rfl
  · rw [settle_of_over hact] at h
    cases h
    rfl
  · rw [settle_of_running hact] at h
    cases h
    rfl
  · rw [settle_of_stray hact] at h
    cases h
    exact .inr ⟨levels, [], rfl⟩
  · rw [settle_of_stray hact] at h
    cases h
    exact .inr ⟨levels, a :: callers, rfl⟩

/-- There is a script to go on with if the run is not over. -/
theorem running_ne_nil {left : List Activation}
    (h : settle activations act s = (.running left, s')) : left ≠ [] := by
  rintro rfl
  have hact : act.exec s = (.ok (0, []), s') := exec_of_settle h
  rw [settle_of_over hact] at h
  cases h

/-- Only what an action does counts. -/
theorem settle_congr {act' : Act σ ω (Nat × List Activation)} {t : Session σ ω}
    (h : act.exec s = act'.exec t) :
    settle activations act s = settle activations act' t := by
  rw [settle, settle, Act.exec_bind, Act.exec_bind, h]

theorem settle_bind_of_ok {β : Type} {act : Act σ ω β} {x : β}
    {next : β → Act σ ω (Nat × List Activation)} (h : act.exec s = (.ok x, s')) :
    settle activations (act >>= next) s = settle activations (next x) s' :=
  settle_congr (Act.exec_bind_of_ok h)

theorem settle_bind_of_error {β : Type} {act : Act σ ω β} {e : Trouble Failure}
    {next : β → Act σ ω (Nat × List Activation)} (h : act.exec s = (.error e, s')) :
    settle activations (act >>= next) s = settle activations (throw e) s' :=
  settle_congr (Act.exec_bind_of_error h)

/-- An answer is settled without a look at the scripts. -/
theorem settle_of_ok {others : List Activation} {r : Nat × List Activation}
    (h : act.exec s = (.ok r, s')) : settle activations act s = settle others act s := by
  obtain ⟨_ | levels, _ | ⟨a, callers⟩⟩ := r
  · rw [settle_of_over h, settle_of_over h]
  · rw [settle_of_running h, settle_of_running h]
  · rw [settle_of_stray h, settle_of_stray h]
  · rw [settle_of_stray h, settle_of_stray h]

/-- Of the innermost script only the line that called it counts. -/
theorem settle_cons_congr {a a' : Activation} {callers : List Activation}
    (h : a.calledFrom = a'.calledFrom) (act : Act σ ω (Nat × List Activation))
    (s : Session σ ω) :
    settle (a :: callers) act s = settle (a' :: callers) act s := by
  have habandon : ∀ f, (abandon none f (a :: callers) : Act σ ω _) =
      abandon none f (a' :: callers) := by
    intro f
    cases callers with
    | nil => rfl
    | cons caller callers => rw [abandon_cons, abandon_cons, h]
  rw [settle, settle]
  simp only [habandon]

end Settle

end Machine

end InputScript
