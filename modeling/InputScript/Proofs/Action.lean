import InputScript.Session

/-!
# Laws of actions

An action is studied through `Act.exec`, which takes a session to an answer or a trouble and the
session left behind.  This module gives `exec` one equation for each way of building an action, so
that a run of a `do` block is computed by rewriting, and the inversion of a sequence that answered
or failed.

Two properties of actions are closed under all of these ways and are stated once for every action
of the engine:

* `Preserves view act` — whatever `act` does, the part of the session that `view` shows is left as
  it was;
* `Unplaced act` — a fault of `act` carries no position yet, so that the line that is being
  executed is the one whose position is attached.
-/

namespace InputScript.Act

variable {σ ω α β γ : Type} {s s' : Session σ ω}

/-! ## Running an action -/

@[simp] theorem exec_pure (a : α) (s : Session σ ω) :
    (pure a : Act σ ω α).exec s = (.ok a, s) := rfl

theorem exec_bind (act : Act σ ω α) (next : α → Act σ ω β) (s : Session σ ω) :
    (act >>= next).exec s =
      match act.exec s with
      | (.ok a, s') => (next a).exec s'
      | (.error e, s') => (.error e, s') := by
  change (match act.exec s with
    | (r, s') => (ExceptT.bindCont next r).run s') = _
  rcases act.exec s with ⟨_ | a, s'⟩ <;> rfl

@[simp] theorem exec_get (s : Session σ ω) :
    (get : Act σ ω (Session σ ω)).exec s = (.ok s, s) := rfl

@[simp] theorem exec_set (s s' : Session σ ω) :
    (set s' : Act σ ω Unit).exec s = (.ok (), s') := rfl

@[simp] theorem exec_modify (f : Session σ ω → Session σ ω) (s : Session σ ω) :
    (modify f : Act σ ω Unit).exec s = (.ok (), f s) := rfl

@[simp] theorem exec_throw (e : Trouble Failure) (s : Session σ ω) :
    (throw e : Act σ ω α).exec s = (.error e, s) := rfl

@[simp] theorem exec_fail (fault : Fault) (s : Session σ ω) :
    (fail fault : Act σ ω α).exec s = (.error (.fault { fault }), s) := rfl

@[simp] theorem exec_crash (c : Crash) (s : Session σ ω) :
    (crash c : Act σ ω α).exec s = (.error (.crash c), s) := rfl

@[simp] theorem exec_note (n : Note) (s : Session σ ω) :
    (note n : Act σ ω Unit).exec s = (.ok (), { s with journal := n :: s.journal }) := rfl

@[simp] theorem exec_noteAll (ns : List Note) (s : Session σ ω) :
    (noteAll ns : Act σ ω Unit).exec s =
      (.ok (), { s with journal := ns.reverse ++ s.journal }) := rfl

theorem exec_tryCatch (act : Act σ ω α) (handler : Trouble Failure → Act σ ω α)
    (s : Session σ ω) :
    (tryCatch act handler).exec s =
      match act.exec s with
      | (.ok a, s') => (.ok a, s')
      | (.error e, s') => (handler e).exec s' := by
  simp only [exec, tryCatch, tryCatchThe, MonadExceptOf.tryCatch, ExceptT.tryCatch, ExceptT.run,
    ExceptT.mk, StateT.run, bind, StateT.bind]
  rcases act s with ⟨_ | a, s'⟩ <;> rfl

variable {ε : Type}

/-- An answer of a pure computation is taken without touching the session. -/
@[simp] theorem exec_lift_ok (wrap : ε → Fault) (a : α) (s : Session σ ω) :
    (lift wrap (.ok a : Except (Trouble ε) α) : Act σ ω α).exec s = (.ok a, s) := rfl

/-- A pure computation that was taken has answered. -/
theorem exec_lift_eq_ok {wrap : ε → Fault} {r : Except (Trouble ε) α} {a : α}
    (h : (lift wrap r : Act σ ω α).exec s = (.ok a, s')) :
    r = .ok a ∧ s' = s := by
  rcases r with (e | c) | b <;> cases h
  exact ⟨rfl, rfl⟩

variable {next : α → Act σ ω β} {act : Act σ ω α}

/-- Running a sequence whose first part answered. -/
theorem exec_bind_of_ok {a : α} (h : act.exec s = (.ok a, s')) :
    (act >>= next).exec s = (next a).exec s' := by
  rw [exec_bind, h]

/-- Running a sequence whose first part is in trouble. -/
theorem exec_bind_of_error {e : Trouble Failure} (h : act.exec s = (.error e, s')) :
    (act >>= next).exec s = (.error e, s') := by
  rw [exec_bind, h]

/-- A sequence answers exactly if both parts do. -/
theorem exec_bind_eq_ok {b : β} : (act >>= next).exec s = (.ok b, s') ↔
      ∃ a s₁, act.exec s = (.ok a, s₁) ∧ (next a).exec s₁ = (.ok b, s') := by
  rw [exec_bind]
  rcases h : act.exec s with ⟨e | a, s₁⟩
  · simp
  · constructor
    · intro hnext
      exact ⟨a, s₁, rfl, hnext⟩
    · rintro ⟨_, _, heq, hnext⟩
      cases heq
      exact hnext

/-- A sequence is in trouble exactly if its first part is, or the second after the first. -/
theorem exec_bind_eq_error {e : Trouble Failure} : (act >>= next).exec s = (.error e, s') ↔
      act.exec s = (.error e, s') ∨
        ∃ a s₁, act.exec s = (.ok a, s₁) ∧ (next a).exec s₁ = (.error e, s') := by
  rw [exec_bind]
  rcases h : act.exec s with ⟨e' | a, s₁⟩
  · simp
  · constructor
    · intro hnext
      exact .inr ⟨a, s₁, rfl, hnext⟩
    · rintro (heq | ⟨_, _, heq, hnext⟩)
      · cases heq
      · cases heq
        exact hnext

theorem exec_wait [Host σ] (delay : Binary64) (s : Session σ ω) :
    (Act.wait delay : Act σ ω Unit).exec s =
      (if (waitFor delay s.host).1 then .ok () else .error (.crash .endless),
        { s with host := (waitFor delay s.host).2 }) := by
  rcases h : waitFor delay s.host with ⟨ended, host⟩
  simp only [Act.wait, exec_bind, exec_get, h, exec_set]
  cases ended <;> rfl

/-! ## What an action leaves alone -/

/-- The part of the session that `view` shows is not changed, however the action ends. -/
def Preserves (view : Session σ ω → γ) (act : Act σ ω α) : Prop :=
  ∀ s, view (act.exec s).2 = view s

namespace Preserves

variable {view : Session σ ω → γ}

theorem of_eq (h : Preserves view act) {r : Except (Trouble Failure) α}
    (heq : act.exec s = (r, s')) : view s' = view s := by
  have := h s
  rwa [heq] at this

theorem pure (a : α) : Preserves view (Pure.pure a : Act σ ω α) := fun _ => rfl

theorem throw (e : Trouble Failure) : Preserves view (MonadExcept.throw e : Act σ ω α) :=
  fun _ => rfl

theorem fail (fault : Fault) : Preserves view (Act.fail fault : Act σ ω α) := fun _ => rfl

theorem crash (c : Crash) : Preserves view (Act.crash c : Act σ ω α) := fun _ => rfl

theorem get : Preserves view (MonadState.get : Act σ ω (Session σ ω)) := fun _ => rfl

theorem bind (h : Preserves view act) (hnext : ∀ a, Preserves view (next a)) :
    Preserves view (act >>= next) := by
  intro s
  rw [exec_bind]
  rcases hact : act.exec s with ⟨e | a, s₁⟩
  · exact h.of_eq hact
  · exact (hnext a s₁).trans (h.of_eq hact)

theorem tryCatch {handler : Trouble Failure → Act σ ω α} (h : Preserves view act)
    (hhandler : ∀ e, Preserves view (handler e)) :
    Preserves view (MonadExcept.tryCatch act handler) := by
  intro s
  rw [exec_tryCatch]
  rcases hact : act.exec s with ⟨e | a, s₁⟩
  · exact (hhandler e s₁).trans (h.of_eq hact)
  · exact h.of_eq hact

theorem lift (wrap : ε → Fault) (r : Except (Trouble ε) α) :
    Preserves view (Act.lift wrap r : Act σ ω α) := by
  rcases r with (e | c) | a <;> exact fun _ => rfl

theorem ofExcept (wrap : ε → Fault) (r : Except ε α) :
    Preserves view (Act.ofExcept wrap r : Act σ ω α) := by
  rcases r with e | a <;> exact fun _ => rfl

end Preserves

/-! ## Faults without a position -/

/-- A fault of the action has no position yet. -/
def Unplaced (act : Act σ ω α) : Prop :=
  ∀ s f s', act.exec s = (.error (.fault f), s') → f.source = none ∧ f.line = none

namespace Unplaced

theorem pure (a : α) : Unplaced (Pure.pure a : Act σ ω α) := by
  intro s f s' h
  cases h

/-- An action that always answers has no faults. -/
theorem of_ok (h : ∀ s, ∃ a s', act.exec s = (.ok a, s')) : Unplaced act := by
  intro s f s' heq
  obtain ⟨a, s₁, hok⟩ := h s
  rw [hok] at heq
  cases heq

theorem fail (fault : Fault) : Unplaced (Act.fail fault : Act σ ω α) := by
  intro s f s' h
  cases h
  exact ⟨rfl, rfl⟩

theorem crash (c : Crash) : Unplaced (Act.crash c : Act σ ω α) := by
  intro s f s' h
  cases h

theorem get : Unplaced (MonadState.get : Act σ ω (Session σ ω)) := by
  intro s f s' h
  cases h

theorem modify (g : Session σ ω → Session σ ω) :
    Unplaced (modifyGet fun s => ((), g s) : Act σ ω PUnit) := by
  intro s f s' h
  cases h

theorem note (n : Note) : Unplaced (Act.note n : Act σ ω Unit) := modify _

theorem bind (h : Unplaced act) (hnext : ∀ a, Unplaced (next a)) :
    Unplaced (act >>= next) := by
  intro s f s' heq
  rcases exec_bind_eq_error.mp heq with hact | ⟨a, s₁, _, hrest⟩
  · exact h s f s' hact
  · exact hnext a s₁ f s' hrest

theorem lift (wrap : ε → Fault) (r : Except (Trouble ε) α) :
    Unplaced (Act.lift wrap r : Act σ ω α) := by
  rcases r with (e | c) | a
  · exact fail _
  · exact crash _
  · exact pure _

theorem ofExcept (wrap : ε → Fault) (r : Except ε α) :
    Unplaced (Act.ofExcept wrap r : Act σ ω α) := by
  rcases r with e | a
  · exact fail _
  · exact pure _

end Unplaced

end InputScript.Act
