import InputScript.Proofs.ControlState

/-!
# One script in a run

A run is a stack of scripts, and most steps concern only the one on top.  This module follows a
single script from one step to the next.  What it is, and the lines that it was given, never change
(`Activation.birth`); so a script can be named by its birth, and what is assumed of its lines need
not be assumed of those of the others.

## Main results

* `sound_of_birth` — a script that is split in process is sound, whatever the others do.
* `came_of_step` — a script that is there after a step was there before it, or was just called.
* `last_of_success` — a run succeeds when the script that it began with is over.
-/

namespace InputScript.Machine

open Device (Sink)
open Script (Line RawLine)

variable {σ ω : Type} {a b : Activation} {m : Move} {s s' : Session σ ω}

/-- The move lets its script go on, perhaps after another script. -/
def Move.Continues (b : Activation) (m : Move) : Prop := m = .next b ∨ ∃ callee, m = .call callee b

theorem Move.Continues.eq_next (h : m.Continues b) (hcall : ∀ callee, m ≠ .call callee b) :
    m = .next b := by
  rcases h with hm | ⟨callee, hm⟩
  · exact hm
  · exact absurd hm (hcall callee)

variable [Host σ] [Sink ω] {settings : Settings} {launch : Launch} {s₀ : Session σ ω}
  {birth : (Role × String × Nat × Option Nat) × Option (List RawLine)}

/-! ## Scripts that are split in process -/

omit [Sink ω] in
/-- A script that was not begun is sound. -/
theorem Sound.of_callScript {depth : Nat} {inv : Invocation} {path : String} {callee : Activation}
    (h : (callScript settings depth inv path).exec s = (.ok callee, s')) : Sound callee := by
  obtain ⟨feed, s₁, -, rfl⟩ := callScript_ok h
  exact .of_executing .nil trivial rfl

/-- Scripts that begin in the given way execute no line with characters of the shell. -/
def SplitsInProcess (settings : Settings) (start : Conf σ ω)
    (birth : (Role × String × Nat × Option Nat) × Option (List RawLine)) : Prop :=
  ∀ ⦃line b callers s⦄, Executes settings start line (b :: callers) s → b.birth = birth →
    Word.needsShell line.text = false

/-- A script that is split in process is sound, whatever the other scripts of the run do. -/
theorem sound_of_birth
    (hplain : SplitsInProcess settings (launch.start settings s₀) birth)
    {activations : List Activation}
    (h : Leads settings (launch.start settings s₀) (.running activations, s)) :
    ∀ a ∈ activations, a.birth = birth → Sound a := by
  refine all_of_leads (fun ha hleave hbirth => ?_) (fun {_ a _ m _ _} hleads ha hadvanced => ?_)
    (fun activations s hstart => ?_) h
  · exact (ha ((birth_leaveLoops hleave).symm.trans hbirth)).leaveLoops hleave
  · by_cases hbirth : a.birth = birth
    · have hsound := (hadvanced.sound (ha hbirth) fun line a₁ input hfetch homit =>
        shellKeeps_of_plain (hplain (.intro hleads hfetch homit)
          ((Activation.birth_fetch hfetch).trans hbirth))).1
      exact hsound.imp fun _ hb _ => hb
    · have hkeeps := hadvanced.keeps
      cases m with
      | next b => exact fun hb => absurd (hkeeps.symm.trans hb) hbirth
      | call callee b =>
          obtain ⟨_, _, _, hcall⟩ := hadvanced.callee rfl
          exact ⟨fun _ => .of_callScript hcall, fun hb => absurd (hkeeps.symm.trans hb) hbirth⟩
      | leave => trivial
      | unwind levels => trivial
  · have hsteady : Standing (Steady settings) (launch.start settings s₀) :=
      standing_start settings launch s₀
    rw [hstart] at hsteady
    exact fun a ha _ => (hsteady a ha).toSound

/-! ## Steps -/

omit [Sink ω] in
/-- Unwinding changes the last script that it comes to, and drops those above it. -/
theorem unwind_ok {inherited : Option Countdown} {levels : Nat} {xs below : List Activation}
    (h : (unwind inherited levels xs).exec s = (.ok (0, b :: below), s')) :
    ∃ upper d i n s₁ s₂, xs = upper ++ d :: below ∧ (levels ≠ 0 → n ≠ 0) ∧
      (leaveLoops i d n d.replays : Act σ ω _).exec s₁ = (.ok (0, b), s₂) := by
  induction xs generalizing levels s with
  | nil => cases h
  | cons d callers ih =>
      rw [unwind] at h
      obtain ⟨⟨left, d'⟩, s₁, hleave, h₁⟩ := Act.exec_bind_eq_ok.mp h
      cases left with
      | zero =>
          cases h₁
          exact ⟨[], d, _, _, _, _, rfl, id, hleave⟩
      | succ left =>
          obtain ⟨upper, e, i, n, s₂, s₃, rfl, hpos, hlast⟩ := ih h₁
          exact ⟨d :: upper, e, i, n, s₂, s₃, rfl, fun _ => hpos (Nat.succ_ne_zero left), hlast⟩

omit [Sink ω] in
/-- Unwinding that comes to an end leaves a script to go on with. -/
theorem unwind_ne_nil {inherited : Option Countdown} {levels : Nat} {xs : List Activation}
    (hlevels : levels ≠ 0) : (unwind inherited levels xs).exec s ≠ (.ok (0, []), s') := by
  intro h
  induction xs generalizing levels s with
  | nil =>
      obtain ⟨hzero, -⟩ := Prod.mk.inj (Except.ok.inj (Prod.mk.inj h).1)
      exact hlevels hzero
  | cons d callers ih =>
      rw [unwind] at h
      obtain ⟨⟨left, d'⟩, s₁, -, h₁⟩ := Act.exec_bind_eq_ok.mp h
      cases left with
      | zero => cases h₁
      | succ left => exact ih (Nat.succ_ne_zero left) h₁

/-- How a script came through a step, with the scripts above it: it waited, or it was on top and
dealt with a line, or loops of it were left from above. -/
inductive Came (settings : Settings) (s : Session σ ω) (a : Activation) :
    List Activation → Activation → Prop
  | waited {above : List Activation} : Came settings s a above a
  | moved {inherited : Option Countdown} {m : Move} {b : Activation} {s' : Session σ ω}
      (hadvanced : Advanced settings inherited a s m s') (hm : m.Continues b) :
      Came settings s a [] b
  | unwound {above : List Activation} {inherited : Option Countdown} {levels : Nat} {b : Activation}
      {s₁ s₂ : Session σ ω}
      (hleave : (leaveLoops inherited a levels a.replays).exec s₁ = (.ok (0, b), s₂)) :
      Came settings s a above b

theorem Came.birth_eq {above : List Activation} (h : Came settings s a above b) :
    b.birth = a.birth := by
  cases h with
  | waited => rfl
  | moved hadvanced hm =>
      have hkeeps := hadvanced.keeps
      rcases hm with rfl | ⟨callee, rfl⟩ <;> exact hkeeps
  | unwound hleave => exact birth_leaveLoops hleave

/-- A script that is there after a step was there before it, unless it was just called. -/
theorem came_of_step {activations upper callers : List Activation}
    (hstep : step settings activations s = (.running (upper ++ b :: callers), s')) :
    (∃ above a, activations = above ++ a :: callers ∧ Came settings s a above b) ∨
      (b.replays = [] ∧ callers ≠ []) := by
  have hturn : (turn settings none activations).exec s = (.ok (0, upper ++ b :: callers), s') :=
    exec_of_settle hstep
  cases activations with
  | nil => cases upper <;> cases hturn
  | cons a rest =>
      rw [turn] at hturn
      obtain ⟨m, s₁, hmove, hfollow⟩ := Act.exec_bind_eq_ok.mp hturn
      have hadvanced := advanced_of_ok hmove
      cases m with
      | next b' =>
          obtain ⟨-, hxs⟩ := Prod.mk.inj (Except.ok.inj (Prod.mk.inj hfollow).1)
          cases upper with
          | nil =>
              cases hxs
              exact .inl ⟨[], a, rfl, .moved hadvanced (.inl rfl)⟩
          | cons x upper =>
              cases hxs
              exact .inl ⟨a :: upper, b, rfl, .waited⟩
      | call callee b' =>
          obtain ⟨-, hxs⟩ := Prod.mk.inj (Except.ok.inj (Prod.mk.inj hfollow).1)
          rcases upper with _ | ⟨x, _ | ⟨y, upper⟩⟩
          · cases hxs
            obtain ⟨_, _, _, hcall⟩ := hadvanced.callee rfl
            obtain ⟨feed, s₂, -, rfl⟩ := callScript_ok hcall
            exact .inr ⟨rfl, List.cons_ne_nil _ _⟩
          · cases hxs
            exact .inl ⟨[], a, rfl, .moved hadvanced (.inr ⟨_, rfl⟩)⟩
          · cases hxs
            exact .inl ⟨a :: upper, b, rfl, .waited⟩
      | leave =>
          obtain ⟨-, hxs⟩ := Prod.mk.inj (Except.ok.inj (Prod.mk.inj hfollow).1)
          exact .inl ⟨a :: upper, b, congrArg (a :: ·) hxs, .waited⟩
      | unwind levels =>
          cases upper with
          | nil =>
              obtain ⟨upper, d, _, _, _, _, rfl, -, hleave⟩ := unwind_ok hfollow
              exact .inl ⟨a :: upper, d, rfl, .unwound hleave⟩
          | cons x upper =>
              obtain ⟨above, d, _, _, _, _, rfl, -, -⟩ := unwind_ok hfollow
              exact .inl ⟨a :: above ++ d :: upper, b, by simp, .waited⟩

/-- A run succeeds when the last script is over. -/
theorem last_of_success {callers : List Activation}
    (h : step settings (a :: callers) s = (.done .success, s')) :
    callers = [] ∧ Advanced settings none a s .leave s' := by
  have hturn : (turn settings none (a :: callers)).exec s = (.ok (0, []), s') := exec_of_settle h
  rw [turn] at hturn
  obtain ⟨m, s₁, hmove, hfollow⟩ := Act.exec_bind_eq_ok.mp hturn
  have hadvanced := advanced_of_ok hmove
  cases m with
  | next b => cases hfollow
  | call callee b => cases hfollow
  | leave =>
      cases hfollow
      exact ⟨rfl, hadvanced⟩
  | unwind levels => exact absurd hfollow (unwind_ne_nil (hadvanced.unwind_pos rfl))

end InputScript.Machine
