import InputScript.Proofs.ControlState

/-!
# Notices of the innermost loop

The innermost loop is written to variables at some points only: where an iteration starts, where a
loop is left and where a script is abandoned.  In between lines are executed and skipped, blocks are
entered and left, and scripts are called and return.

A `Notice` is something that the variables are to say of the innermost loop.  It holds where the loop
was just published, and it rests on some variables alone.  What a script does with its next line
keeps it (`Advanced.told`), and so does what a move makes of the whole stack (`Notice.of_follow`),
provided that no `set` names its variables.  That a block which is left is no loop, and that a `break`
stays inside of its script, is soundness of the stacks.
-/

namespace InputScript.Machine

open Device (Sink)
open Script (Line RawLine)

/-- What variables are to say of the innermost loop. -/
structure Notice where
  /-- The variables that count. -/
  names : List String
  Says : Environment → Option Countdown → Prop
  congr : ∀ {env env' : Environment} {c : Option Countdown}, Says env c →
    (∀ name ∈ names, env'.get? name = env.get? name) → Says env' c
  /-- Without a loop there are no variables. -/
  erased : ∀ env : Environment, Says ((env.erase loopCountName).erase loopTimeName) none
  /-- A loop is published with its iterations left and a time. -/
  written : ∀ (env : Environment) (c : Countdown) {time : String},
    (time = unbounded ↔ c.deadline = none) →
    Says ((env.set loopCountName (countText c.remaining)).set loopTimeName time) (some c)

/-- A time in seconds is not taken for no limit: it has a point, or it is no number. -/
theorem fixed_ne_unbounded (places : Nat) (x : Binary64) : Number.fixed places x ≠ unbounded := by
  unfold Number.fixed
  split
  · decide
  · split <;> decide
  · intro h
    have hpoint : '.' ∈ unbounded.toList := by
      rw [← h]
      simp
    exact absurd hpoint (by decide)

variable {c : Option Countdown} {callers : List Activation}

namespace Notice

variable {σ ω : Type} {s s' : Session σ ω} (notice : Notice)

/-! ## Published loops -/

variable {a : Activation}

section Publish

variable [Host σ]

/-- What is published is said. -/
theorem of_publish (h : (publish c).exec s = (.ok (), s')) :
    notice.Says s'.environment c := by
  rcases c with _ | ⟨remaining, _ | deadline⟩
  · cases h
    exact notice.erased s.environment
  · cases h
    exact notice.written s.environment ⟨remaining, none⟩ ⟨fun _ => rfl, fun _ => rfl⟩
  · cases h
    refine notice.written s.environment ⟨remaining, some deadline⟩
      ⟨fun htime => ?_, fun h => nomatch h⟩
    exact absurd htime (fixed_ne_unbounded 3 _)

/-- A failure abandons all scripts, and the outermost leaves no loop. -/
theorem of_abandon {f f' : Failure} (h : (abandon none f (a :: callers)).exec s = (.ok f', s')) :
    notice.Says s'.environment none := by
  induction callers generalizing f a s with
  | nil =>
      rw [abandon_singleton] at h
      obtain ⟨⟨⟩, s₁, hpublish, h₁⟩ := Act.exec_bind_eq_ok.mp h
      cases h₁
      exact notice.of_publish hpublish
  | cons caller callers ih =>
      rw [abandon_cons] at h
      obtain ⟨⟨⟩, s₁, -, h₁⟩ := Act.exec_bind_eq_ok.mp h
      exact ih h₁

/-- Where loops are left the loop that is left over is published. -/
theorem of_leaveLoops {inherited : Option Countdown} {a' : Activation} {levels left : Nat}
    {replays : List Replay}
    (h : (leaveLoops inherited a levels replays).exec s = (.ok (left, a'), s'))
    (hshown : notice.Says s.environment (a.countdown? inherited)) :
    notice.Says s'.environment (a'.countdown? inherited) := by
  induction replays generalizing a levels s with
  | nil => cases levels <;> cases h <;> exact hshown
  | cons replay replays ih =>
      cases levels with
      | zero =>
          cases h
          exact hshown
      | succ levels =>
          obtain ⟨⟨⟩, s₁, hpublish, h₁⟩ := Act.exec_bind_eq_ok.mp h
          obtain ⟨⟨⟩, s₂, hnote, h₂⟩ := Act.exec_bind_eq_ok.mp h₁
          cases hnote
          have hleft := notice.of_publish hpublish
          exact ih h₂ hleft

end Publish

/-! ## Commands -/

/-- Actions that do not touch the environment keep a notice. -/
theorem of_preserves {α : Type} {act : Act σ ω α} {r : Except (Trouble Failure) α}
    (h : notice.Says s.environment c) (hpreserves : act.Preserves Session.shared)
    (hexec : act.exec s = (r, s')) :
    notice.Says s'.environment c := by
  have henv : s'.environment = s.environment := congrArg Prod.fst (hpreserves.of_eq hexec)
  rw [henv]
  exact h

/-- A `set` changes the variable that it names. -/
theorem of_assign [Host σ] {name : String} {value : Option String} (h : notice.Says s.environment c)
    (hname : name ∉ notice.names) (hexec : (assign name value).exec s = (.ok (), s')) :
    notice.Says s'.environment c := by
  have hother : ∀ other ∈ notice.names, other ≠ name := by
    rintro other hmem rfl
    exact hname hmem
  unfold assign at hexec
  split at hexec
  · cases value with
    | none =>
        cases hexec
        refine notice.congr h fun other hmem => ?_
        exact (Environment.get?_erase _ _ _).trans (if_neg (hother other hmem))
    | some value =>
        dsimp only at hexec
        split at hexec <;> cases hexec
        refine notice.congr h fun other hmem => ?_
        exact (Environment.get?_set _ _ _ _).trans (if_neg (hother other hmem))
  · cases hexec

/-- A command does not set the variables of a notice. -/
def Spares (inv : Invocation) : Prop :=
  inv.verb = .assign → ∀ name rest, inv.args = name :: rest → name ∉ notice.names

theorem of_simple [Host σ] [Sink ω] {settings : Settings} {inv : Invocation}
    (h : notice.Says s.environment c) (hspares : notice.Spares inv)
    (hexec : (simple settings inv).exec s = (.ok (), s')) : notice.Says s'.environment c := by
  by_cases hverb : inv.verb = .assign
  · unfold simple at hexec
    rw [hverb] at hexec
    cases hargs : inv.args with
    | nil =>
        rw [hargs] at hexec
        cases hexec
        exact h
    | cons name rest =>
        rw [hargs] at hexec
        exact notice.of_assign h (hspares hverb name rest hargs) hexec
  · have hlocal : (simple settings inv : Act σ ω Unit).Local := .simple hverb
    exact notice.of_preserves h hlocal.preserves hexec

theorem of_split [Host σ] {shell text : String} {number : Option Nat} {words : List String}
    (hsplit : (Expansion.split shell text number).exec s = (.ok words, s'))
    (h : notice.Says s.environment c) : notice.Says s'.environment c :=
  notice.of_preserves h (Expansion.split_preserves shell text number) hsplit

theorem of_finish {m : Move} (hfinish : (finish a).exec s = (.ok m, s'))
    (h : notice.Says s.environment c) :
    notice.Says s'.environment c :=
  notice.of_preserves h (finish_preserves (fun note => (Act.Local.note note).preserves) a) hfinish

theorem of_exitScript [Host σ] {inherited : Option Countdown} {m : Move}
    (h : (exitScript inherited a).exec s = (.ok m, s')) : notice.Says s'.environment inherited := by
  unfold exitScript at h
  obtain ⟨⟨⟩, s₁, -, h₁⟩ := Act.exec_bind_eq_ok.mp h
  obtain ⟨⟨⟩, s₂, hpublish, h₂⟩ := Act.exec_bind_eq_ok.mp h₁
  exact notice.of_finish h₂ (notice.of_publish hpublish)

/-- What is to be said after a move.  A script that is called is in no loop yet. -/
def Told (inherited : Option Countdown) (env : Environment) : Move → Prop
  | .next b => notice.Says env (b.countdown? inherited)
  | .call callee b => notice.Says env (b.countdown? inherited) ∧ callee.loops = []
  | .leave => notice.Says env inherited
  | .unwind _ => True

end Notice

/-! ## The innermost loop -/

section Countdown

variable {a a₁ : Activation}

theorem Activation.countdown?_eq (a : Activation) (inherited : Option Countdown) :
    a.countdown? inherited =
      ((loopsOf a.frames).map LoopFrame.toCountdown).head?.or inherited := by
  unfold countdown?
  rw [a.loops_eq]
  cases loopsOf a.frames <;> rfl

theorem Activation.countdown?_of_loops {b : Activation}
    (h : (loopsOf b.frames).map LoopFrame.toCountdown = (loopsOf a.frames).map LoopFrame.toCountdown)
    (inherited : Option Countdown) : b.countdown? inherited = a.countdown? inherited := by
  rw [b.countdown?_eq, a.countdown?_eq, h]

/-- Reading a line does not change the innermost loop. -/
theorem Took.countdown? {line : Line} {cursor : Nat} (h : Took a line cursor a₁)
    (inherited : Option Countdown) : a₁.countdown? inherited = a.countdown? inherited := by
  refine Activation.countdown?_of_loops ?_ inherited
  rw [h.frames]
  exact Activation.countdowns_moveCursor cursor a.frames

/-- Leaving a branch does not change the innermost loop. -/
theorem Activation.countdown?_pop {c : CondFrame} {frames : List Frame}
    (h : a.frames = .cond c :: frames) (inherited : Option Countdown) :
    a.pop.countdown? inherited = a.countdown? inherited := by
  refine countdown?_of_loops ?_ inherited
  rw [pop, h]
  rfl

theorem Activation.countdown?_markElse (a : Activation) (inherited : Option Countdown) :
    a.markElse.countdown? inherited = a.countdown? inherited := by
  unfold markElse
  split
  · next c frames hframes =>
      refine countdown?_of_loops ?_ inherited
      rw [hframes]
      rfl
  · rfl

end Countdown

/-! ## Lines -/

variable {σ ω : Type} {s s' : Session σ ω} {notice : Notice} {inherited : Option Countdown}
  {a : Activation} {m : Move}

theorem Omitted.told {o : Omission} {line : Line} (hline : Omitted a o line s m s')
    (h : notice.Says s.environment (a.countdown? inherited))
    (hbranch : ∃ c frames, a.frames = .cond c :: frames) :
    notice.Told inherited s'.environment m := by
  cases hline with
  | opener _ _ => exact h
  | inner _ _ _ => exact h
  | neutral _ _ => exact h
  | close _ _ _ =>
      obtain ⟨c, frames, hframes⟩ := hbranch
      rw [← Activation.countdown?_pop hframes] at h
      exact h
  | otherwise _ _ _ =>
      have hsame : (if a.height = o.height then a.markElse else a).countdown? inherited =
          a.countdown? inherited := by
        split
        · exact a.countdown?_markElse inherited
        · rfl
      rw [← hsame] at h
      exact h

variable [Host σ]

theorem Iterated.told {replay : Replay} {outer : List Replay}
    (hend : Iterated inherited a replay outer s m s')
    (h : notice.Says s.environment (a.countdown? inherited)) :
    notice.Told inherited s'.environment m := by
  cases hend with
  | gone _ => exact h
  | finished _ _ _ _ hpublish =>
      have hleft := notice.of_publish hpublish
      exact hleft
  | continued _ _ _ _ hpublish => exact notice.of_publish hpublish

variable [Sink ω] {settings : Settings}

theorem Performed.told {inv : Invocation} (hline : Performed settings inherited a inv s m s')
    (h : notice.Says s.environment (a.countdown? inherited)) (hspares : notice.Spares inv) :
    notice.Told inherited s'.environment m := by
  cases hline with
  | simple _ hdone => exact notice.of_simple h hspares hdone
  | call _ _ hcall =>
      refine ⟨notice.of_preserves h (Act.Local.callScript _ _ _ _).preserves hcall, ?_⟩
      obtain ⟨feed, s₁, -, rfl⟩ := callScript_ok hcall
      rfl
  | loop _ _ _ _ _ hpublish => exact notice.of_publish hpublish
  | leave _ _ _ hleave =>
      have hleft := notice.of_leaveLoops hleave h
      split
      · exact hleft
      · trivial
  | @cond truth _ _ hjudge _ =>
      have hsame := notice.of_preserves h (Act.Local.judge _ _).preserves hjudge
      cases truth with
      | true => exact hsame
      | false => exact hsame
  | otherwise _ _ _ =>
      rw [← a.countdown?_markElse] at h
      exact h
  | close _ hframes =>
      rw [← Activation.countdown?_pop hframes] at h
      exact h
  | exit _ hexit => exact notice.of_exitScript hexit

/-- Whatever a script does with its next line, the variables then say what they are to say. -/
theorem Advanced.told (hsound : Sound a)
    (h : notice.Says s.environment (a.countdown? inherited))
    (hspares : ∀ {a₁ inv s₁}, NextCommand settings a s a₁ inv s₁ → notice.Spares inv)
    (hadvanced : Advanced settings inherited a s m s') :
    notice.Told inherited s'.environment m := by
  cases hadvanced with
  | omitted hfetch homit hline =>
      obtain ⟨cursor, htook⟩ := took_of_fetch hsound.aligned hfetch
      obtain ⟨c, frames, -, htop⟩ := htook.branch hsound homit
      rw [← htook.countdown?] at h
      exact hline.told h ⟨c, _, htop⟩
  | blank hfetch homit hsplit =>
      obtain ⟨cursor, htook⟩ := took_of_fetch hsound.aligned hfetch
      rw [← htook.countdown?] at h
      exact notice.of_split hsplit h
  | performed hfetch homit hsplit hbind hline =>
      obtain ⟨cursor, htook⟩ := took_of_fetch hsound.aligned hfetch
      rw [← htook.countdown?] at h
      have hsplitted := notice.of_split hsplit h
      exact hline.told hsplitted (hspares (.intro hfetch homit hsplit hbind))
  | iterated hfetch hreplays hend =>
      obtain ⟨⟨hframes, -, -⟩, -⟩ := ended_of_fetch hsound.aligned hfetch
      rw [← Activation.countdown?_of_loops (congrArg (fun fs => (loopsOf fs).map _) hframes)] at h
      exact hend.told h
  | finished hfetch hreplays hframes hfinish =>
      obtain ⟨⟨hsame, -, -⟩, -⟩ := ended_of_fetch hsound.aligned hfetch
      rw [a.countdown?_eq, ← hsame, hframes] at h
      exact notice.of_finish hfinish h

/-! ## Steps -/

namespace Notice

omit [Sink ω] in
/-- What is said after a move is said of the whole stack, as long as no loops of the callers are
left. -/
theorem of_follow {left : List Activation} (hstays : ∀ levels, m ≠ .unwind levels)
    (htold : notice.Told (countdown? none callers) s.environment m)
    (h : (follow none callers m).exec s = (.ok (0, left), s')) :
    notice.Says s'.environment (countdown? none left) := by
  cases m with
  | next b =>
      cases h
      exact htold
  | call callee b =>
      cases h
      rw [countdown?, Activation.countdown?_eq, ← callee.loops_eq, htold.2]
      exact htold.1
  | leave =>
      cases h
      exact htold
  | unwind levels => exact absurd rfl (hstays levels)

/-- Where the machine stands the variables say what they are to say.  A run that has ended is in no
loop; a crash may leave anything. -/
def Held (notice : Notice) : Conf σ ω → Prop
  | (.running activations, s) => notice.Says s.environment (countdown? none activations)
  | (.done .success, s) => notice.Says s.environment none
  | (.done (.failure _), s) => notice.Says s.environment none
  | (.done (.crash _), _) => True

omit [Sink ω] in
/-- A step whose move leaves the variables right leaves them right, as long as no loops of the callers
are left. -/
theorem held_of_settle {act : Act σ ω Move} (a : Activation)
    (hact : ∀ m s₁, act.exec s = (.ok m, s₁) →
      (∀ levels, m ≠ .unwind levels) ∧ notice.Told (countdown? none callers) s₁.environment m) :
    notice.Held (settle (a :: callers) (act >>= follow none callers) s) := by
  generalize hend : settle (a :: callers) (act >>= follow none callers) s = c
  obtain ⟨status, s'⟩ := c
  have hexec := exec_of_settle hend
  have hok : ∀ left, (act >>= follow none callers).exec s = (.ok (0, left), s') →
      notice.Says s'.environment (countdown? none left) := by
    intro left h
    obtain ⟨m, s₁, hmove, hfollow⟩ := Act.exec_bind_eq_ok.mp h
    obtain ⟨hstays, htold⟩ := hact m s₁ hmove
    exact of_follow hstays htold hfollow
  cases status with
  | running left => exact hok left hexec
  | done outcome =>
      cases outcome with
      | success => exact hok [] hexec
      | failure f =>
          obtain ⟨f₀, s₁, -, habandon⟩ := hexec
          exact notice.of_abandon habandon
      | crash c => trivial

end Notice

end InputScript.Machine
