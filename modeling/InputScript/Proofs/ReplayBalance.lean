import InputScript.Proofs.Lifetime

/-!
# Iterations leave the stack as they found it

While a loop body is replayed, blocks are entered and left, by lines that are executed and by lines
that are skipped; loops are collected from the rest of the body, and other scripts are called.  An
iteration that comes to the end of the body leaves the stack as it was when it began, with the frame
of the loop on top, and skips nothing.

Two facts carry this.  Below the frame of a loop nothing changes while the loop is replayed; of the
frame itself only the place in the body does (`Advanced.goes`).  And above it there is nothing at
the end of the body, which is soundness of the stacks.  For the latter it is enough that the lines
which the script itself executes have no characters of the shell; what other scripts do does not
matter.

## Main results

* `sameBelow_of_sound` — what is below a loop stays the same during an iteration.
* `replay_balance` — an iteration leaves the stack as it was, so that the end of a loop removes the
  frame of the loop; and a loop in a body is always collected.
-/

namespace InputScript.Machine

open Device (Sink)
open Script (Line RawLine Scratch)

variable {σ ω : Type} {a a₁ b : Activation} {line : Line} {m : Move} {s s' : Session σ ω}

/-! ## Collecting in a body -/

/-- Lines that close a block hold the rest of its body. -/
theorem takeBody_of_closes {k n : Nat} {lines : List Line} (h : Closes k lines) (hlt : n < k) :
    ∃ body, takeBody n lines = .ok body := by
  induction lines generalizing k n with
  | nil =>
      have hzero : k = 0 := h
      omega
  | cons line rest ih =>
      obtain ⟨word, l, hword, hlevel, hrest⟩ := h
      cases hmark : Mark.ofWord word with
      | neutral =>
          rw [hmark] at hlevel
          cases hlevel
          obtain ⟨body, hbody⟩ := ih hrest hlt
          rw [takeBody_neutral n rest hword hmark, hbody]
          exact ⟨_, rfl⟩
      | opener =>
          rw [hmark] at hlevel
          cases hlevel
          obtain ⟨body, hbody⟩ := ih hrest (Nat.succ_lt_succ hlt)
          rw [takeBody_opener n rest hword hmark, hbody]
          exact ⟨_, rfl⟩
      | closer =>
          cases n with
          | zero => exact ⟨_, takeBody_closer_zero rest hword hmark⟩
          | succ n =>
              obtain ⟨k, rfl⟩ : ∃ j, k = j + 1 := ⟨k - 1, by omega⟩
              rw [hmark] at hlevel
              cases hlevel
              obtain ⟨body, hbody⟩ := ih hrest (Nat.lt_of_succ_lt_succ hlt)
              rw [takeBody_closer_succ n rest hword hmark, hbody]
              exact ⟨_, rfl⟩

/-- The rest of the innermost body closes the blocks that are open inside of its loop. -/
theorem Balanced.closes {n : Nat} {frames : List Frame} {f : LoopFrame} {fs : List LoopFrame}
    (h : Balanced n frames) (hloops : loopsOf frames = f :: fs) :
    ∃ k, n ≤ k ∧ Closes k f.body.rest := by
  induction frames generalizing n with
  | nil => cases hloops
  | cons frame frames ih =>
      cases frame with
      | cond c =>
          obtain ⟨k, hk, hcloses⟩ := ih h hloops
          exact ⟨k, by omega, hcloses⟩
      | loop g =>
          cases hloops
          exact h.1

/-- In a body that is replayed a loop is collected if there is room for it. -/
theorem exec_collect (haligned : Aligned a.frames a.replays) (hroom : Balanced 1 a.frames)
    (hreplays : a.replays ≠ []) (frame : LoopFrame) (s : Session σ ω) :
    ∃ r s', (collect (a.push (.loop frame))).exec s = (.ok r, s') := by
  obtain ⟨replay, outer, hr⟩ := List.exists_cons_of_ne_nil hreplays
  have haligned' : Aligned a.frames (replay :: outer) := hr ▸ haligned
  obtain ⟨f, fs, hloops⟩ := haligned'.exists_loop
  obtain ⟨k, hk, hcloses⟩ := hroom.closes hloops
  obtain ⟨body, hbody⟩ := takeBody_of_closes hcloses hk
  have hupcoming : (a.push (.loop frame)).upcoming s.input = (f.body.rest, none) := by
    rw [Awaits.upcoming_push haligned, upcoming_of_replay hr haligned' hloops]
  unfold collect
  rw [Act.exec_bind_of_ok (Act.exec_get s), hupcoming]
  dsimp only
  rw [hbody]
  exact ⟨_, _, rfl⟩

/-! ## What is below a height -/

/-- The frames up to a height. -/
def under (height : Nat) (frames : List Frame) : List Frame :=
  frames.drop (frames.length - height)

theorem under_of_suffix {height : Nat} {below frames : List Frame} (h : below <:+ frames)
    (hle : height ≤ below.length) : under height frames = under height below := by
  obtain ⟨above, rfl⟩ := h
  have hlength : (above ++ below).length - height = above.length + (below.length - height) := by
    rw [List.length_append]
    omega
  rw [under, hlength, ← List.drop_drop, List.drop_left, under]

theorem under_length (frames : List Frame) : under frames.length frames = frames := by
  rw [under, Nat.sub_self, List.drop_zero]

theorem exists_moveCursor_self (frames : List Frame) :
    ∃ cursor, moveCursor cursor frames = frames := by
  induction frames with
  | nil => exact ⟨0, rfl⟩
  | cons frame frames ih =>
      cases frame with
      | cond c =>
          obtain ⟨cursor, hsame⟩ := ih
          exact ⟨cursor, by rw [moveCursor, hsame]⟩
      | loop f => exact ⟨f.body.cursor, rfl⟩

/-- The frames up to a height are the same, but for the place in the body of the innermost loop. -/
def SameBelow (height : Nat) (frames frames' : List Frame) : Prop :=
  ∃ cursor, under height frames' = moveCursor cursor (under height frames)

namespace SameBelow

variable {height : Nat} {frames frames' frames'' : List Frame}

theorem of_eq (h : under height frames' = under height frames) :
    SameBelow height frames frames' := by
  obtain ⟨cursor, hsame⟩ := exists_moveCursor_self (under height frames)
  exact ⟨cursor, by rw [h, hsame]⟩

theorem refl (frames : List Frame) : SameBelow height frames frames := of_eq rfl

theorem trans (h : SameBelow height frames frames') (h' : SameBelow height frames' frames'') :
    SameBelow height frames frames'' := by
  obtain ⟨cursor, hsame⟩ := h
  obtain ⟨cursor', hsame'⟩ := h'
  exact ⟨cursor', by rw [hsame', hsame, moveCursor_moveCursor]⟩

/-- Frames above the height may be left. -/
theorem of_suffix (h : frames' <:+ frames) (hle : height ≤ frames'.length) :
    SameBelow height frames frames' :=
  of_eq (under_of_suffix h hle).symm

/-- A frame above the height may be entered. -/
theorem cons (frame : Frame) (hle : height ≤ frames.length) :
    SameBelow height frames (frame :: frames) :=
  of_eq (under_of_suffix (List.suffix_cons frame frames) hle)

/-- A frame above the height may be replaced. -/
theorem replace (frame frame' : Frame) (hle : height ≤ frames.length) :
    SameBelow height (frame :: frames) (frame' :: frames) :=
  (of_suffix (List.suffix_cons frame frames) hle).trans (cons frame' hle)

theorem moveCursor (cursor : Nat) (hle : height ≤ frames.length) :
    SameBelow height frames (moveCursor cursor frames) := by
  induction frames with
  | nil => exact refl _
  | cons frame frames ih =>
      rcases Nat.lt_or_ge frames.length height with hlt | hge
      · -- the height is that of the whole stack
        have hheight : height = (frame :: frames).length := by
          rw [List.length_cons] at hle ⊢
          omega
        refine ⟨cursor, ?_⟩
        rw [hheight, under_length]
        exact (congrArg (under · _) (length_moveCursor cursor (frame :: frames)).symm).trans
          (under_length _)
      · cases frame with
        | cond c =>
            have hge' : height ≤ (Machine.moveCursor cursor frames).length := by
              rw [length_moveCursor]
              exact hge
            exact ((of_suffix (List.suffix_cons _ _) hge).trans (ih hge)).trans (cons _ hge')
        | loop f => exact replace _ _ hge

end SameBelow

/-! ## A step in an iteration -/

/-- How a script comes to be in an iteration after a step.  The iteration is given by the loops that
are replayed, innermost first, with the iterations that they have completed.  Either the script was
in it before, and nothing has changed below the loop; or the iteration has just begun, with the
frame of the loop on top. -/
inductive Goes (replay : Replay) (outer : List Replay) (a b : Activation) : Prop
  | on (hbefore : replay :: outer <:+ a.replays) (hsame : SameBelow replay.base a.frames b.frames)
  | begins {f : LoopFrame} {rest : List Frame} (hbefore : ¬ replay :: outer <:+ a.replays)
      (hreplays : b.replays = replay :: outer) (homit : b.omission = none)
      (hframes : b.frames = .loop f :: rest) (hcursor : f.body.cursor = 0)

variable {replay : Replay} {outer : List Replay}

/-- Reading a line does not matter. -/
theorem Goes.of_took {cursor : Nat} (ht : Took a line cursor a₁)
    (haligned : Aligned a.frames a.replays) (h : Goes replay outer a₁ b) :
    Goes replay outer a b := by
  cases h with
  | on hbefore hsame =>
      rw [ht.replays] at hbefore
      rw [ht.frames] at hsame
      have hle := haligned.base_le replay (hbefore.subset List.mem_cons_self)
      exact .on hbefore ((SameBelow.moveCursor cursor hle).trans hsame)
  | begins hbefore hreplays homit hframes hcursor =>
      rw [ht.replays] at hbefore
      exact .begins hbefore hreplays homit hframes hcursor

variable {replays : List Replay}

/-- The frame of a loop that is replayed is on the stack. -/
theorem Aligned.base_le_of_suffix {frames : List Frame} (h : Aligned frames replays)
    (hin : replay :: outer <:+ replays) :
    replay.base ≤ frames.length :=
  h.base_le replay (hin.subset List.mem_cons_self)

/-- Marking the branch on top of the stack changes nothing below a loop. -/
theorem sameBelow_markElse {c : CondFrame} {frames : List Frame}
    (hframes : a.frames = .cond c :: frames) (haligned : Aligned a.frames a.replays)
    (hin : replay :: outer <:+ a.replays) :
    SameBelow replay.base a.frames a.markElse.frames := by
  rw [Activation.frames_markElse hframes, hframes]
  rw [hframes] at haligned
  cases haligned with
  | cond haligned => exact .replace _ _ (haligned.base_le_of_suffix hin)

theorem Omitted.goes {o : Omission} (h : Omitted a o line s (.next b) s')
    (haligned : Aligned a.frames a.replays) (hb : Aligned b.frames b.replays)
    (hbranch : ∃ c frames, a.frames = .cond c :: frames) (hin : replay :: outer <:+ b.replays) :
    Goes replay outer a b := by
  cases h with
  | opener _ _ => exact .on hin (.refl _)
  | inner _ _ _ => exact .on hin (.refl _)
  | neutral _ _ => exact .on hin (.refl _)
  | close _ _ _ => exact .on hin (.of_suffix (List.drop_suffix 1 _) (hb.base_le_of_suffix hin))
  | otherwise _ _ _ =>
      obtain ⟨c, frames, hframes⟩ := hbranch
      have hreplays : (if a.height = o.height then a.markElse else a).replays = a.replays := by
        split
        · exact a.replays_markElse
        · rfl
      have hbefore : replay :: outer <:+ a.replays := by
        rw [← hreplays]
        exact hin
      refine .on hbefore ?_
      have hsame : SameBelow replay.base a.frames
          (if a.height = o.height then a.markElse else a).frames := by
        split
        · exact sameBelow_markElse hframes haligned hbefore
        · exact .refl _
      exact hsame

theorem Iterated.goes [Host σ] {inherited : Option Countdown} {inner : Replay} {more : List Replay}
    (h : Iterated inherited a inner more s (.next b) s') (hsound : Sound a)
    (hrest : ∀ f fs, loopsOf a.frames = f :: fs → f.body.rest = [])
    (hreplays : a.replays = inner :: more) (hin : replay :: outer <:+ b.replays) :
    Goes replay outer a b := by
  have haligned : Aligned a.frames (inner :: more) := hreplays ▸ hsound.aligned
  obtain ⟨homit, f, frames, hframes, hat, -, -, hbelow⟩ := hsound.at_end hrest hreplays
  cases h with
  | gone hgone =>
      rw [hat] at hgone
      cases hgone
  | finished hframe _ _ hb _ =>
      rw [haligned.setLoopAt_eq, hframes] at hb
      subst hb
      refine .on (hreplays ▸ hin.trans (List.suffix_cons _ _)) ?_
      rw [hframes]
      exact .of_suffix (List.suffix_cons _ _) (hbelow.base_le_of_suffix hin)
  | continued hframe _ _ hb _ =>
      rw [hat] at hframe
      cases hframe
      rw [haligned.setLoopAt_eq, hframes] at hb
      subst hb
      rcases List.suffix_cons_iff.mp hin with heq | hin
      · refine .begins ?_ heq.symm homit rfl rfl
        intro hbefore
        have hsame := hbefore.eq_of_length (by rw [heq, hreplays]; rfl)
        rw [heq, hreplays] at hsame
        have hiterations := congrArg Replay.iterations (List.cons.inj hsame).1
        exact Nat.succ_ne_self _ hiterations
      · refine .on (hreplays ▸ hin.trans (List.suffix_cons _ _)) ?_
        rw [hframes]
        exact .replace _ _ (hbelow.base_le_of_suffix hin)

/-- At the end of a body the frame of its loop is on top, as it was when it was on top before, but
for the place in the body. -/
theorem SameBelow.at_end {f : LoopFrame} {rest : List Frame} {input : List RawLine}
    (hsame : SameBelow replay.base a.frames b.frames) (hframes : a.frames = .loop f :: rest)
    (haligned : Aligned a.frames (replay :: outer)) (hsound : Sound b)
    (hreplays : b.replays = replay :: outer) (hfetch : (b.fetch input).1 = .finished) :
    b.omission = none ∧
      ∃ cursor, b.frames = .loop { f with body := { f.body with cursor } } :: rest ∧
        f.body.lines.drop cursor = [] := by
  obtain ⟨a₁, input', hfetch'⟩ : ∃ a₁ input', b.fetch input = (.finished, a₁, input') :=
    ⟨_, _, Prod.ext hfetch rfl⟩
  obtain ⟨-, hrest⟩ := ended_of_fetch hsound.aligned hfetch'
  obtain ⟨homit, g, below, htop, -⟩ := hsound.at_end hrest hreplays
  -- both stacks are as high as the loop
  have hheight : replay.base = a.frames.length := by
    rw [haligned.base_eq, hframes]
    rfl
  have hheight' : replay.base = b.frames.length := by
    rw [(hreplays ▸ hsound.aligned : Aligned b.frames (replay :: outer)).base_eq, htop]
    rfl
  obtain ⟨cursor, hsame⟩ := hsame
  rw [hheight', under_length, ← hheight', hheight, under_length, hframes] at hsame
  rw [hsame] at htop
  cases htop
  have hlast : f.body.lines.drop cursor = [] := hrest _ _ (congrArg loopsOf hsame)
  exact ⟨homit, cursor, hsame, hlast⟩

/-- The end of an iteration removes the frame of its loop, or goes on with it. -/
theorem Iterated.leaves [Host σ] {inherited : Option Countdown} {f : LoopFrame} {rest : List Frame}
    (h : Iterated inherited a replay outer s m s') (haligned : Aligned a.frames (replay :: outer))
    (hframes : a.frames = .loop f :: rest) :
    ∃ b, m = .next b ∧ (b.replays = outer ∧ b.frames = rest ∨
      b.replays = { replay with iterations := replay.iterations + 1 } :: outer ∧
        ∃ g, b.frames = .loop g :: rest) := by
  have hat : a.loopAt? replay.base = some f := by
    rw [haligned.loopAt?_eq, a.loops_eq, hframes]
    rfl
  cases h with
  | gone hgone =>
      rw [hat] at hgone
      cases hgone
  | finished hframe _ _ hb _ =>
      rw [haligned.setLoopAt_eq, hframes] at hb
      subst hb
      exact ⟨_, rfl, .inl ⟨rfl, rfl⟩⟩
  | continued hframe _ _ hb _ =>
      rw [haligned.setLoopAt_eq, hframes] at hb
      subst hb
      exact ⟨_, rfl, .inr ⟨rfl, _, rfl⟩⟩

section Performed

variable [Host σ] [Sink ω] {settings : Settings} {inherited : Option Countdown}

theorem Performed.goes {inv : Invocation} (h : Performed settings inherited a inv s m s')
    (hm : m.Continues b) (haligned : Aligned a.frames a.replays) (homit : a.omission = none)
    (hb : Aligned b.frames b.replays) (hin : replay :: outer <:+ b.replays) :
    Goes replay outer a b := by
  have hstays : b = a → Goes replay outer a b := by
    rintro rfl
    exact .on hin (.refl _)
  cases h with
  | simple _ _ =>
      rcases hm with hm | ⟨_, hm⟩ <;> cases hm
      exact hstays rfl
  | call _ _ _ =>
      rcases hm with hm | ⟨_, hm⟩ <;> cases hm
      exact hstays rfl
  | loop _ _ _ _ hbody _ =>
      rcases hm with hm | ⟨_, hm⟩ <;> cases hm
      obtain ⟨cursor, hframes, hsame, hnone, -⟩ := hbody.frames_eq haligned
      obtain ⟨htop, hbase⟩ := Activation.replaying_eq hframes
      rw [hbase, hsame] at hin
      rcases List.suffix_cons_iff.mp hin with heq | hin
      · refine .begins ?_ (by rw [hbase, hsame, heq]) (hnone.trans homit) htop rfl
        intro hbefore
        have hle := hbefore.length_le
        rw [heq, List.length_cons] at hle
        omega
      · have hle := haligned.base_le_of_suffix hin
        have hle' : replay.base ≤ (moveCursor cursor a.frames).length := by
          rw [length_moveCursor]
          exact hle
        refine .on hin ?_
        rw [htop]
        exact (SameBelow.moveCursor cursor hle).trans (.cons _ hle')
  | @leave levels left a' _ _ _ _ hleave =>
      have hnext : a' = b := by
        split at hm
        · rcases hm with hm | ⟨_, hm⟩ <;> cases hm
          rfl
        · rcases hm with hm | ⟨_, hm⟩ <;> cases hm
      subst hnext
      obtain ⟨hframes, hreplays, -⟩ := leaveLoops_suffix hleave
      exact .on (hin.trans hreplays) (.of_suffix hframes (hb.base_le_of_suffix hin))
  | @cond truth _ _ _ _ =>
      have hpushed : b.replays = a.replays ∧ ∃ frame, b.frames = frame :: a.frames := by
        cases truth <;> rcases hm with hm | ⟨_, hm⟩ <;> cases hm <;> exact ⟨rfl, _, rfl⟩
      obtain ⟨hreplays, frame, hframes⟩ := hpushed
      rw [hreplays] at hin
      refine .on hin ?_
      rw [hframes]
      exact .cons frame (haligned.base_le_of_suffix hin)
  | otherwise _ hframes _ =>
      rcases hm with hm | ⟨_, hm⟩ <;> cases hm
      have hbefore : replay :: outer <:+ a.replays := by
        rw [← a.replays_markElse]
        exact hin
      exact .on hbefore (sameBelow_markElse hframes haligned hbefore)
  | close _ _ =>
      rcases hm with hm | ⟨_, hm⟩ <;> cases hm
      exact .on hin (.of_suffix (List.drop_suffix 1 _) (hb.base_le_of_suffix hin))
  | exit _ _ => rcases hm with hm | ⟨_, hm⟩ <;> cases hm

/-- A script that is in an iteration after a line was in it before, and has changed nothing below
the loop; or the iteration has just begun. -/
theorem Advanced.goes (h : Advanced settings inherited a s m s') (hm : m.Continues b)
    (hsound : Sound a) (hb : Sound b) (hin : replay :: outer <:+ b.replays) :
    Goes replay outer a b := by
  cases h with
  | omitted hfetch homit hline =>
      obtain ⟨cursor, htook⟩ := took_of_fetch hsound.aligned hfetch
      obtain ⟨c, frames, -, htop⟩ := htook.branch hsound homit
      obtain rfl := hm.eq_next fun callee hcall => by subst hcall; cases hline
      have hgoes := hline.goes (htook.aligned hsound) hb.aligned ⟨c, _, htop⟩ hin
      exact hgoes.of_took htook hsound.aligned
  | blank hfetch homit _ =>
      obtain ⟨cursor, htook⟩ := took_of_fetch hsound.aligned hfetch
      cases hm.eq_next fun callee hcall => nomatch hcall
      exact (Goes.on hin (.refl _)).of_took htook hsound.aligned
  | performed hfetch homit _ _ hline =>
      obtain ⟨cursor, htook⟩ := took_of_fetch hsound.aligned hfetch
      exact (hline.goes hm (htook.aligned hsound) homit hb.aligned hin).of_took htook hsound.aligned
  | iterated hfetch hreplays hend =>
      obtain ⟨⟨hframes, hsame, homit⟩, hrest⟩ := ended_of_fetch hsound.aligned hfetch
      obtain rfl := hm.eq_next fun callee hcall => by subst hcall; cases hend
      have hsound₁ := hsound.congr hframes hsame homit
      have hgoes : Goes replay outer _ b :=
        hend.goes hsound₁ (by rw [hframes]; exact hrest) hreplays hin
      cases hgoes with
      | on hbefore hbelow => exact .on (hsame ▸ hbefore) (hframes ▸ hbelow)
      | begins hbefore hreplays hnone htop hcursor =>
          exact .begins (hsame ▸ hbefore) hreplays hnone htop hcursor
  | finished _ _ _ _ => rcases hm with hm | ⟨_, hm⟩ <;> cases hm

/-- At the end of a body an iteration ends. -/
theorem Advanced.ends (h : Advanced settings inherited a s m s')
    (haligned : Aligned a.frames a.replays) (hreplays : a.replays = replay :: outer)
    (hend : (a.fetch s.input).1 = .finished) :
    ∃ a₁ s₁, a₁.frames = a.frames ∧ Iterated inherited a₁ replay outer s₁ m s' := by
  have hline : ∀ {line a₁ input}, a.fetch s.input ≠ (.line line, a₁, input) := by
    intro line a₁ input hfetch
    rw [hfetch] at hend
    cases hend
  cases h with
  | omitted hfetch _ _ => exact absurd hfetch hline
  | blank hfetch _ _ => exact absurd hfetch hline
  | performed hfetch _ _ _ _ => exact absurd hfetch hline
  | iterated hfetch hreplays₁ hiterated =>
      obtain ⟨⟨hframes, hsame, -⟩, -⟩ := ended_of_fetch haligned hfetch
      rw [hsame, hreplays] at hreplays₁
      cases hreplays₁
      exact ⟨_, _, hframes, hiterated⟩
  | finished hfetch hnil _ _ =>
      obtain ⟨⟨-, hsame, -⟩, -⟩ := ended_of_fetch haligned hfetch
      rw [hsame, hreplays] at hnil
      cases hnil

end Performed

variable {c : Conf σ ω}

section Runs

variable [Host σ] [Sink ω] {settings : Settings} {launch : Launch} {s₀ : Session σ ω}
  {birth : (Role × String × Nat × Option Nat) × Option (List RawLine)}

/-! ## Iterations in a run -/

/-- The run is in an iteration: a script with the given callers replays the given loops, and perhaps
others inside of them. -/
def Inside (callers : List Activation) (replays : List Replay) : Status → Prop
  | .running activations =>
    ∃ upper b, activations = upper ++ b :: callers ∧ replays <:+ b.replays
  | .done _ => False

/-- A step takes the run into an iteration of a script. -/
inductive Begins (settings : Settings) (start : Conf σ ω) (callers : List Activation)
    (replays : List Replay) (a : Activation) : Conf σ ω → Prop
  | intro {activations upper : List Activation} {s s' : Session σ ω}
      (hleads : Leads settings start (.running activations, s))
      (hbefore : ¬ Inside callers replays (.running activations))
      (hstep : step settings activations s = (.running (upper ++ a :: callers), s'))
      (hafter : replays <:+ a.replays) :
      Begins settings start callers replays a (.running (upper ++ a :: callers), s')

/-- The run stays in an iteration from one configuration to the other. -/
inductive Iterating (settings : Settings) (callers : List Activation) (replays : List Replay)
    (start : Conf σ ω) : Conf σ ω → Prop
  | refl : Iterating settings callers replays start start
  | step {activations : List Activation} {s : Session σ ω}
      (h : Iterating settings callers replays start (.running activations, s))
      (hinside : Inside callers replays (step settings activations s).1) :
      Iterating settings callers replays start (step settings activations s)

variable {callers : List Activation}

theorem Iterating.leads {c' : Conf σ ω} (h : Iterating settings callers replays c c') :
    Leads settings c c' := by
  induction h with
  | refl => exact .refl _
  | step _ _ ih => exact ih.trans (.step _ _)

theorem Iterating.of_step {activations : List Activation} {c' : Conf σ ω}
    (h : Iterating settings callers replays c (.running activations, s))
    (hstep : Machine.step settings activations s = c') (hinside : Inside callers replays c'.1) :
    Iterating settings callers replays c c' := by
  subst hstep
  exact .step h hinside

theorem Came.goes {above : List Activation} (h : Came settings s a above b) (ha : Sound a)
    (hb : Sound b) (hin : replay :: outer <:+ b.replays) : Goes replay outer a b := by
  cases h with
  | waited => exact .on hin (.refl _)
  | moved hadvanced hm => exact hadvanced.goes hm ha hb hin
  | unwound hleave =>
      obtain ⟨hframes, hreplays, -⟩ := leaveLoops_suffix hleave
      exact .on (hin.trans hreplays) (.of_suffix hframes (hb.aligned.base_le_of_suffix hin))

variable {upper : List Activation}

section Sound

variable {start : Conf σ ω}

/-- A script that is in an iteration after a step goes on as `Goes` says, if it is sound. -/
theorem goes_of_sound (hsound : ∀ {activations s}, Leads settings start (.running activations, s) →
      ∀ a ∈ activations, a.birth = birth → Sound a) {activations : List Activation}
    (hleads : Leads settings start (.running activations, s))
    (hstep : step settings activations s = (.running (upper ++ b :: callers), s'))
    (hin : replay :: outer <:+ b.replays) :
    ∃ above a, activations = above ++ a :: callers ∧ b.birth = a.birth ∧
      (a.birth = birth → Goes replay outer a b) := by
  rcases came_of_step hstep with ⟨above, a, rfl, hcame⟩ | ⟨hnil, -⟩
  case inr =>
    rw [hnil] at hin
    cases List.suffix_nil.mp hin
  refine ⟨above, a, rfl, hcame.birth_eq, fun hbirth => ?_⟩
  have hnext : Leads settings start (.running (upper ++ b :: callers), s') :=
    hleads.trans (hstep ▸ Leads.step _ s)
  have ha := hsound hleads a (List.mem_append_right _ List.mem_cons_self) hbirth
  have hb := hsound hnext b (List.mem_append_right _ List.mem_cons_self)
    (hcame.birth_eq.trans hbirth)
  exact hcame.goes ha hb hin

/-- What is below a loop of a sound script stays the same during an iteration. -/
theorem sameBelow_of_sound
    (hsound : ∀ {activations s}, Leads settings start (.running activations, s) →
      ∀ a ∈ activations, a.birth = birth → Sound a)
    (hleads : Leads settings start (.running (upper ++ a :: callers), s)) (hbirth : a.birth = birth)
    (hin : replay :: outer <:+ a.replays)
    (h : Iterating settings callers (replay :: outer) (.running (upper ++ a :: callers), s) c) :
    ∃ above b s', c = (.running (above ++ b :: callers), s') ∧ replay :: outer <:+ b.replays ∧
      b.birth = birth ∧ SameBelow replay.base a.frames b.frames := by
  induction h with
  | refl => exact ⟨upper, a, s, rfl, hin, hbirth, .refl _⟩
  | @step activations s₁ hbefore hinside ih =>
      obtain ⟨above, b, _, hc, hb, hborn, hsame⟩ := ih
      cases hc
      rcases hstep : step settings (above ++ b :: callers) s₁ with ⟨next | outcome, s₂⟩
      · rw [hstep] at hinside
        obtain ⟨above', b', rfl, hin'⟩ := hinside
        obtain ⟨above₁, a₁, hpos, hkept, hgoes⟩ :=
          goes_of_sound hsound (hleads.trans hbefore.leads) hstep hin'
        obtain ⟨-, hcons⟩ := List.append_inj' hpos rfl
        cases hcons
        refine ⟨above', b', s₂, rfl, hin', hkept.trans hborn, ?_⟩
        cases hgoes hborn with
        | on _ hbelow => exact hsame.trans hbelow
        | begins hout _ _ _ _ => exact absurd hb hout
      · rw [hstep] at hinside
        exact hinside.elim

end Sound

/-- An iteration begins with the frame of its loop on top, at the first line of the body. -/
theorem top_of_begins (hplain : SplitsInProcess settings (launch.start settings s₀) birth)
    (h : Begins settings (launch.start settings s₀) callers (replay :: outer) a c)
    (hbirth : a.birth = birth) :
    a.replays = replay :: outer ∧ a.omission = none ∧
      ∃ f rest, a.frames = .loop f :: rest ∧ f.body.cursor = 0 := by
  obtain ⟨hleads, hbefore, hstep, hafter⟩ := h
  obtain ⟨above, b, rfl, hsame, hgoes⟩ :=
    goes_of_sound (sound_of_birth hplain) hleads hstep hafter
  cases hgoes (hsame.symm.trans hbirth) with
  | on hin _ => exact absurd ⟨above, b, rfl, hin⟩ hbefore
  | begins _ hreplays homit hframes hcursor => exact ⟨hreplays, homit, _, _, hframes, hcursor⟩

/-- What is below a loop stays the same during an iteration. -/
theorem sameBelow_of_iterating (hplain : SplitsInProcess settings (launch.start settings s₀) birth)
    (hleads : Leads settings (launch.start settings s₀) (.running (upper ++ a :: callers), s))
    (hbirth : a.birth = birth) (hin : replay :: outer <:+ a.replays)
    (h : Iterating settings callers (replay :: outer) (.running (upper ++ a :: callers), s) c) :
    ∃ above b s', c = (.running (above ++ b :: callers), s') ∧ replay :: outer <:+ b.replays ∧
      b.birth = birth ∧ SameBelow replay.base a.frames b.frames :=
  sameBelow_of_sound (sound_of_birth hplain) hleads hbirth hin h

/-- In a body that is replayed there is room for every loop that gets as far as to be collected. -/
theorem room_of_performs (hplain : SplitsInProcess settings (launch.start settings s₀) birth)
    {inv : Invocation} {frame : LoopFrame} (h : Performs settings launch s₀ inv (a :: callers) s)
    (hbirth : a.birth = birth) (hreplays : a.replays ≠ []) (hverb : inv.verb = .loop)
    (hhead : (loopHead settings a inv).exec s = (.ok frame, s')) :
    Aligned a.frames a.replays ∧ Balanced 1 a.frames := by
  obtain ⟨hwords, hcommand⟩ := h
  cases hwords with
  | command _ _ => exact absurd rfl hreplays
  | line hline hsplit _ =>
      have hkept := kept_of_split (shellKeeps_of_plain (hplain hline hbirth)) hsplit
      obtain ⟨hleads, hfetch, homit⟩ := hline
      have hsound := sound_of_birth hplain hleads _ List.mem_cons_self
        ((Activation.birth_fetch hfetch).symm.trans hbirth)
      obtain ⟨cursor, htook⟩ := took_of_fetch hsound.aligned hfetch
      have hready := htook.ready hsound homit hkept (commandOf_ok hcommand).1
      refine ⟨hready.aligned, ?_⟩
      rcases hready.loop hverb with hroom | ⟨hargs, hoptions⟩
      · exact hroom
      · obtain ⟨_, _, hlimits, -⟩ := Act.exec_bind_eq_ok.mp hhead
        exact absurd hlimits (loopLimits_bare hargs hoptions)

/-- **Replay balance**.  Take a script of a run of whose lines none that it executes has characters
of the shell.  An iteration of a loop in it begins with the frame of the loop on top, at the first
line of the body, and skips nothing.  If it comes to the end of the body, the stack is the same
again, but for the place in the body, and nothing is skipped; so the end of the loop removes the
frame of the loop, and else the next iteration has it on top.  A loop that is found in the body is
always collected. -/
theorem replay_balance (settings : Settings) (launch : Launch) (s₀ : Session σ ω)
    (birth : (Role × String × Nat × Option Nat) × Option (List RawLine))
    (hplain : SplitsInProcess settings (launch.start settings s₀) birth) :
    (∀ callers replay outer a c,
      Begins settings (launch.start settings s₀) callers (replay :: outer) a c → a.birth = birth →
      ∃ f rest, a.frames = .loop f :: rest ∧ f.body.cursor = 0 ∧ a.replays = replay :: outer ∧
        a.omission = none ∧
        ∀ b s, Iterating settings callers (replay :: outer) c (.running (b :: callers), s) →
          b.replays = replay :: outer → (b.fetch s.input).1 = .finished →
          b.omission = none ∧
            (∃ cursor, b.frames = .loop { f with body := { f.body with cursor } } :: rest ∧
              f.body.lines.drop cursor = []) ∧
            ∀ inherited m s', (advance settings inherited b).exec s = (.ok m, s') →
              ∃ b', m = .next b' ∧ (b'.replays = outer ∧ b'.frames = rest ∨
                b'.replays = { replay with iterations := replay.iterations + 1 } :: outer ∧
                  ∃ g, b'.frames = .loop g :: rest)) ∧
      ∀ inv a callers frame s s', Performs settings launch s₀ inv (a :: callers) s →
        a.birth = birth → a.replays ≠ [] → inv.verb = .loop →
        (loopHead settings a inv).exec s = (.ok frame, s') →
        ∃ r s'', (collect (a.push (.loop frame))).exec s' = (.ok r, s'') := by
  constructor
  · intro callers replay outer a c hbegins hbirth
    obtain ⟨hreplays, homit, f, rest, hframes, hcursor⟩ := top_of_begins hplain hbegins hbirth
    refine ⟨f, rest, hframes, hcursor, hreplays, homit, fun b s hiterating hsame hend => ?_⟩
    obtain ⟨hleads, -, hstep, hafter⟩ := hbegins
    have hstart := hleads.trans (hstep ▸ Leads.step _ _)
    have ha := sound_of_birth hplain hstart a (List.mem_append_right _ List.mem_cons_self) hbirth
    obtain ⟨above, b', _, hc, -, hborn, hbelow⟩ :=
      sameBelow_of_iterating hplain hstart hbirth hafter hiterating
    have hpos : [] ++ b :: callers = above ++ b' :: callers := Status.running.inj (Prod.mk.inj hc).1
    obtain ⟨-, hcons⟩ := List.append_inj' hpos rfl
    cases hcons
    have hb := sound_of_birth hplain (hstart.trans hiterating.leads) b List.mem_cons_self hborn
    obtain ⟨hnone, cursor, htop, hrest⟩ :=
      hbelow.at_end hframes (hreplays ▸ ha.aligned) hb hsame hend
    refine ⟨hnone, ⟨cursor, htop, hrest⟩, fun inherited m s' hmove => ?_⟩
    obtain ⟨b₁, _, hkept, hiterated⟩ := (advanced_of_ok hmove).ends hb.aligned hsame hend
    have haligned : Aligned b₁.frames (replay :: outer) := hkept ▸ hsame ▸ hb.aligned
    exact hiterated.leaves haligned (hkept.trans htop)
  · intro inv a callers frame s s' hperforms hbirth hreplays hverb hhead
    obtain ⟨haligned, hroom⟩ := room_of_performs hplain hperforms hbirth hreplays hverb hhead
    exact exec_collect haligned hroom hreplays frame s'

end Runs

/-- The branch in the loop is skipped and left; after it the frame of the loop is on top again. -/
theorem replay_balance_guardedLoop :
    ∃ c s, Begins {} (guardedLaunch.start {} idle) [] [⟨1, 0⟩] (GuardedLoop.inside 0) c ∧
      Iterating {} [] [⟨1, 0⟩] c (.running [GuardedLoop.inside 3], s) ∧
      ∃ f rest cursor, (GuardedLoop.inside 0).frames = .loop f :: rest ∧
        (GuardedLoop.inside 3).frames =
          .loop { f with body := { f.body with cursor } } :: rest := by
  obtain ⟨s₁, h₁⟩ := GuardedLoop.step_head
  obtain ⟨s₂, h₂⟩ := GuardedLoop.step_cond s₁
  obtain ⟨s₃, h₃⟩ := GuardedLoop.step_break s₂
  obtain ⟨s₄, h₄⟩ := GuardedLoop.step_close s₃
  have hbegins : Begins {} (guardedLaunch.start {} idle) [] [⟨1, 0⟩] (GuardedLoop.inside 0)
      (.running ([] ++ [GuardedLoop.inside 0]), s₁) := by
    refine .intro (.refl _) ?_ h₁ (List.suffix_refl _)
    rintro ⟨upper, b, hpos, hin⟩
    have hpos' : [] ++ [GuardedLoop.outside 0] = upper ++ [b] := hpos
    obtain ⟨-, hcons⟩ := List.append_inj' hpos' rfl
    cases hcons
    cases List.suffix_nil.mp hin
  have hinside : ∀ b : Activation, b.replays = [⟨1, 0⟩] → Inside [] [⟨1, 0⟩] (.running [b]) :=
    fun b hb => ⟨[], b, rfl, hb ▸ List.suffix_refl _⟩
  have hiterating : Iterating {} [] [⟨1, 0⟩] (.running [GuardedLoop.inside 0], s₁)
      (.running [GuardedLoop.inside 3], s₄) :=
    ((Iterating.refl.of_step h₂ (hinside _ rfl)).of_step h₃ (hinside _ rfl)).of_step h₄
      (hinside _ rfl)
  have hplain : SplitsInProcess {} (guardedLaunch.start {} idle) (GuardedLoop.inside 0).birth := by
    intro line b callers s hline _
    rcases GuardedLoop.executes hline with rfl | rfl <;> rfl
  obtain ⟨f, rest, hframes, -, -, -, hends⟩ :=
    (replay_balance {} guardedLaunch idle _ hplain).1 _ _ _ _ _ hbegins rfl
  obtain ⟨-, ⟨cursor, hsame, -⟩, -⟩ := hends _ _ hiterating rfl rfl
  exact ⟨_, _, hbegins, hiterating, f, rest, cursor, hframes, hsame⟩

end InputScript.Machine
