import InputScript.Proofs.Commands
import InputScript.Proofs.Reading
import InputScript.Proofs.Transition

/-!
# What a script reads

A script takes its lines from a feed, which may be the standard input that all scripts share.  A line
that is executed or skipped is read from there, a loop reads its body, and nothing else reads.  So
feed and standard input after a line are what they were before, less some physical lines
(`Advanced.fed`).
-/

namespace InputScript.Machine

open Device (Sink)
open Script (Line RawLine)

/-! ## Feeds -/

/-- Some physical lines were read from a feed. -/
def Feed.Reads (f : Feed) (input : List RawLine) (f' : Feed) (input' : List RawLine) : Prop :=
  ∃ count, f.take input count = (f', input')

namespace Feed.Reads

variable {f f' f'' : Feed} {input input' input'' : List RawLine}

theorem refl (f : Feed) (input : List RawLine) : f.Reads input f input := by
  refine ⟨0, ?_⟩
  rcases f with ⟨_ | source, past⟩ <;> simp [take, rest]

theorem trans (h : f.Reads input f' input') (h' : f'.Reads input' f'' input'') :
    f.Reads input f'' input'' := by
  obtain ⟨m, hm⟩ := h
  obtain ⟨n, hn⟩ := h'
  refine ⟨m + n, ?_⟩
  rcases f with ⟨_ | source, past⟩
  all_goals
    simp only [take, rest, Option.getD_none, Option.getD_some] at hm
    cases hm
    rw [← hn]
    simp [take, rest, List.take_add]

/-- The standard input is left alone by a script that has lines of its own. -/
theorem input_eq (h : f.Reads input f' input') (hown : f.pending ≠ none) : input' = input := by
  obtain ⟨count, htake⟩ := h
  obtain ⟨source, hsource⟩ := Option.ne_none_iff_exists'.mp hown
  rw [take_of_pending hsource] at htake
  exact (congrArg Prod.snd htake).symm

theorem input_length_le (h : f.Reads input f' input') : input'.length ≤ input.length := by
  obtain ⟨count, htake⟩ := h
  rcases f with ⟨_ | source, past⟩
  · cases htake
    simp [rest]
  · cases htake
    exact Nat.le_refl _

end Feed.Reads

theorem Activation.reads_of_fetch {a a₁ : Activation} {input input' : List RawLine}
    {next : Script.Next} (h : a.fetch input = (next, a₁, input')) :
    a.feed.Reads input a₁.feed input' := by
  unfold fetch at h
  split at h
  · split at h
    · cases h
      exact .refl _ _
    · split at h
      · cases h
        exact .refl _ _
      · cases h
        exact .refl _ _
  · cases h
    exact ⟨_, rfl⟩

theorem Collected.reads {a a₁ : Activation} {input input' : List RawLine} {body : Body}
    (h : Collected a input body a₁ input') : a.feed.Reads input a₁.feed input' := by
  have hskip := h.skipped
  unfold Activation.skipPast at hskip
  split at hskip
  · split at hskip
    · cases hskip
      exact .refl _ _
    · cases hskip
      exact .refl _ _
  · cases hskip
    exact ⟨_, rfl⟩

/-! ## What does not read -/

section Preserves

variable {σ ω : Type}

theorem preserves_input {α : Type} {act : Act σ ω α} (h : act.Preserves Session.shared) :
    act.Preserves Session.input :=
  fun s => congrArg Prod.snd (h s)

variable [Host σ]

theorem publish_input (c : Option Countdown) :
    (publish c : Act σ ω Unit).Preserves Session.input := by
  rcases c with _ | ⟨remaining, _ | deadline⟩ <;> exact fun _ => rfl

theorem timeIsUp_input (deadline : Option Binary64) :
    (timeIsUp deadline : Act σ ω Bool).Preserves Session.input := by
  cases deadline <;> exact fun _ => rfl

theorem exitScript_input (inherited : Option Countdown) (a : Activation) :
    (exitScript inherited a : Act σ ω Move).Preserves Session.input := by
  refine .bind (fun s => ?_) fun _ => .bind (publish_input inherited) fun _ => ?_
  · rw [Act.exec_noteAll]
  · exact finish_preserves (fun _ _ => rfl) _

theorem leaveLoops_input (inherited : Option Countdown) (a : Activation) (levels : Nat)
    (replays : List Replay) :
    (leaveLoops inherited a levels replays : Act σ ω _).Preserves Session.input :=
  leaveLoops_preserves publish_input (fun _ _ => rfl) inherited a levels replays

theorem unwind_input (inherited : Option Countdown) (levels : Nat)
    (activations : List Activation) :
    (unwind inherited levels activations : Act σ ω _).Preserves Session.input := by
  induction activations generalizing levels with
  | nil => exact .pure _
  | cons a callers ih =>
      refine .bind (leaveLoops_input _ _ _ _) fun r => ?_
      dsimp only
      split
      · exact .pure _
      · exact ih _

theorem follow_input (inherited : Option Countdown) (callers : List Activation) (m : Move) :
    (follow inherited callers m : Act σ ω _).Preserves Session.input := by
  cases m with
  | next a => exact .pure _
  | call callee a => exact .pure _
  | leave => exact .pure _
  | unwind levels => exact unwind_input inherited levels callers

theorem assign_input (name : String) (value : Option String) :
    (assign name value : Act σ ω Unit).Preserves Session.input := by
  unfold assign
  split
  · cases value with
    | none => exact .bind (fun s => rfl) fun _ s => rfl
    | some value =>
        dsimp only
        split
        · exact .crash _
        · exact .bind (fun s => rfl) fun _ s => rfl
  · exact .fail _

theorem simple_input [Sink ω] (settings : Settings) (inv : Invocation) :
    (simple settings inv : Act σ ω Unit).Preserves Session.input := by
  by_cases hverb : inv.verb = .assign
  · unfold simple
    rw [hverb]
    cases inv.args with
    | nil => exact .pure _
    | cons name rest => exact assign_input name _
  · have hlocal : (simple settings inv : Act σ ω Unit).Local := .simple hverb
    exact preserves_input hlocal.preserves

end Preserves

/-! ## Lines -/

/-- The feed that a move leaves its script with. -/
def Move.LeavesFeed (feed : Feed) : Move → Prop
  | .next b => b.feed = feed
  | .call _ b => b.feed = feed
  | .leave | .unwind _ => True

variable {σ ω : Type} {inherited : Option Countdown} {a : Activation} {m : Move}
  {s s' : Session σ ω}

theorem Omitted.fed {o : Omission} {line : Line} (h : Omitted a o line s m s') :
    m.LeavesFeed a.feed ∧ s'.input = s.input := by
  cases h with
  | opener _ _ => exact ⟨rfl, rfl⟩
  | inner _ _ _ => exact ⟨rfl, rfl⟩
  | close _ _ _ => exact ⟨rfl, rfl⟩
  | neutral _ _ => exact ⟨rfl, rfl⟩
  | otherwise _ _ _ =>
      have hfeed : (if a.height = o.height then a.markElse else a).feed = a.feed := by
        split
        · exact a.feed_markElse
        · rfl
      exact ⟨hfeed, rfl⟩

variable [Host σ]

theorem Iterated.fed {replay : Replay} {outer : List Replay}
    (h : Iterated inherited a replay outer s m s') :
    m.LeavesFeed a.feed ∧ s'.input = s.input := by
  cases h with
  | gone _ => exact ⟨rfl, rfl⟩
  | finished _ htime _ ha' hpublish =>
      subst ha'
      exact ⟨rfl, ((publish_input _).of_eq hpublish).trans ((timeIsUp_input _).of_eq htime)⟩
  | continued _ htime _ ha' hpublish =>
      subst ha'
      have hclock := (timeIsUp_input _).of_eq htime
      have hinput := (publish_input _).of_eq hpublish
      exact ⟨rfl, hinput.trans hclock⟩

theorem feed_leaveLoops {a' : Activation} {levels left : Nat} {replays : List Replay}
    (h : (leaveLoops inherited a levels replays : Act σ ω _).exec s = (.ok (left, a'), s')) :
    a'.feed = a.feed :=
  leaveLoops_keeps (P := (·.feed = a.feed)) (fun _ hb => hb) h rfl

variable [Sink ω] {settings : Settings}

theorem Performed.fed {inv : Invocation} (h : Performed settings inherited a inv s m s') :
    ∃ feed, a.feed.Reads s.input feed s'.input ∧ m.LeavesFeed feed := by
  -- of the commands only a loop reads on, for its body
  have hrest : s'.input = s.input → m.LeavesFeed a.feed →
      ∃ feed, a.feed.Reads s.input feed s'.input ∧ m.LeavesFeed feed := by
    intro hinput hfeed
    rw [hinput]
    exact ⟨a.feed, .refl _ _, hfeed⟩
  cases h with
  | simple _ hdone => exact hrest ((simple_input settings inv).of_eq hdone) rfl
  | call _ _ hcall =>
      exact hrest ((preserves_input (Act.Local.callScript _ _ _ _).preserves).of_eq hcall) rfl
  | loop _ _ _ _ hbody hpublish =>
      rw [(publish_input _).of_eq hpublish]
      exact ⟨_, hbody.reads, rfl⟩
  | leave _ _ _ hleave =>
      have hinput := (leaveLoops_input _ _ _ _).of_eq hleave
      refine hrest hinput ?_
      split
      · exact feed_leaveLoops hleave
      · trivial
  | @cond truth _ _ hjudge _ =>
      refine hrest ((preserves_input (Act.Local.judge _ _).preserves).of_eq hjudge) ?_
      cases truth <;> rfl
  | otherwise _ _ _ => exact hrest rfl a.feed_markElse
  | close _ _ => exact hrest rfl rfl
  | exit _ hexit => exact hrest ((exitScript_input _ _).of_eq hexit) trivial

/-- After a line feed and standard input are what they were, less some physical lines. -/
theorem Advanced.fed (h : Advanced settings inherited a s m s') :
    ∃ feed, a.feed.Reads s.input feed s'.input ∧ m.LeavesFeed feed := by
  cases h with
  | omitted hfetch _ hline =>
      obtain ⟨hfeed, hinput⟩ := hline.fed
      rw [hinput]
      exact ⟨_, Activation.reads_of_fetch hfetch, hfeed⟩
  | blank hfetch _ hsplit =>
      rw [(preserves_input (Expansion.split_preserves _ _ _)).of_eq hsplit]
      exact ⟨_, Activation.reads_of_fetch hfetch, rfl⟩
  | performed hfetch _ hsplit _ hline =>
      obtain ⟨feed, hreads, hfeed⟩ := hline.fed
      have hinput := (preserves_input (Expansion.split_preserves _ _ _)).of_eq hsplit
      dsimp only at hreads hinput
      rw [hinput] at hreads
      exact ⟨feed, (Activation.reads_of_fetch hfetch).trans hreads, hfeed⟩
  | iterated hfetch _ hend =>
      obtain ⟨hfeed, hinput⟩ := hend.fed
      rw [hinput]
      exact ⟨_, Activation.reads_of_fetch hfetch, hfeed⟩
  | @finished a₁ _ _ hfetch _ _ hfinish =>
      rw [(finish_preserves (fun _ _ => rfl) a₁ : Act.Preserves Session.input _).of_eq hfinish]
      exact ⟨_, Activation.reads_of_fetch hfetch, trivial⟩

end InputScript.Machine
