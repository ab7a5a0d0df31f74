import Mathlib.Data.List.Shortlex
import InputScript.Proofs.Lifetime
import InputScript.Proofs.Weight

/-!
# Runs of counted loops end

A run in which every `loop` that is performed has a count comes to an end, though its scripts may call
each other.  The scripts that are running stand one above the other, at most as many as the settings
allow.  A step makes one of them lighter, or ends it, and leaves those below it alone; what it does
above that one does not matter.  So the weights of the scripts, read from the first one on, go down in
the lexicographic order, and in lists of bounded length they cannot do so forever.

## Main results

* `stacked_of_leads` — how many scripts are running, and how deep they are.
* `lighter_of_step` — a step makes the running scripts lighter.
* `counted_runs_end` — a run whose loops are all counted ends.
-/

namespace InputScript.Machine

open Device (Sink)
open Script (Line RawLine)

/-! ## How deep scripts are -/

/-- The running scripts count how many are below them, and none is below more than a limit. -/
def Stacked (limit : Nat) : List Activation → Prop
  | [] => True
  | a :: callers => a.depth = callers.length ∧ a.depth ≤ limit ∧ Stacked limit callers

namespace Stacked

variable {limit : Nat} {a b : Activation} {activations upper callers : List Activation}

theorem of_append (h : Stacked limit (upper ++ callers)) : Stacked limit callers := by
  induction upper with
  | nil => exact h
  | cons a upper ih => exact ih h.2.2

theorem replace (h : Stacked limit (a :: callers)) (hbirth : b.birth = a.birth) :
    Stacked limit (b :: callers) := by
  have hdepth : b.depth = a.depth := congrArg (fun birth => birth.1.2.2.1) hbirth
  obtain ⟨hlength, hle, hcallers⟩ := h
  rw [← hdepth] at hlength hle
  exact ⟨hlength, hle, hcallers⟩

theorem depth_le (h : Stacked limit activations) : ∀ a ∈ activations, a.depth ≤ limit := by
  induction activations with
  | nil => exact List.forall_mem_nil _
  | cons a callers ih => exact List.forall_mem_cons.mpr ⟨h.2.1, ih h.2.2⟩

theorem length_le (h : Stacked limit activations) : activations.length ≤ limit + 1 := by
  cases activations with
  | nil => exact Nat.zero_le _
  | cons a callers =>
      obtain ⟨hlength, hle, -⟩ := h
      rw [List.length_cons]
      omega

end Stacked

variable {σ ω : Type} {a b callee : Activation} {callers activations : List Activation} {m : Move}
  {s s' : Session σ ω}

section Host

variable [Host σ]

theorem callScript_depth {settings : Settings} {depth : Nat} {inv : Invocation} {path : String}
    (h : (callScript settings depth inv path).exec s = (.ok callee, s')) :
    callee.depth = depth + 1 ∧ callee.depth ≤ settings.maxScriptDepth := by
  obtain ⟨feed, s₁, -, hcallee⟩ := callScript_ok h
  have hdepth : callee.depth = depth + 1 := by rw [hcallee]
  refine ⟨hdepth, ?_⟩
  unfold callScript at h
  split at h
  · cases h
  · omega

/-- What a line makes of its script keeps the scripts stacked. -/
theorem Stacked.follow {limit : Nat} {inherited : Option Countdown}
    (h : Stacked limit (a :: callers)) (hkeeps : m.keeps a)
    (hcallee : ∀ callee b, m = .call callee b → callee.depth = b.depth + 1 ∧ callee.depth ≤ limit)
    (hfollow : (follow inherited callers m).exec s = (.ok (0, activations), s')) :
    Stacked limit activations := by
  cases m with
  | next b =>
      cases hfollow
      exact h.replace hkeeps
  | call callee b =>
      cases hfollow
      obtain ⟨hdepth, hle⟩ := hcallee callee b rfl
      have hcaller := h.replace hkeeps
      refine ⟨?_, hle, hcaller⟩
      rw [hdepth, hcaller.1, List.length_cons]
  | leave =>
      cases hfollow
      exact h.2.2
  | unwind levels =>
      cases activations with
      | nil => trivial
      | cons b below =>
          obtain ⟨upper, d, i, n, s₁, s₂, rfl, -, hleave⟩ := unwind_ok hfollow
          exact h.2.2.of_append.replace (birth_leaveLoops hleave)

variable [Sink ω] {settings : Settings} {launch : Launch} {s₀ : Session σ ω}

/-- The scripts that are running are stacked, within the limit of the settings. -/
theorem stacked_of_leads
    (h : Leads settings (launch.start settings s₀) (.running activations, s)) :
    Stacked settings.maxScriptDepth activations := by
  have hall : ∀ xs t, (.running activations, s) = ((.running xs, t) : Conf σ ω) →
      Stacked settings.maxScriptDepth xs := by
    refine Leads.induction
      (P := fun c => ∀ xs t, c = (.running xs, t) → Stacked settings.maxScriptDepth xs)
      (fun xs t hstart => ?_) (fun {xs t} _ hxs => ?_) h
    · cases launch with
      | script source feed =>
          cases hstart
          exact ⟨rfl, Nat.zero_le _, trivial⟩
      | command words =>
          obtain ⟨inv, m, s₁, s₂, -, hperformed, hfollow⟩ := performed_of_start hstart
          have hfresh : Stacked settings.maxScriptDepth [freshCommand] :=
            ⟨rfl, Nat.zero_le _, trivial⟩
          refine hfresh.follow hperformed.keeps (fun callee b hm => ?_) hfollow
          obtain ⟨t, path, hcall⟩ := hperformed.callee hm
          exact callScript_depth hcall
    · intro xs' t' hstep
      have hturn : (turn settings none xs).exec t = (.ok (0, xs'), t') := exec_of_settle hstep
      cases xs with
      | nil =>
          cases hturn
          trivial
      | cons a callers =>
          rw [turn] at hturn
          obtain ⟨m, t₁, hmove, hfollow⟩ := Act.exec_bind_eq_ok.mp hturn
          have hadvanced := advanced_of_ok hmove
          refine (hxs _ _ rfl).follow hadvanced.keeps (fun callee b hm => ?_) hfollow
          obtain ⟨inv, t₂, path, hcall⟩ := hadvanced.callee hm
          exact callScript_depth hcall
  exact hall activations s rfl

end Host

/-! ## The weight of the running scripts -/

/-- The weights of the running scripts, from the first one on; a place that no script has is below
them all. -/
def stackWeight (limit : Nat) (input : List RawLine) (activations : List Activation) : List Nat :=
  activations.reverse.map (fun a => a.weight input + 1) ++
    List.replicate (limit + 1 - activations.length) 0

section Stack

variable {limit : Nat} {input input' : List RawLine} {below : List Activation}

theorem length_stackWeight (h : activations.length ≤ limit + 1) :
    (stackWeight limit input activations).length = limit + 1 := by
  simp only [stackWeight, List.length_append, List.length_map, List.length_reverse,
    List.length_replicate]
  omega

/-- What stands above a script that gets lighter does not matter. -/
theorem lex_map_append (hinput : input'.length ≤ input.length) {x y : Nat} (hlt : x < y)
    (scripts : List Activation) (xs ys : List Nat) :
    List.Lex (· < ·) (scripts.map (fun a => a.weight input' + 1) ++ x :: xs)
      (scripts.map (fun a => a.weight input + 1) ++ y :: ys) := by
  induction scripts with
  | nil => exact .rel hlt
  | cons a scripts ih =>
      rcases Nat.lt_or_eq_of_le (a.weight_mono hinput) with hless | hsame
      · exact .rel (Nat.succ_lt_succ hless)
      · simp only [List.map_cons, List.cons_append, hsame]
        exact .cons ih

/-- A script gets lighter. -/
theorem stackWeight_lt (hinput : input'.length ≤ input.length)
    (hlt : b.weight input' < a.weight input) (upper above : List Activation) :
    List.Lex (· < ·) (stackWeight limit input' (upper ++ b :: below))
      (stackWeight limit input (above ++ a :: below)) := by
  unfold stackWeight
  simp only [List.reverse_append, List.reverse_cons, List.map_append, List.map_cons,
    List.append_assoc, List.cons_append, List.nil_append]
  exact lex_map_append hinput (Nat.succ_lt_succ hlt) below.reverse _ _

/-- A script is over. -/
theorem stackWeight_pop (hinput : input'.length ≤ input.length) (hroom : below.length ≤ limit)
    (above : List Activation) :
    List.Lex (· < ·) (stackWeight limit input' below)
      (stackWeight limit input (above ++ a :: below)) := by
  have hfree : limit + 1 - below.length = limit - below.length + 1 := by omega
  unfold stackWeight
  rw [hfree, List.replicate_succ]
  simp only [List.reverse_append, List.reverse_cons, List.map_append, List.map_cons,
    List.append_assoc, List.cons_append, List.nil_append]
  exact lex_map_append hinput (Nat.succ_pos _) below.reverse _ _

end Stack

section Runs

variable [Host σ] [Sink ω] {settings : Settings} {launch : Launch} {s₀ : Session σ ω}
  {counted : Option Nat → Nat → Prop}

/-- A step makes the running scripts lighter. -/
theorem lighter_of_step {next : List Activation}
    (hstacked : Stacked settings.maxScriptDepth (a :: callers)) (h : Rooted counted a)
    (hargs : ∀ {a₁ inv s₁}, NextCommand settings a s a₁ inv s₁ → inv.verb = .loop →
      inv.args ≠ [])
    (hstep : step settings (a :: callers) s = (.running next, s')) :
    List.Lex (· < ·) (stackWeight settings.maxScriptDepth s'.input next)
      (stackWeight settings.maxScriptDepth s.input (a :: callers)) := by
  have hturn : (turn settings none (a :: callers)).exec s = (.ok (0, next), s') :=
    exec_of_settle hstep
  rw [turn] at hturn
  obtain ⟨m, s₁, hmove, hfollow⟩ := Act.exec_bind_eq_ok.mp hturn
  have hadvanced := advanced_of_ok hmove
  have hinput : s'.input.length ≤ s.input.length := by
    obtain ⟨feed, hreads, -⟩ := hadvanced.fed
    rw [(follow_input none callers m).of_eq hfollow]
    exact hreads.input_length_le
  obtain ⟨bound, hlt, hweighs⟩ := hadvanced.lighter h hargs
  cases m with
  | next b =>
      cases hfollow
      exact stackWeight_lt hinput (Nat.lt_of_le_of_lt hweighs hlt) [] []
  | call callee b =>
      cases hfollow
      exact stackWeight_lt hinput (Nat.lt_of_le_of_lt hweighs hlt) [callee] []
  | leave =>
      cases hfollow
      have hroom : callers.length ≤ settings.maxScriptDepth := hstacked.1 ▸ hstacked.2.1
      exact stackWeight_pop hinput hroom []
  | unwind levels =>
      have hlevels := hadvanced.unwind_pos rfl
      cases next with
      | nil => exact absurd hfollow (unwind_ne_nil hlevels)
      | cons b below =>
          obtain ⟨upper, d, i, n, t₁, t₂, rfl, hn, hleave⟩ := unwind_ok hfollow
          have hlighter : b.weight s'.input < d.weight s.input :=
            Nat.lt_of_le_of_lt (b.weight_mono hinput) (weight_leaveLoops (hn hlevels) hleave s.input)
          exact stackWeight_lt hinput hlighter [] (a :: upper)

/-- A script that performs a command is rooted. -/
theorem rooted_of_performs
    (hcounted : ∀ {inv activations s}, Performs settings launch s₀ inv activations s →
      inv.verb = .loop → inv.args ≠ [])
    {inv : Invocation} (h : Performs settings launch s₀ inv (a :: callers) s) :
    Rooted (LoopOf settings launch s₀) a := by
  obtain ⟨hwords, -⟩ := h
  cases hwords with
  | command _ _ => exact .of_nil rfl
  | line hline _ _ =>
      obtain ⟨hleads, hfetch, -⟩ := hline
      exact ((rooted_of_leads hcounted hleads _ List.mem_cons_self).fetch hfetch).1

/-- From wherever it gets to, a run whose loops are all counted gets to its end. -/
theorem ends_of_leads
    (hcounted : ∀ {inv activations s}, Performs settings launch s₀ inv activations s →
      inv.verb = .loop → inv.args ≠ [])
    (h : Leads settings (launch.start settings s₀) (.running activations, s)) :
    ∃ outcome s', Leads settings (.running activations, s) (.done outcome, s') := by
  -- the induction is on the weights of the running scripts
  have hwf : WellFounded (List.Shortlex ((· < ·) : Nat → Nat → Prop)) :=
    List.Shortlex.wf Nat.lt_wfRel.wf
  induction hweight : stackWeight settings.maxScriptDepth s.input activations
    using hwf.induction generalizing activations s with
  | h weight ih =>
      cases activations with
      | nil => exact ⟨.success, s, .step [] s⟩
      | cons a callers =>
          have hhead : Leads settings (.running (a :: callers), s)
              (step settings (a :: callers) s) := .step (a :: callers) s
          rcases hstep : step settings (a :: callers) s with ⟨next | outcome, s'⟩
          · rw [hstep] at hhead
            have hleads := h.trans hhead
            have hrooted := rooted_of_leads hcounted h a List.mem_cons_self
            have hlighter := lighter_of_step (stacked_of_leads h) hrooted
              (fun hnext => hcounted (performs_of_line h hnext)) hstep
            have hlength : (stackWeight settings.maxScriptDepth s'.input next).length =
                (stackWeight settings.maxScriptDepth s.input (a :: callers)).length := by
              rw [length_stackWeight (stacked_of_leads hleads).length_le,
                length_stackWeight (stacked_of_leads h).length_le]
            obtain ⟨outcome, s'', hend⟩ :=
              ih _ (hweight ▸ .of_lex hlength hlighter) hleads rfl
            exact ⟨outcome, s'', hhead.trans hend⟩
          · rw [hstep] at hhead
            exact ⟨outcome, s', hhead⟩

/-- Everything is allowed but a crash for want of an end, unless there is a wait that does not
return. -/
def waitRules (σ ω : Type) [Host σ] [Sink ω] (settings : Settings) : Rules σ ω settings :=
  .ofCrashes (fun c => c = .endless → ∃ delay, ∃ host : σ, (waitFor delay host).1 = false)
    (fun delay host hwait _ => ⟨delay, host, hwait⟩)
    fun count time delay _ _ _ hcrash hendless =>
      absurd hcrash (Device.tapCount_ne (.inr hendless) count (some time) delay)

/-- An end that a run gets to is there for a wait that does not return, if it is there for want of
an end. -/
theorem wait_of_endless
    (h : Leads settings (launch.start settings s₀) (.done (.crash .endless), s)) :
    ∃ delay, ∃ host : σ, (waitFor delay host).1 = false := by
  have hcomplies : Complies (waitRules σ ω settings) s₀ (.done (.crash .endless), s) := by
    refine keeps_of_leads (fun words _ s _ => ?_) h
    refine Rules.admitsWords_of_commands (fun c hcommand hendless => ?_) (fun _ => trivial) _ _
    exact absurd (.inr hendless) hcommand
  rcases hcomplies.crash .endless rfl with hstray | hallowed
  · cases hstray
  · exact hallowed rfl

/-- **Runs of counted loops end.**  Let every `loop` that a run performs have a count.  Then the run
ends, whatever its scripts, its settings and its host are: from some number of steps on it has one
outcome, and this is not for want of an end unless there is a wait that does not return.  Every body
that is collected is shorter than the lines that it is collected from; a loop that is replayed has
done fewer iterations than its line says; and a script is at most as deep as the settings allow, so
that there are never more than so many scripts above the first one. -/
theorem counted_runs_end (settings : Settings) (launch : Launch) (s₀ : Session σ ω)
    (hcounted : ∀ {inv activations s}, Performs settings launch s₀ inv activations s →
      inv.verb = .loop → inv.args ≠ []) :
    (∃ bound outcome s', (∀ fuel, bound ≤ fuel → launch.run settings fuel s₀ = (outcome, s')) ∧
      Leads settings (launch.start settings s₀) (.done outcome, s') ∧
      (outcome = .crash .endless → ∃ delay, ∃ host : σ, (waitFor delay host).1 = false)) ∧
    (∀ inv a callers s m s', Performs settings launch s₀ inv (a :: callers) s →
      inv.verb = .loop →
      (perform settings (countdown? none callers) a inv).exec s = (.ok m, s') →
      ∃ b frame frames, m = .next b ∧ b.frames = .loop frame :: frames ∧
        frame.body.lines.length < (a.upcoming s.input).1.length) ∧
    (∀ activations s, Leads settings (launch.start settings s₀) (.running activations, s) →
      (∀ a ∈ activations, ∀ r ∈ a.replays, ∃ frame n count, a.loopAt? r.base = some frame ∧
        frame.remaining = some n ∧ 0 < n ∧ r.iterations + n = count ∧
        LoopOf settings launch s₀ frame.line count) ∧
      (∀ a ∈ activations, a.depth ≤ settings.maxScriptDepth) ∧
      activations.length ≤ settings.maxScriptDepth + 1) := by
  refine ⟨?_, ?_, fun activations s h => ⟨fun a ha r hr => ?_, ?_, ?_⟩⟩
  · obtain ⟨outcome, s', hend⟩ : ∃ outcome s',
        Leads settings (launch.start settings s₀) (.done outcome, s') := by
      rcases hstart : launch.start settings s₀ with ⟨activations | outcome, s⟩
      · exact ends_of_leads hcounted (hstart ▸ .refl _)
      · exact ⟨outcome, s, .refl _⟩
    obtain ⟨bound, hanswer⟩ := answer_of_leads hend
    refine ⟨bound, outcome, s', fun fuel hle => ?_, hend, ?_⟩
    · rw [Launch.run_eq]
      exact hanswer fuel hle
    · rintro rfl
      exact wait_of_endless hend
  · intro inv a callers s m s' hperforms hverb hexec
    have hrooted := rooted_of_performs hcounted hperforms
    exact (performed_of_ok hexec).collects hverb hrooted
  · obtain ⟨f, hat, n, hn, hpos, hloop⟩ := (rooted_of_leads hcounted h a ha).stands r hr
    exact ⟨f, n, r.iterations + n, hat, hn, hpos, rfl, hloop⟩
  · exact (stacked_of_leads h).depth_le
  · exact (stacked_of_leads h).length_le

end Runs

/-- The loop of the script is performed with its count. -/
theorem GuardedLoop.performs_head :
    ∃ inv activations s, Performs {} guardedLaunch idle inv activations s ∧ inv.verb = .loop ∧
      CountsTo inv 1 := by
  have hbind : Invocation.bind ["loop", "1"] (some 1) =
      .ok { verb := .loop, args := ["1"], line := some 1 } := by decide +kernel
  have hnext : NextCommand {} (outside 0) (guardedLaunch.start {} idle).2 _ _ _ :=
    .intro (fetch_head _) rfl (split_head _) hbind
  refine ⟨_, _, _, performs_of_line (.refl _) hnext, rfl, "1", rfl, ?_⟩
  decide +kernel

/-- All loops of the script are counted. -/
theorem GuardedLoop.counted {inv : Invocation} {activations : List Activation}
    {s : Session Sandbox Device.Recorder} (h : Performs {} guardedLaunch idle inv activations s)
    (hverb : inv.verb = .loop) : inv.args ≠ [] := by
  obtain ⟨hwords, hcommand⟩ := h
  have hbind := (commandOf_ok hcommand).1
  rcases GuardedLoop.dispatches hwords with rfl | rfl
  · cases hbind
    nofun
  · cases hbind
    cases hverb

/-- A loop that is counted is in its only iteration, and its run ends. -/
theorem counted_runs_end_guardedLoop :
    (∃ inv activations s, Performs {} guardedLaunch idle inv activations s ∧ inv.verb = .loop ∧
      CountsTo inv 1) ∧
    (∃ bound s', ∀ fuel, bound ≤ fuel → guardedLaunch.run {} fuel idle = (.success, s')) ∧
    ∃ s, Leads {} (guardedLaunch.start {} idle) (.running [GuardedLoop.inside 0], s) ∧
      (GuardedLoop.inside 0).replays = [⟨1, 0⟩] ∧ LoopOf {} guardedLaunch idle (some 1) 1 := by
  obtain ⟨⟨bound, outcome, s', hrun, hend, -⟩, -, hstands⟩ :=
    counted_runs_end {} guardedLaunch idle GuardedLoop.counted
  obtain ⟨s₁, -, -, s₄, hinside, -, -, hsix⟩ := GuardedLoop.run
  refine ⟨GuardedLoop.performs_head, ?_, s₁, hinside, rfl, ?_⟩
  · rw [Launch.run_eq] at hsix
    obtain ⟨rfl, rfl⟩ := hend.done_unique (leads_of_answer hsix nofun)
    exact ⟨bound, s', hrun⟩
  · obtain ⟨frame, n, count, hat, hn, -, hcount, hloop⟩ :=
      (hstands _ _ hinside).1 _ List.mem_cons_self ⟨1, 0⟩ List.mem_cons_self
    cases hat
    cases hn
    cases hcount
    exact hloop

end InputScript.Machine
