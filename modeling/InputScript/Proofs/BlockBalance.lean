import InputScript.Proofs.Lifetime
import InputScript.Proofs.Origin

/-!
# A script that succeeds is balanced

Each line of a script is dealt with in one of four ways: it is executed, it is skipped, it is stored
in the body of a loop, or it stands in a body after the line at which the loop was left.  However
this falls out, a script can only succeed if its blocks are in order from the first line to the
last.

The argument goes from the end of the run to its beginning.  The lines that a script has not read
yet must close the blocks that it is in (`Activation.Completes`).  This is so when the script is
over, and if it is so after a step it was so before: a line that is executed or skipped changes the
number of blocks as its first word says, a body is taken with the line that closes it, and inside of
a loop no line is read.

## Main results

* `Advanced.completes` — a line keeps the blocks and the lines to come in step.
* `balanced_of_success` — if a script succeeds without an `exit`, its first words are balanced.
-/

namespace InputScript

/-! ## First words -/

namespace Word

/-- A line as it is written: it has no characters of the shell and no comment at its end. -/
structure Bare (text : String) : Prop where
  unexpanded : needsShell text = false
  uncommented : ∀ code, command text = .ok code → code = text

theorem bare_of_isLiteral {text : String} (h : isLiteral text = true) : Bare text := by
  unfold isLiteral at h
  split at h
  · next code hcode =>
      simp only [Bool.and_eq_true, beq_iff_eq, Bool.not_eq_true'] at h
      obtain ⟨rfl, hplain⟩ := h
      exact ⟨hplain, fun _ hcommand => Except.ok.inj (hcommand.symm.trans hcode)⟩
  · cases h

end Word

variable {input input' : List RawLine} {next : Script.Next}

namespace Machine

open Device (Sink)
open Script (Line RawLine DecodeFault IsLine)

variable {σ ω : Type} {a a₁ b : Activation} {line : Line} {m : Move} {s s' : Session σ ω}

/-- The words of a bare line begin with its first word. -/
theorem firstWord_of_split [Host σ] {raws : List RawLine} {shell : String} {number : Option Nat}
    {words : List String} (hline : IsLine raws line) (hbare : Word.Bare line.text)
    (h : (Expansion.split shell line.text number).exec s = (.ok words, s')) :
    Word.firstWord line.text = .ok words.head? := by
  obtain ⟨code, hcommand, hwords⟩ := Expansion.split_ok h
  obtain rfl := hbare.uncommented code hcommand
  obtain ⟨_, _, _, text, -, -, -, htrim, hkept⟩ := hline
  rw [htrim] at hkept
  obtain ⟨c, rest, hcons, hblank⟩ := Text.trim_cons hkept
  rcases hwords with ⟨hshell, -⟩ | ⟨-, htokens, -⟩
  · rw [hbare.unexpanded] at hshell
    cases hshell
  · exact Word.firstWord_of_tokens (htrim ▸ hcons) hblank hbare.unexpanded htokens

/-! ## The lines ahead -/

namespace Feed

variable {f : Feed}

/-- The lines that a feed of its own has to come, up to one that cannot be decoded. -/
def ahead (f : Feed) : List Line × Option DecodeFault :=
  Script.readLinesFrom f.consumed (f.rest [])

theorem rest_of_own (h : f.pending.isSome = true) (input : List RawLine) :
    f.rest input = f.rest [] := by
  obtain ⟨source, hsource⟩ := Option.isSome_iff_exists.mp h
  rw [rest, rest, hsource]
  rfl

/-- Reading up to a line leaves the lines after it. -/
theorem ahead_skipPast {before rest : List Line} {fault : Option DecodeFault}
    (hown : f.pending.isSome = true) (h : f.ahead = (before ++ line :: rest, fault))
    (input : List RawLine) : (f.skipPast input line.number).1.ahead = (rest, fault) := by
  obtain ⟨⟨hlow, hhigh⟩, hafter⟩ := Script.readLinesFrom_after h
  obtain ⟨source, hsource⟩ := Option.isSome_iff_exists.mp hown
  have hrest : f.rest [] = source := by
    rw [Feed.rest, hsource]
    rfl
  rw [hrest] at hhigh hafter
  have hconsumed : (f.skipPast input line.number).1.consumed = line.number := by
    rw [skipPast, consumed_take, rest_of_own hown, hrest]
    omega
  rw [ahead, hconsumed, skipPast, take_of_pending hsource]
  exact hafter

/-- A script that was given its lines has a feed of its own. -/
theorem own_of_birth (h : b.birth = a.birth) (hown : a.feed.pending.isSome = true) :
    b.feed.pending.isSome = true := by
  have horigin := congrArg (fun r => Option.isSome r.2) h
  simp only [Activation.birth, origin, Option.isSome_map] at horigin
  rw [horigin]
  exact hown

end Feed

/-- A line that is read outside of all loops is the first of those ahead. -/
theorem ahead_of_fetch (hown : a.feed.pending.isSome = true) (hreplays : a.replays = [])
    (hfetch : a.fetch input = (.line line, a₁, input')) :
    a.feed.ahead = (line :: a₁.feed.ahead.1, a₁.feed.ahead.2) := by
  rw [fetch_of_feed hreplays, a.feed.rest_of_own hown] at hfetch
  obtain ⟨hnext, hrest⟩ := Prod.mk.inj hfetch
  obtain ⟨rfl, -⟩ := Prod.mk.inj hrest
  rcases hahead : a.feed.ahead with ⟨_ | ⟨first, rest⟩, fault⟩
  · cases fault with
    | none =>
        rw [Script.next_of_nil hahead] at hnext
        cases hnext
    | some fault =>
        rw [Script.next_of_fault hahead] at hnext
        cases hnext
  · have hfirst := (Script.next_of_cons hahead).1
    rw [hfirst] at hnext ⊢
    cases hnext
    have hahead' : a.feed.ahead = ([] ++ line :: rest, fault) := hahead
    rw [Feed.ahead_skipPast hown hahead' input]

/-- A script that reads to the end outside of all loops has no line ahead. -/
theorem ahead_of_end (hown : a.feed.pending.isSome = true) (hreplays : a.replays = [])
    (hfetch : a.fetch input = (.finished, a₁, input')) :
    a.feed.ahead = ([], none) := by
  rw [fetch_of_feed hreplays, a.feed.rest_of_own hown] at hfetch
  obtain ⟨hnext, -⟩ := Prod.mk.inj hfetch
  rcases hahead : a.feed.ahead with ⟨_ | ⟨first, rest⟩, fault⟩
  · cases fault with
    | none => rfl
    | some fault =>
        rw [Script.next_of_fault hahead] at hnext
        cases hnext
  · rw [(Script.next_of_cons hahead).1] at hnext
    cases hnext

/-- Reading outside of all loops changes the feed only. -/
theorem eq_of_fetch (hreplays : a.replays = []) (hfetch : a.fetch input = (next, a₁, input')) :
    a₁ = { a with feed := a₁.feed } := by
  rw [fetch_of_feed hreplays] at hfetch
  obtain ⟨-, hrest⟩ := Prod.mk.inj hfetch
  obtain ⟨rfl, -⟩ := Prod.mk.inj hrest
  rfl

/-- While a loop is replayed the feed is not read. -/
theorem feed_of_fetch (hreplays : a.replays ≠ []) (hfetch : a.fetch input = (next, a₁, input')) :
    a₁.feed = a.feed ∧ a₁.replays = a.replays := by
  unfold Activation.fetch at hfetch
  split at hfetch
  · split at hfetch
    · cases hfetch
      exact ⟨rfl, rfl⟩
    · split at hfetch <;> cases hfetch <;> exact ⟨rfl, rfl⟩
  · next hnil => exact absurd hnil hreplays

theorem feed_of_skipPast {rest : List Line} (hreplays : a.replays ≠ [])
    (hskip : a.skipPast input line rest = (a₁, input')) :
    a₁.feed = a.feed := by
  unfold Activation.skipPast at hskip
  split at hskip
  · split at hskip <;> cases hskip <;> rfl
  · next hnil => exact absurd hnil hreplays

/-! ## Open blocks -/

/-- The blocks that a script is in, as far as the lines count that it has read: outside of all loops
every one, those of skipped lines included; else those around the outermost loop, whose body was
read to its end. -/
def Activation.openBlocks (a : Activation) : Nat :=
  match a.replays.getLast? with
  | some outermost => outermost.base - 1
  | none => a.height + a.omission.elim 0 Omission.nesting

theorem openBlocks_of_nil (h : a.replays = []) :
    a.openBlocks = a.height + a.omission.elim 0 Omission.nesting := by
  rw [Activation.openBlocks, h]
  rfl

theorem openBlocks_of_executing {n : Nat} (h : a.replays = []) (homit : a.omission = none)
    (hheight : a.height = n) : a.openBlocks = n := by
  rw [openBlocks_of_nil h, homit]
  exact hheight

/-- Inside of a loop only the outermost one matters. -/
theorem openBlocks_congr (h : a.replays ≠ []) (hlast : b.replays.getLast? = a.replays.getLast?) :
    b.openBlocks = a.openBlocks := by
  have hsome := List.getLast?_eq_some_getLast h
  rw [Activation.openBlocks, Activation.openBlocks, hlast, hsome]

/-- Leaving loops does not matter for the lines that were read. -/
theorem openBlocks_leaveLoops [Host σ] {inherited : Option Countdown} {levels : Nat}
    {replays : List Replay} (haligned : Aligned a.frames replays)
    (h : (leaveLoops inherited a levels replays : Act σ ω _).exec s = (.ok (0, b), s')) :
    b.feed = a.feed ∧ b.openBlocks = ({ a with replays } : Activation).openBlocks := by
  induction replays generalizing a levels s with
  | nil => cases levels <;> cases h; exact ⟨rfl, rfl⟩
  | cons replay replays ih =>
      cases levels with
      | zero =>
          cases h
          exact ⟨rfl, rfl⟩
      | succ levels =>
          obtain ⟨_, _, _, h₁⟩ := Act.exec_bind_eq_ok.mp h
          obtain ⟨_, _, _, h₂⟩ := Act.exec_bind_eq_ok.mp h₁
          rw [haligned.cutTo_eq] at h₂
          obtain ⟨hfeed, hblocks⟩ := ih haligned.outside h₂
          refine ⟨hfeed, hblocks.trans ?_⟩
          cases replays with
          | nil =>
              have hbase := haligned.base_eq
              have hheight : (outsideLoop a.frames).length = replay.base - 1 := by omega
              exact hheight
          | cons outer replays =>
              refine (openBlocks_congr (List.cons_ne_nil outer replays) ?_).symm
              rw [List.getLast?_cons_cons]

/-! ## Lines that close the open blocks -/

/-- The lines ahead of a script close the blocks that it is in, and all of them can be decoded. -/
def Activation.Completes (a : Activation) : Prop :=
  a.feed.ahead.2 = none ∧ Closes a.openBlocks a.feed.ahead.1

/-- So do they together with a line before them, by its first word. -/
def Activation.CompletesAfter (line : Line) (a : Activation) : Prop :=
  a.feed.ahead.2 = none ∧ Closes a.openBlocks (line :: a.feed.ahead.1)

theorem Activation.Completes.congr (h : b.Completes) (hfeed : b.feed = a.feed)
    (hblocks : b.openBlocks = a.openBlocks) : a.Completes := by
  unfold Completes at h ⊢
  rw [← hfeed, ← hblocks]
  exact h

/-- A line that changes the number of blocks as its first word says. -/
theorem Activation.CompletesAfter.of_level {word : Option String} {n : Nat} (hb : b.Completes)
    (hfeed : b.feed = a.feed) (hblocks : b.openBlocks = n)
    (hword : Word.firstWord line.text = .ok word)
    (hlevel : (Mark.ofWord word).level a.openBlocks = some n) : a.CompletesAfter line := by
  obtain ⟨hdecoded, hcloses⟩ := hb
  rw [hfeed] at hdecoded hcloses
  rw [hblocks] at hcloses
  exact ⟨hdecoded, word, n, hword, hlevel, hcloses⟩

/-- Lines that close some blocks do so with a body and its end before them, and one block more. -/
theorem closes_of_rest {k n : Nat} {lines : List Line} {body : Body}
    (h : takeBody n lines = .ok body) (hrest : Closes k body.rest) : Closes (k + n + 1) lines := by
  induction lines generalizing n body with
  | nil => cases h
  | cons line rest ih =>
      obtain ⟨word, hword, ⟨rfl, hmark, rfl⟩ | ⟨l, inner, hlevel, hinner, rfl⟩⟩ := takeBody_cons h
      · exact ⟨word, k, hword, by rw [hmark]; rfl, hrest⟩
      · refine ⟨word, k + l + 1, hword, ?_, ih hinner hrest⟩
        cases hmark : Mark.ofWord word with
        | opener =>
            rw [hmark] at hlevel
            cases hlevel
            rfl
        | neutral =>
            rw [hmark] at hlevel
            cases hlevel
            rfl
        | closer =>
            rw [hmark] at hlevel
            cases n with
            | zero => cases hlevel
            | succ n =>
                cases hlevel
                rfl

/-! ## A step -/

theorem Omitted.completesAfter {o : Omission} (h : Omitted a o line s (.next b) s')
    (homit : a.omission = some o) (hbranch : ∃ c frames, a.frames = .cond c :: frames)
    (hreplays : a.replays = []) (hb : b.Completes) : a.CompletesAfter line := by
  have hblocks : a.openBlocks = a.height + o.nesting := by
    rw [openBlocks_of_nil hreplays, homit]
    rfl
  obtain ⟨c, frames, hframes⟩ := hbranch
  have hheight : a.height = frames.length + 1 := by
    rw [Activation.height, hframes]
    rfl
  cases h with
  | opener hword hmark =>
      refine .of_level hb rfl (openBlocks_of_nil hreplays) hword ?_
      rw [hmark, hblocks]
      rfl
  | inner hword hmark hnesting =>
      refine .of_level hb rfl (openBlocks_of_nil hreplays) hword ?_
      rw [hmark, hblocks, hnesting]
      rfl
  | close hword hmark hnesting =>
      have hpop : a.pop.height = frames.length := by
        rw [Activation.height, Activation.pop, hframes]
        rfl
      refine .of_level hb rfl (openBlocks_of_executing hreplays rfl hpop) hword ?_
      rw [hmark, hblocks, hnesting, hheight]
      rfl
  | otherwise hword hnesting _ =>
      have hsame : (if a.height = o.height then a.markElse else a).feed = a.feed ∧
          (if a.height = o.height then a.markElse else a).replays = [] ∧
          (if a.height = o.height then a.markElse else a).height = a.height := by
        split
        · exact ⟨a.feed_markElse, a.replays_markElse.trans hreplays, a.height_markElse⟩
        · exact ⟨rfl, hreplays, rfl⟩
      obtain ⟨hfeed, hnil, hkept⟩ := hsame
      refine .of_level hb hfeed (openBlocks_of_executing hnil rfl hkept) hword ?_
      rw [hblocks, hnesting]
      rfl
  | neutral hword hmark =>
      refine .of_level hb rfl rfl hword ?_
      rw [hmark]
      rfl

theorem Omitted.same_outside {o : Omission} (h : Omitted a o line s (.next b) s') :
    b.feed = a.feed ∧ b.replays = a.replays := by
  cases h with
  | opener _ _ => exact ⟨rfl, rfl⟩
  | inner _ _ _ => exact ⟨rfl, rfl⟩
  | close _ _ _ => exact ⟨rfl, rfl⟩
  | neutral _ _ => exact ⟨rfl, rfl⟩
  | otherwise _ _ _ =>
      split
      · exact ⟨a.feed_markElse, a.replays_markElse⟩
      · exact ⟨rfl, rfl⟩

section Performed

variable [Host σ] [Sink ω] {settings : Settings} {inherited : Option Countdown} {inv : Invocation}

/-- Outside of all loops a body is taken from the lines ahead. -/
theorem Collected.ahead {frame : LoopFrame} {body : Body} (hown : a.feed.pending.isSome = true)
    (hreplays : a.replays = []) (h : Collected (a.push (.loop frame)) input body a₁ input') :
    takeBody 0 a.feed.ahead.1 = .ok body ∧ a₁.feed.ahead = (body.rest, a.feed.ahead.2) := by
  obtain ⟨htaken, hskipped⟩ := h
  have hpushed : (a.push (.loop frame)).replays = [] := hreplays
  have hahead : (a.push (.loop frame)).upcoming input = a.feed.ahead := by
    rw [upcoming_of_feed hpushed]
    exact congrArg (Script.readLinesFrom a.feed.consumed) (a.feed.rest_of_own hown input)
  rw [hahead] at htaken
  rw [skipPast_of_feed hpushed] at hskipped
  obtain ⟨rfl, -⟩ := Prod.mk.inj hskipped
  have hlines : a.feed.ahead = (body.lines ++ body.closer :: body.rest, a.feed.ahead.2) := by
    rw [← takeBody_eq htaken]
  exact ⟨htaken, Feed.ahead_skipPast hown hlines input⟩

theorem Performed.completesAfter (h : Performed settings inherited a inv s m s')
    (hm : m.Continues b) (hown : a.feed.pending.isSome = true) (haligned : Aligned a.frames [])
    (hreplays : a.replays = []) (homit : a.omission = none)
    (hword : Word.firstWord line.text = .ok (some inv.verb.name)) (hb : b.Completes) :
    a.CompletesAfter line := by
  have hblocks := openBlocks_of_executing hreplays homit rfl
  have hmark := Mark.ofWord_name inv.verb
  have hstays : b = a → inv.verb ≠ .close → inv.verb.opensBlock = false →
      a.CompletesAfter line := by
    rintro rfl hclose hopens
    refine .of_level hb rfl rfl hword ?_
    rw [hmark, if_neg hclose, hopens]
    rfl
  cases h with
  | simple hverb _ =>
      rcases hm with hm | ⟨_, hm⟩ <;> cases hm
      refine hstays rfl ?_ ?_
      · intro hclose
        rw [hclose] at hverb
        cases hverb
      · exact Verb.opensBlock_of_not_isControl hverb
  | call hverb _ _ =>
      rcases hm with hm | ⟨_, hm⟩ <;> cases hm
      exact hstays rfl (by rw [hverb]; exact Verb.noConfusion) (by rw [hverb]; rfl)
  | @loop _ _ frame body a₁ _ _ hverb _ _ _ hbody _ =>
      rcases hm with hm | ⟨_, hm⟩ <;> cases hm
      obtain ⟨htaken, hahead⟩ := hbody.ahead hown hreplays
      obtain ⟨cursor, hframes, hsame, -, -⟩ := hbody.frames_eq (hreplays ▸ haligned)
      have hloop : (a₁.replaying frame body.lines).replays = [⟨a.height + 1, 0⟩] := by
        rw [(Activation.replaying_eq hframes).2, hsame, hreplays, length_moveCursor]
        rfl
      have hinside : (a₁.replaying frame body.lines).openBlocks = a.height := by
        rw [Activation.openBlocks, hloop]
        rfl
      have hfeed : (a₁.replaying frame body.lines).feed = a₁.feed := rfl
      obtain ⟨hdecoded, hcloses⟩ := hb
      rw [hfeed, hahead] at hdecoded hcloses
      rw [hinside] at hcloses
      refine ⟨hdecoded, _, a.height + 1, hword, ?_, closes_of_rest htaken hcloses⟩
      rw [hmark, hverb, hblocks]
      rfl
  | leave _ hlevels havailable _ =>
      have hnone : a.loops.length = 0 := by
        rw [a.loops_eq, haligned.loops_eq_nil]
        rfl
      have hpos := breakLevels_pos hlevels
      omega
  | @cond truth _ hverb _ _ =>
      have hpushed : b.feed = a.feed ∧ b.openBlocks = a.height + 1 := by
        cases truth <;> rcases hm with hm | ⟨_, hm⟩ <;> cases hm
        · exact ⟨rfl, openBlocks_of_nil hreplays⟩
        · exact ⟨rfl, openBlocks_of_executing hreplays homit rfl⟩
      refine .of_level hb hpushed.1 hpushed.2 hword ?_
      rw [hmark, hverb, hblocks]
      rfl
  | otherwise hverb hframes _ =>
      rcases hm with hm | ⟨_, hm⟩ <;> cases hm
      have hnil : (a.markElse.startOmission true).replays = [] :=
        a.replays_markElse.trans hreplays
      have hsame : (a.markElse.startOmission true).openBlocks = a.height :=
        (openBlocks_of_nil hnil).trans a.height_markElse
      refine .of_level hb a.feed_markElse hsame hword ?_
      rw [hmark, hverb, hblocks]
      rfl
  | @close c frames hverb hframes =>
      rcases hm with hm | ⟨_, hm⟩ <;> cases hm
      have hheight : a.height = frames.length + 1 := by
        rw [Activation.height, hframes]
        rfl
      have hpop : a.pop.height = frames.length := by
        rw [Activation.height, Activation.pop, hframes]
        rfl
      refine .of_level hb rfl (openBlocks_of_executing hreplays homit hpop) hword ?_
      rw [hmark, hverb, hblocks, hheight]
      rfl
  | exit _ _ => rcases hm with hm | ⟨_, hm⟩ <;> cases hm

/-- Inside of a loop a command changes nothing outside of it. -/
theorem Performed.same_outside (h : Performed settings inherited a inv s m s')
    (hm : m.Continues b) (haligned : Aligned a.frames a.replays) (hreplays : a.replays ≠ []) :
    b.feed = a.feed ∧ b.openBlocks = a.openBlocks := by
  have hkept : b.feed = a.feed ∧ b.replays = a.replays →
      b.feed = a.feed ∧ b.openBlocks = a.openBlocks := by
    rintro ⟨hfeed, hsame⟩
    exact ⟨hfeed, openBlocks_congr hreplays (by rw [hsame])⟩
  cases h with
  | simple _ _ =>
      rcases hm with hm | ⟨_, hm⟩ <;> cases hm
      exact ⟨rfl, rfl⟩
  | call _ _ _ =>
      rcases hm with hm | ⟨_, hm⟩ <;> cases hm
      exact ⟨rfl, rfl⟩
  | loop _ _ _ _ hbody _ =>
      rcases hm with hm | ⟨_, hm⟩ <;> cases hm
      obtain ⟨cursor, hframes, hsame, -, -⟩ := hbody.frames_eq haligned
      obtain ⟨-, hbase⟩ := Activation.replaying_eq hframes
      have hfeed := feed_of_skipPast (a := a.push _) hreplays hbody.skipped
      refine ⟨hfeed, openBlocks_congr hreplays ?_⟩
      rw [hbase, hsame]
      obtain ⟨replay, outer, hr⟩ := List.exists_cons_of_ne_nil hreplays
      rw [hr, List.getLast?_cons_cons]
  | leave _ _ _ hleave =>
      split at hm
      · next hzero =>
          rcases hm with hm | ⟨_, hm⟩ <;> cases hm
          rw [hzero] at hleave
          exact openBlocks_leaveLoops haligned hleave
      · rcases hm with hm | ⟨_, hm⟩ <;> cases hm
  | @cond truth _ _ _ _ =>
      cases truth <;> rcases hm with hm | ⟨_, hm⟩ <;> cases hm <;> exact hkept ⟨rfl, rfl⟩
  | otherwise _ hframes _ =>
      rcases hm with hm | ⟨_, hm⟩ <;> cases hm
      exact hkept ⟨a.feed_markElse, a.replays_markElse⟩
  | close _ _ =>
      rcases hm with hm | ⟨_, hm⟩ <;> cases hm
      exact hkept ⟨rfl, rfl⟩
  | exit _ _ => rcases hm with hm | ⟨_, hm⟩ <;> cases hm

omit [Sink ω] in
/-- The end of an iteration changes nothing outside of the loop. -/
theorem Iterated.same_outside {replay : Replay} {outer : List Replay}
    (h : Iterated inherited a replay outer s (.next b) s') (hsound : Sound a)
    (hrest : ∀ f fs, loopsOf a.frames = f :: fs → f.body.rest = [])
    (hreplays : a.replays = replay :: outer) :
    b.feed = a.feed ∧ b.openBlocks = a.openBlocks := by
  have haligned : Aligned a.frames (replay :: outer) := hreplays ▸ hsound.aligned
  have hne : a.replays ≠ [] := by
    rw [hreplays]
    exact List.cons_ne_nil _ _
  obtain ⟨homit, f, frames, hframes, hat, -, -, hbelow⟩ := hsound.at_end hrest hreplays
  cases h with
  | gone hgone =>
      rw [hat] at hgone
      cases hgone
  | finished _ _ _ hb _ =>
      rw [haligned.setLoopAt_eq, hframes] at hb
      subst hb
      refine ⟨rfl, ?_⟩
      cases outer with
      | nil =>
          have hbase := haligned.base_eq
          rw [hframes] at hbase
          have hlength : frames.length = replay.base - 1 := by
            rw [hbase]
            rfl
          have hblocks : a.openBlocks = replay.base - 1 := by
            rw [Activation.openBlocks, hreplays]
            rfl
          rw [hblocks]
          exact openBlocks_of_executing rfl homit hlength
      | cons next outer =>
          refine openBlocks_congr hne ?_
          rw [hreplays, List.getLast?_cons_cons]
  | continued _ _ _ hb _ =>
      subst hb
      refine ⟨rfl, ?_⟩
      cases outer with
      | nil =>
          rw [Activation.openBlocks, Activation.openBlocks, hreplays]
          rfl
      | cons next outer =>
          refine openBlocks_congr hne ?_
          rw [hreplays, List.getLast?_cons_cons, List.getLast?_cons_cons]

/-- A line that is read outside of all loops comes before the lines ahead. -/
theorem Activation.CompletesAfter.fetch (h : a₁.CompletesAfter line)
    (hown : a.feed.pending.isSome = true) (hreplays : a.replays = [])
    (hfetch : a.fetch input = (.line line, a₁, input')) : a.Completes := by
  have hblocks : a₁.openBlocks = a.openBlocks := by
    rw [eq_of_fetch hreplays hfetch]
    rfl
  obtain ⟨hdecoded, hcloses⟩ := h
  rw [hblocks] at hcloses
  rw [Completes, ahead_of_fetch hown hreplays hfetch]
  exact ⟨hdecoded, hcloses⟩

/-- A line of a body changes nothing outside of the loop if its command does not. -/
theorem Activation.Completes.fetch (h : b.Completes) (hreplays : a.replays ≠ [])
    (hfetch : a.fetch input = (next, a₁, input'))
    (hsame : b.feed = a₁.feed ∧ b.openBlocks = a₁.openBlocks) : a.Completes := by
  obtain ⟨hfeed, hkept⟩ := feed_of_fetch hreplays hfetch
  have hblocks : a₁.openBlocks = a.openBlocks := openBlocks_congr hreplays (by rw [hkept])
  exact h.congr (hsame.1.trans hfeed) (hsame.2.trans hblocks)

/-- A line keeps the blocks and the lines to come in step. -/
theorem Advanced.completes (h : Advanced settings inherited a s m s') (hm : m.Continues b)
    (hown : a.feed.pending.isSome = true) (hsound : Sound a)
    (hfirst : ∀ {line a₁ input words s₁}, a.fetch s.input = (.line line, a₁, input) →
      a₁.omission = none →
      (Expansion.split settings.shell line.text (some line.number)).exec { s with input } =
        (.ok words, s₁) → Word.firstWord line.text = .ok words.head?)
    (hb : b.Completes) : a.Completes := by
  cases h with
  | omitted hfetch homit hline =>
      obtain ⟨cursor, htook⟩ := took_of_fetch hsound.aligned hfetch
      obtain ⟨c, frames, -, htop⟩ := htook.branch hsound homit
      obtain rfl := hm.eq_next fun callee hcall => by subst hcall; cases hline
      by_cases hreplays : a.replays = []
      · have hafter := hline.completesAfter homit ⟨c, _, htop⟩ (htook.replays.trans hreplays) hb
        exact hafter.fetch hown hreplays hfetch
      · obtain ⟨hfeed, hkept⟩ := hline.same_outside
        have hne := htook.replays ▸ hreplays
        exact hb.fetch hreplays hfetch ⟨hfeed, openBlocks_congr hne (by rw [hkept])⟩
  | blank hfetch homit hsplit =>
      cases hm.eq_next fun callee hcall => nomatch hcall
      by_cases hreplays : a.replays = []
      · have hafter : b.CompletesAfter _ := .of_level hb rfl rfl (hfirst hfetch homit hsplit) rfl
        exact hafter.fetch hown hreplays hfetch
      · exact hb.fetch hreplays hfetch ⟨rfl, rfl⟩
  | @performed line a₁ input words inv _ _ _ hfetch homit hsplit hbind hline =>
      obtain ⟨cursor, htook⟩ := took_of_fetch hsound.aligned hfetch
      have haligned := htook.aligned hsound
      by_cases hreplays : a.replays = []
      · have hnil := htook.replays.trans hreplays
        have hword : Word.firstWord line.text = .ok (some inv.verb.name) := by
          rw [hfirst hfetch homit hsplit]
          cases words with
          | nil => cases hbind
          | cons name args =>
              rw [← Verb.name_of_ofName? (verb_of_bind hbind).1]
              rfl
        have hafter := hline.completesAfter hm
          (Feed.own_of_birth (Activation.birth_fetch hfetch) hown) (hnil ▸ haligned) hnil homit
          hword hb
        exact hafter.fetch hown hreplays hfetch
      · have hne := htook.replays ▸ hreplays
        exact hb.fetch hreplays hfetch (hline.same_outside hm haligned hne)
  | iterated hfetch hreplays hend =>
      obtain ⟨⟨hframes, hsame, homit⟩, hrest⟩ := ended_of_fetch hsound.aligned hfetch
      obtain rfl := hm.eq_next fun callee hcall => by subst hcall; cases hend
      have hsound₁ := hsound.congr hframes hsame homit
      have hne : a.replays ≠ [] := by
        rw [← hsame, hreplays]
        exact List.cons_ne_nil _ _
      exact hb.fetch hne hfetch (hend.same_outside hsound₁ (by rw [hframes]; exact hrest) hreplays)
  | finished _ _ _ _ => rcases hm with hm | ⟨_, hm⟩ <;> cases hm

/-- A script that is over without an `exit` has read all its lines and is in no block. -/
theorem Advanced.completes_of_leave (h : Advanced settings inherited a s .leave s')
    (hown : a.feed.pending.isSome = true) (hsound : Sound a)
    (hexit : ∀ {a₁ inv s₁}, NextCommand settings a s a₁ inv s₁ → inv.verb ≠ .exit) :
    a.Completes := by
  generalize hm : Move.leave = m at h
  cases h with
  | omitted _ _ hline => cases hline <;> cases hm
  | blank _ _ _ => cases hm
  | performed hfetch homit hsplit hbind hline =>
      cases hline with
      | exit hverb _ => exact absurd hverb (hexit (.intro hfetch homit hsplit hbind))
      | leave _ _ _ _ => split at hm <;> cases hm
      | simple _ _ | call _ _ _ | loop _ _ _ _ _ _ | cond _ _ _ | otherwise _ _ _ | close _ _ =>
          cases hm
  | iterated _ _ hend => cases hend <;> cases hm
  | finished hfetch hreplays hframes _ =>
      obtain ⟨⟨hkept, hsame, -⟩, -⟩ := ended_of_fetch hsound.aligned hfetch
      have hnil := hsame.symm.trans hreplays
      have homit : a.omission = none := by
        cases hcase : a.omission with
        | none => rfl
        | some o =>
            obtain ⟨c, frames, htop⟩ := hsound.branch (by rw [hcase]; rfl)
            rw [← hkept, hframes] at htop
            cases htop
      have hempty : a.height = 0 := by
        rw [Activation.height, ← hkept, hframes]
        rfl
      rw [Activation.Completes, ahead_of_end hown hnil hfetch,
        openBlocks_of_executing hnil homit hempty]
      exact ⟨rfl, rfl⟩

end Performed

/-! ## A run -/

section Run

variable [Host σ] [Sink ω] {settings : Settings} {source : String} {raws : List RawLine}
  {s₀ : Session σ ω}

/-- A line that the first script of a run executes is one of the lines that it was given. -/
theorem isLine_of_executes {callers : List Activation}
    (h : Executes settings ((Launch.script source { pending := some raws }).start settings s₀) line
      (b :: callers) s)
    (hbirth : b.birth = (freshScript source 0 { pending := some raws }).birth) :
    IsLine raws line := by
  obtain ⟨hleads, hfetch, -⟩ := h
  obtain ⟨hgrounded, -⟩ := grounded_of_leads hleads _ List.mem_cons_self
  have hread := (hgrounded.fetch hfetch).2.1 line rfl
  have horigin : b.feed.origin = some raws := (Prod.mk.inj hbirth).2
  obtain ⟨rest, -, happend⟩ := Option.map_eq_some_iff.mp horigin
  rw [← happend]
  exact hread.append rest

/-- From every point of a run that succeeds, the first script has the lines ahead that it needs. -/
theorem completes_of_success (hbare : ∀ line, IsLine raws line → Word.Bare line.text)
    (hexit : ∀ inv a s, Performs settings (.script source { pending := some raws }) s₀ inv [a] s →
      inv.verb ≠ .exit)
    {fuel : Nat} {upper : List Activation}
    (hleads : Leads settings ((Launch.script source { pending := some raws }).start settings s₀)
      (.running (upper ++ [a]), s))
    (hbirth : a.birth = (freshScript source 0 { pending := some raws }).birth)
    (hrun : run settings fuel (upper ++ [a]) s = (.success, s')) : a.Completes := by
  have hplain : SplitsInProcess settings
      ((Launch.script source { pending := some raws }).start settings s₀)
      (freshScript source 0 { pending := some raws }).birth :=
    fun line b callers s hline hb => (hbare line (isLine_of_executes hline hb)).unexpanded
  induction fuel generalizing upper a s with
  | zero => cases hrun
  | succ fuel ih =>
      have hsound := sound_of_birth hplain hleads a (by simp) hbirth
      have hown : a.feed.pending.isSome = true := Feed.own_of_birth hbirth rfl
      rw [run] at hrun
      rcases hstep : step settings (upper ++ [a]) s with ⟨next | outcome, s₁⟩
      · rw [hstep] at hrun
        have hne : next ≠ [] := running_ne_nil hstep
        obtain ⟨above, b, rfl⟩ := (List.eq_nil_or_concat next).resolve_left hne
        rw [List.concat_eq_append] at hstep hrun
        rcases came_of_step hstep with ⟨above', a', hpos, hcame⟩ | ⟨-, hcallers⟩
        case inr => exact absurd rfl hcallers
        obtain ⟨rfl, hlast⟩ := List.append_inj' hpos rfl
        cases hlast
        have hb := ih (hleads.trans (hstep ▸ Leads.step _ s)) (hcame.birth_eq.trans hbirth) hrun
        cases hcame with
        | waited => exact hb
        | moved hadvanced hm =>
            refine hadvanced.completes hm hown hsound (fun hfetch homit hsplit => ?_) hb
            have hline := isLine_of_executes (.intro hleads hfetch homit)
              ((Activation.birth_fetch hfetch).trans hbirth)
            exact firstWord_of_split hline (hbare _ hline) hsplit
        | unwound hleave =>
            obtain ⟨hfeed, hblocks⟩ := openBlocks_leaveLoops hsound.aligned hleave
            exact hb.congr hfeed hblocks
      · rw [hstep] at hrun
        cases hrun
        cases upper with
        | cons x upper =>
            obtain ⟨hnil, -⟩ := last_of_success hstep
            cases upper <;> cases hnil
        | nil =>
            obtain ⟨-, hadvanced⟩ := last_of_success hstep
            exact hadvanced.completes_of_leave hown hsound fun hnext =>
              hexit _ _ _ (performs_of_line hleads hnext)

/-! ## First words in order -/

/-- A line changes the number of open blocks as its first word says. -/
theorem Mark.level_count {word : Option String} {n l : Nat}
    (h : (Mark.ofWord word).level n = some l) :
    l + [word].count (some Verb.close.name) =
      n + [word].count (some Verb.loop.name) + [word].count (some Verb.cond.name) := by
  cases word with
  | none =>
      cases h
      rfl
  | some name =>
      cases hverb : Verb.ofName? name with
      | none =>
          have hmark : Mark.ofWord (some name) = .neutral := by rw [Mark.ofWord, hverb]
          have hzero : ∀ verb : Verb, [some name].count (some verb.name) = 0 := by
            intro verb
            refine List.count_eq_zero.mpr fun hmem => ?_
            rw [← Option.some.inj (List.mem_singleton.mp hmem), Verb.ofName?_name] at hverb
            cases hverb
          rw [hmark] at h
          cases h
          rw [hzero, hzero, hzero]
      | some verb =>
          obtain rfl := Verb.name_of_ofName? hverb
          have hone : ∀ other : Verb, [some verb.name].count (some other.name) =
              if verb = other then 1 else 0 := by
            intro other
            split
            · next hsame => rw [hsame, List.count_singleton_self]
            · next hother =>
                refine List.count_eq_zero.mpr fun hmem => hother ?_
                rw [← Option.some.inj (List.mem_singleton.mp hmem), Verb.ofName?_name] at hverb
                exact (Option.some.inj hverb).symm
          rw [hone, hone, hone]
          rw [Mark.ofWord_name] at h
          cases verb with
          | close =>
              cases n with
              | zero => cases h
              | succ n =>
                  cases h
                  rfl
          | _ =>
              cases h
              rfl

/-- Lines that close some blocks have first words that count. -/
theorem Closes.counts {n : Nat} {lines : List Line} (h : Closes n lines) :
    ∃ words : List (Option String),
      lines.map (fun line => Word.firstWord line.text) = words.map .ok ∧
      (∀ k, (words.take k).count (some Verb.close.name) ≤
        n + (words.take k).count (some Verb.loop.name) +
          (words.take k).count (some Verb.cond.name)) ∧
      words.count (some Verb.close.name) =
        n + words.count (some Verb.loop.name) + words.count (some Verb.cond.name) := by
  induction lines generalizing n with
  | nil =>
      obtain rfl : n = 0 := h
      exact ⟨[], rfl, fun k => by simp, rfl⟩
  | cons line lines ih =>
      obtain ⟨word, l, hword, hlevel, hrest⟩ := h
      obtain ⟨words, hwords, hprefixes, htotals⟩ := ih hrest
      have hcount := Mark.level_count hlevel
      refine ⟨word :: words, by rw [List.map_cons, List.map_cons, hword, hwords], fun k => ?_, ?_⟩
      · cases k with
        | zero => simp
        | succ k =>
            have hk := hprefixes k
            rw [List.take_succ_cons]
            simp only [List.count_cons, List.count_nil] at hcount ⊢
            omega
      · simp only [List.count_cons, List.count_nil] at hcount ⊢
        omega

/-- **A script that succeeds is balanced**.  Let the lines of a script be bare, and let it succeed
without having executed an `exit` itself.  Then all its lines can be decoded and have a first word
to go by; in every part from the first line on there are at most as many that close a block as there
are that open one, and in the whole text as many.  What the scripts do that it calls does not
matter. -/
theorem balanced_of_success (settings : Settings) (source : String) (raws : List RawLine)
    (s₀ : Session σ ω) (fuel : Nat) (s' : Session σ ω)
    (hbare : ∀ line, IsLine raws line → Word.Bare line.text)
    (hexit : ∀ inv a s, Performs settings (.script source { pending := some raws }) s₀ inv [a] s →
      inv.verb ≠ .exit)
    (hrun : (Launch.script source { pending := some raws }).run settings fuel s₀ = (.success, s')) :
    (Script.readLines raws).2 = none ∧
      ∃ words : List (Option String),
        (Script.readLines raws).1.map (fun line => Word.firstWord line.text) = words.map .ok ∧
        (∀ k, (words.take k).count (some Verb.close.name) ≤
          (words.take k).count (some Verb.loop.name) +
            (words.take k).count (some Verb.cond.name)) ∧
        words.count (some Verb.close.name) =
          words.count (some Verb.loop.name) + words.count (some Verb.cond.name) := by
  have hrun' : run settings fuel ([] ++ [freshScript source 0 { pending := some raws }])
      { s₀ with journal := .scriptStarted source 0 :: s₀.journal } = (.success, s') := hrun
  obtain ⟨hdecoded, hcloses⟩ := completes_of_success hbare hexit (.refl _) rfl hrun'
  have hwhole : Closes 0 (Script.readLines raws).1 := hcloses
  obtain ⟨words, hwords, hprefixes, htotals⟩ := hwhole.counts
  refine ⟨hdecoded, words, hwords, fun k => ?_, ?_⟩
  · have hk := hprefixes k
    rwa [Nat.zero_add] at hk
  · rwa [Nat.zero_add] at htotals

end Run

/-- The script that skips a branch in a loop succeeds, and the first words of its lines are
balanced, that of the line that was never executed included. -/
theorem balanced_of_success_guardedLoop :
    (∃ s', guardedLaunch.run {} 6 idle = (.success, s')) ∧
      (Script.readLines guardedLoop).2 = none ∧
      ∃ words : List (Option String),
        (Script.readLines guardedLoop).1.map (fun line => Word.firstWord line.text) =
          words.map .ok ∧
        (∀ k, (words.take k).count (some Verb.close.name) ≤
          (words.take k).count (some Verb.loop.name) +
            (words.take k).count (some Verb.cond.name)) ∧
        words.count (some Verb.close.name) =
          words.count (some Verb.loop.name) + words.count (some Verb.cond.name) := by
  obtain ⟨_, _, _, s', -, -, -, hrun⟩ := GuardedLoop.run
  have hbare : ∀ line, IsLine guardedLoop line → Word.Bare line.text := by
    rintro line ⟨before, raw, after, text, hlines, -, hdecode, htrim, -⟩
    have hmem : raw ∈ guardedLoop := by
      rw [hlines]
      exact List.mem_append_right _ List.mem_cons_self
    rw [htrim]
    refine Word.bare_of_isLiteral ?_
    simp only [guardedLoop, List.mem_cons, List.not_mem_nil, or_false] at hmem
    rcases hmem with rfl | rfl | rfl | rfl | rfl <;> cases hdecode <;> decide +kernel
  have hexit : ∀ inv a s, Performs {} guardedLaunch idle inv [a] s → inv.verb ≠ .exit := by
    rintro inv a s ⟨hwords, hcommand⟩ hverb
    obtain ⟨hbind, -⟩ := commandOf_ok hcommand
    rcases GuardedLoop.dispatches hwords with rfl | rfl
    · have hname := (verb_of_bind hbind).1
      rw [hverb] at hname
      cases hname
    · have hname := (verb_of_bind hbind).1
      rw [hverb] at hname
      cases hname
  exact ⟨⟨s', hrun⟩, balanced_of_success {} "main" guardedLoop idle 6 s' hbare hexit hrun⟩

end Machine

end InputScript
