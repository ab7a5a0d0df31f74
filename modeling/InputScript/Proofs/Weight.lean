import Mathlib.Tactic.Ring
import InputScript.Proofs.Intake
import InputScript.Proofs.LoopCounts

/-!
# The weight of a script

A script whose loops are all counted gets lighter with every line, though a loop makes it longer: the
lines of a body are to be read again and again.  The weight of the lines to come is therefore a power
with their number as exponent.  A body is taken out of the lines of its source together with the line
that closes it, so source and body both have fewer lines than the source had, and the base is large
enough for the greatest count that a line can give.

## Main results

* `loop_le` — a source outweighs what is left of it and all iterations of a body that is taken out.
* `Advanced.lighter` — a script is lighter after a line than it was before.
-/

namespace InputScript

/-! ## Numbers of lines -/

/-- Each line has a physical line of its own. -/
theorem Script.length_lt_number {consumed : Nat} {source : List RawLine} {before after : List Line}
    {line : Line} {fault : Option DecodeFault}
    (h : readLinesFrom consumed source = (before ++ line :: after, fault)) :
    consumed + before.length < line.number := by
  induction before generalizing consumed source with
  | nil => exact (readLinesFrom_after h).1.1
  | cons first before ih =>
      obtain ⟨-, hfirst, hrest⟩ := next_of_cons h
      have hlater := ih hrest
      rw [List.length_cons]
      omega

namespace Machine

open Device (Sink)
open Script (Line RawLine)

/-! ## Weights -/

/-- The greatest count that a `loop` line can give. -/
def countLimit : Nat := Argument.int32Max.toNat

/-- A count is within the range of integers. -/
theorem CountsTo.le {inv : Invocation} {n : Nat} (h : CountsTo inv n) : n ≤ countLimit := by
  obtain ⟨text, -, hpositive⟩ := h
  unfold Argument.positive Argument.integer at hpositive
  cases hread : Number.readInt? (Text.trim text) with
  | none =>
      rw [hread] at hpositive
      cases hpositive
  | some z =>
      rw [hread] at hpositive
      dsimp only at hpositive
      split at hpositive
      · next hrange =>
          simp only [bind, Except.bind] at hpositive
          split at hpositive
          · cases hpositive
          · cases hpositive
            exact Int.toNat_le_toNat hrange.2
      · cases hpositive

/-- The weight of a number of lines to come. -/
def lineWeight (count : Nat) : Nat := (2 * countLimit + 1) ^ count

theorem lineWeight_pos (count : Nat) : 0 < lineWeight count :=
  Nat.pow_pos (Nat.succ_pos _)

theorem lineWeight_le {m n : Nat} (h : m ≤ n) : lineWeight m ≤ lineWeight n :=
  Nat.pow_le_pow_right (Nat.succ_pos _) h

theorem lineWeight_lt {m n : Nat} (h : m < n) : lineWeight m < lineWeight n := by
  have hbase : 1 < 2 * countLimit + 1 := by decide
  exact Nat.pow_lt_pow_right hbase h

/-- The weight of a loop: of what is to come in this iteration, and of the iterations after it. -/
def LoopFrame.weight (f : LoopFrame) : Nat :=
  lineWeight f.body.rest.length +
    (f.remaining.getD 0 - 1) * (lineWeight f.body.lines.length + 1)

/-- A source outweighs what is left of it and all iterations of a body that is taken out. -/
theorem loop_le {lines inner left n : Nat} (hlines : inner + 1 + left ≤ lines)
    (hn : n ≤ countLimit) :
    lineWeight left + (lineWeight inner + (n - 1) * (lineWeight inner + 1)) + 1 ≤
      lineWeight lines := by
  obtain ⟨k, rfl⟩ : ∃ k, lines = k + 1 := ⟨lines - 1, by omega⟩
  have hleft : lineWeight left ≤ lineWeight k := lineWeight_le (by omega)
  have hinner : lineWeight inner ≤ lineWeight k := lineWeight_le (by omega)
  have hone : 1 ≤ lineWeight k := lineWeight_pos k
  have hbase : 2 * (n - 1) + 3 ≤ 2 * countLimit + 1 := by
    have hlimit : 1 ≤ countLimit := by decide
    omega
  calc lineWeight left + (lineWeight inner + (n - 1) * (lineWeight inner + 1)) + 1
      ≤ lineWeight k + (lineWeight k + (n - 1) * (lineWeight k + lineWeight k)) + lineWeight k := by
        gcongr
    _ = (2 * (n - 1) + 3) * lineWeight k := by ring
    _ ≤ (2 * countLimit + 1) * lineWeight k := Nat.mul_le_mul_right _ hbase
    _ = lineWeight (k + 1) := by
        unfold lineWeight
        ring

namespace LoopFrame

variable {f g : LoopFrame}

theorem weight_le (hrest : g.body.rest.length ≤ f.body.rest.length)
    (hlines : g.body.lines.length ≤ f.body.lines.length)
    (hremaining : g.remaining.getD 0 ≤ f.remaining.getD 0) : g.weight ≤ f.weight := by
  have hnow := lineWeight_le hrest
  have hlater := lineWeight_le hlines
  unfold weight
  gcongr

/-- An iteration more weighs as much as the body. -/
theorem weight_again {n : Nat} (hn : f.remaining = some n) (hmore : n - 1 ≠ 0) :
    ({ f with remaining := f.remaining.map (· - 1), body := f.body.rewind } : LoopFrame).weight <
      f.weight := by
  have hpos := lineWeight_pos f.body.rest.length
  obtain ⟨m, rfl⟩ : ∃ m, n = m + 2 := ⟨n - 2, by omega⟩
  unfold weight
  rw [hn]
  show lineWeight f.body.lines.length + m * (lineWeight f.body.lines.length + 1) <
    lineWeight f.body.rest.length + (m + 1) * (lineWeight f.body.lines.length + 1)
  rw [Nat.add_mul m 1]
  omega

end LoopFrame

/-- The weight of a block. -/
def Frame.weight : Frame → Nat
  | .loop f => f.weight
  | .cond _ => 0

/-- The weight of the blocks that a script is in. -/
def framesWeight (frames : List Frame) : Nat := (frames.map Frame.weight).sum

theorem framesWeight_suffix {frames frames' : List Frame} (h : frames' <:+ frames) :
    framesWeight frames' ≤ framesWeight frames := by
  obtain ⟨above, rfl⟩ := h
  simp [framesWeight]

theorem framesWeight_set {frames : List Frame} {index : Nat} {old : Frame}
    (h : frames[index]? = some old) (new : Frame) :
    framesWeight (frames.set index new) + old.weight = framesWeight frames + new.weight := by
  unfold framesWeight
  induction frames generalizing index with
  | nil => cases h
  | cons frame frames ih =>
      cases index with
      | zero =>
          cases h
          simp only [List.set_cons_zero, List.map_cons, List.sum_cons]
          omega
      | succ index =>
          have htail := ih h
          simp only [List.set_cons_succ, List.map_cons, List.sum_cons]
          omega

namespace Activation

variable {a b : Activation} {base : Nat} {f : LoopFrame} {input input' : List RawLine}

/-- The weight of a script: of the physical lines to come, of its blocks, and one for each loop. -/
def weight (a : Activation) (input : List RawLine) : Nat :=
  lineWeight (a.feed.rest input).length + framesWeight a.frames + a.replays.length

theorem framesWeight_setLoopAt (h : a.loopAt? base = some f) (g : LoopFrame) :
    framesWeight (a.setLoopAt base g).frames + f.weight = framesWeight a.frames + g.weight := by
  obtain ⟨frame, hframe, hloop⟩ := Option.bind_eq_some_iff.mp h
  cases frame with
  | cond c => cases hloop
  | loop f' =>
      cases hloop
      exact framesWeight_set hframe (.loop g)

theorem framesWeight_markElse (a : Activation) :
    framesWeight a.markElse.frames = framesWeight a.frames := by
  unfold markElse
  split
  · next c frames hframes =>
      rw [hframes]
      rfl
  · rfl

/-- What is read makes a script lighter, and so does what is left. -/
theorem weight_le (hreads : a.feed.Reads input b.feed input')
    (hframes : framesWeight b.frames ≤ framesWeight a.frames)
    (hreplays : b.replays.length ≤ a.replays.length) : b.weight input' ≤ a.weight input := by
  have hrest : (b.feed.rest input').length ≤ (a.feed.rest input).length := by
    obtain ⟨count, htake⟩ := hreads
    have hdrop := a.feed.rest_take input count
    rw [htake] at hdrop
    rw [hdrop, List.length_drop]
    omega
  have hlines := lineWeight_le hrest
  unfold weight
  omega

/-- The standard input may have been read by others. -/
theorem weight_mono (a : Activation) (h : input'.length ≤ input.length) :
    a.weight input' ≤ a.weight input := by
  have hrest : (a.feed.rest input').length ≤ (a.feed.rest input).length := by
    unfold Feed.rest
    cases a.feed.pending with
    | none => exact h
    | some source => exact Nat.le_refl _
  have hlines := lineWeight_le hrest
  unfold weight
  omega

/-- Something was read from the lines to come of a source, which were `before` and are `left`. -/
def Consumes (a : Activation) (input : List RawLine) (b : Activation) (input' : List RawLine)
    (before left : Nat) : Prop :=
  b.weight input' + lineWeight before = a.weight input + lineWeight left

/-- Reading from the source of the script. -/
theorem consumes_feed (a : Activation) (input : List RawLine) (count : Nat) :
    a.Consumes input { a with feed := (a.feed.take input count).1 } (a.feed.take input count).2
      (a.feed.rest input).length ((a.feed.rest input).length - count) := by
  unfold Consumes weight
  dsimp only
  rw [a.feed.rest_take, List.length_drop]
  omega

/-- Reading from a body. -/
theorem consumes_body (h : a.loopAt? base = some f) (input : List RawLine) (cursor : Nat) :
    a.Consumes input (a.setLoopAt base { f with body := { f.body with cursor } }) input
      f.body.rest.length ({ f.body with cursor } : Script.Scratch).rest.length := by
  have hframes := framesWeight_setLoopAt h { f with body := { f.body with cursor } }
  have hfeed : (a.setLoopAt base { f with body := { f.body with cursor } }).feed = a.feed := rfl
  have hreplays : (a.setLoopAt base { f with body := { f.body with cursor } }).replays =
      a.replays := rfl
  unfold LoopFrame.weight at hframes
  dsimp only at hframes hfeed hreplays ⊢
  unfold Consumes weight
  rw [hfeed, hreplays]
  omega

/-- A line that is fetched makes the script lighter. -/
theorem weight_fetch {line : Line} (h : a.fetch input = (.line line, b, input')) :
    b.weight input' < a.weight input := by
  obtain ⟨before, left, hlt, hconsumes⟩ :
      ∃ before left, left < before ∧ a.Consumes input b input' before left := by
    unfold fetch at h
    split at h
    · next replay outer hreplays =>
        split at h
        · cases h
        · next frame hat =>
            split at h
            · next _ body hadvance =>
                cases h
                obtain ⟨rfl, hrest⟩ := rest_of_advance hadvance
                refine ⟨_, _, ?_, consumes_body hat input _⟩
                rw [hrest]
                exact Nat.lt_succ_self _
            · cases h
    · next hreplays =>
        obtain ⟨hnext, hfed⟩ := Prod.mk.inj h
        cases hfed
        refine ⟨_, _, ?_, a.consumes_feed input _⟩
        rcases hread : Script.readLinesFrom a.feed.consumed (a.feed.rest input) with
          ⟨_ | ⟨first, rest⟩, fault⟩
        · cases fault with
          | none =>
              rw [Script.next_of_nil hread] at hnext
              cases hnext
          | some fault =>
              rw [Script.next_of_fault hread] at hnext
              cases hnext
        · obtain ⟨hfirst, hnumber, -⟩ := Script.next_of_cons hread
          rw [hfirst]
          dsimp only
          omega
  have hweight := lineWeight_lt hlt
  unfold Consumes at hconsumes
  omega

/-- A script does not get heavier where it finds no line. -/
theorem weight_end (h : a.fetch input = (.finished, b, input')) :
    b.weight input' ≤ a.weight input := by
  have hsame : b.frames = a.frames ∧ b.replays = a.replays := by
    unfold fetch at h
    split at h
    · split at h
      · cases h
        exact ⟨rfl, rfl⟩
      · split at h
        · cases h
        · cases h
          exact ⟨rfl, rfl⟩
    · obtain ⟨-, hfed⟩ := Prod.mk.inj h
      cases hfed
      exact ⟨rfl, rfl⟩
  refine weight_le (reads_of_fetch h) ?_ ?_
  · rw [hsame.1]
  · rw [hsame.2]

/-- A loop that was entered weighs what its iterations weigh, and one. -/
theorem weight_replaying (a : Activation) (frame : LoopFrame) (lines : List Line) :
    ((a.push (.loop frame)).replaying frame lines).weight input =
      a.weight input + (lineWeight lines.length +
        (frame.remaining.getD 0 - 1) * (lineWeight lines.length + 1)) + 1 := by
  have hpushed : (a.push (.loop frame)).frames = .loop frame :: a.frames := rfl
  obtain ⟨hframes, hreplays⟩ :
      ((a.push (.loop frame)).replaying frame lines).frames =
        .loop { frame with body := { lines } } :: a.frames ∧
      ((a.push (.loop frame)).replaying frame lines).replays =
        ⟨a.frames.length + 1, 0⟩ :: a.replays := replaying_eq hpushed
  unfold weight
  rw [hframes, hreplays]
  show lineWeight (a.feed.rest input).length +
      (lineWeight lines.length + (frame.remaining.getD 0 - 1) * (lineWeight lines.length + 1) +
        framesWeight a.frames) + (a.replays.length + 1) = _
  omega

end Activation

/-! ## Bodies -/

section Bodies

variable {counted : Option Nat → Nat → Prop} {a a₁ : Activation} {frame : LoopFrame}
  {input input' : List RawLine} {body : Body}

/-- A body is shorter than what it is collected from. -/
theorem Collected.length_lt (h : Rooted counted a)
    (hbody : Collected (a.push (.loop frame)) input body a₁ input') :
    body.lines.length < (a.upcoming input).1.length := by
  have htaken := takeBody_eq hbody.taken
  rw [a.upcoming_push _ _ h.low] at htaken
  rw [htaken, List.length_append, List.length_cons]
  omega

/-- Collecting a body reads it and the line that closes it. -/
theorem Collected.consumes (h : Rooted counted a)
    (hbody : Collected (a.push (.loop frame)) input body a₁ input') :
    ∃ b before left, a₁ = b.push (.loop frame) ∧ body.lines.length + 1 + left ≤ before ∧
      a.Consumes input b input' before left := by
  have htaken := takeBody_eq hbody.taken
  have hskipped := hbody.skipped
  rw [a.upcoming_push _ _ h.low] at htaken
  cases hreplays : a.replays with
  | nil =>
      rw [upcoming_of_feed hreplays] at htaken
      rw [skipPast_of_feed (show (a.push (.loop frame)).replays = [] from hreplays)] at hskipped
      cases hskipped
      refine ⟨_, _, _, rfl, ?_, a.consumes_feed input (body.closer.number - a.feed.consumed)⟩
      have hread : Script.readLinesFrom a.feed.consumed (a.feed.rest input) =
          (body.lines ++ body.closer :: body.rest, _) := Prod.ext htaken rfl
      have hnumber := Script.length_lt_number hread
      have hbounds := (Script.readLinesFrom_after hread).1
      omega
  | cons replay outer =>
      have hlow : replay.base ≤ a.height := h.low replay (hreplays ▸ List.mem_cons_self)
      obtain ⟨f, hat, -⟩ := h.stands replay (hreplays ▸ List.mem_cons_self)
      have hpushed : (a.push (.loop frame)).replays = replay :: outer := hreplays
      simp only [Activation.upcoming, hreplays, hat] at htaken
      simp only [Activation.skipPast, hpushed, a.loopAt?_push _ hlow, hat] at hskipped
      obtain ⟨rfl, rfl⟩ := Prod.mk.inj hskipped
      refine ⟨_, _, _, a.setLoopAt_push _ hlow _, ?_, Activation.consumes_body hat input _⟩
      have hrest : f.body.rest = (body.lines ++ [body.closer]) ++ body.rest := by
        rw [htaken]
        simp
      have hleft := rest_cursorBefore hrest
      unfold cursorBefore at hleft
      rw [hleft, hrest]
      simp only [List.length_append, List.length_cons, List.length_nil]
      omega

/-- Entering a loop makes a script no heavier. -/
theorem Collected.weight_le (h : Rooted counted a)
    (hbody : Collected (a.push (.loop frame)) input body a₁ input') {n : Nat}
    (hremaining : frame.remaining = some n) (hn : n ≤ countLimit) :
    (a₁.replaying frame body.lines).weight input' ≤ a.weight input := by
  obtain ⟨b, before, left, rfl, hlength, hconsumes⟩ := hbody.consumes h
  have houtweighs := loop_le hlength hn
  unfold Activation.Consumes at hconsumes
  rw [b.weight_replaying, hremaining, Option.getD_some]
  omega

end Bodies

/-! ## Lines -/

/-- The script that goes on after a move has at most some weight. -/
def Move.Weighs (bound : Nat) (input : List RawLine) : Move → Prop
  | .next b => b.weight input ≤ bound
  | .call _ b => b.weight input ≤ bound
  | .leave | .unwind _ => True

variable {σ ω : Type} {counted : Option Nat → Nat → Prop} {a a' : Activation} {m : Move}
  {s s' : Session σ ω} {inherited : Option Countdown}

theorem Omitted.weighs {o : Omission} {line : Line} (h : Omitted a o line s m s') :
    m.Weighs (a.weight s.input) s'.input := by
  cases h with
  | opener _ _ => exact Nat.le_refl _
  | inner _ _ _ => exact Nat.le_refl _
  | neutral _ _ => exact Nat.le_refl _
  | close _ _ _ =>
      have hframes : framesWeight a.pop.frames ≤ framesWeight a.frames :=
        framesWeight_suffix (List.drop_suffix 1 a.frames)
      exact Activation.weight_le (.refl _ _) hframes (Nat.le_refl _)
  | otherwise _ _ _ =>
      have hweight : (if a.height = o.height then a.markElse else a).weight s.input =
          a.weight s.input := by
        split
        · unfold Activation.weight
          rw [a.feed_markElse, a.framesWeight_markElse, a.replays_markElse]
        · rfl
      exact Nat.le_of_eq hweight

section Host

variable [Host σ]

/-- The end of an iteration takes the next one off the weight of the loop, or the loop. -/
theorem Iterated.lighter {replay : Replay} {outer : List Replay}
    (hend : Iterated inherited a replay outer s m s') (h : Rooted counted a)
    (hreplays : a.replays = replay :: outer) :
    ∃ bound < a.weight s.input, m.Weighs bound s'.input := by
  have hinput := hend.fed.2
  have hcount : a.replays.length = outer.length + 1 := by
    rw [hreplays]
    rfl
  refine ⟨a.weight s.input - 1, ?_, ?_⟩
  · unfold Activation.weight
    omega
  rw [hinput]
  cases hend with
  | gone _ =>
      show lineWeight (a.feed.rest s.input).length + framesWeight a.frames + outer.length ≤ _
      unfold Activation.weight
      omega
  | @finished frame _ _ _ _ hframe _ _ ha' _ =>
      subst ha'
      have hset := Activation.framesWeight_setLoopAt hframe
        { frame with
          remaining := frame.remaining.map (· - 1)
          body := frame.body.truncate }
      have hpop := framesWeight_suffix (List.drop_suffix 1 (a.setLoopAt replay.base
        { frame with
          remaining := frame.remaining.map (· - 1)
          body := frame.body.truncate }).frames)
      have hlast : LoopFrame.weight
          { frame with
            remaining := frame.remaining.map (· - 1)
            body := frame.body.truncate } ≤ frame.weight := by
        refine LoopFrame.weight_le (Nat.zero_le _) (Nat.zero_le _) ?_
        cases frame.remaining with
        | none => exact Nat.le_refl _
        | some n => exact Nat.sub_le n 1
      show lineWeight (a.feed.rest s.input).length + framesWeight ((a.setLoopAt replay.base
        { frame with
          remaining := frame.remaining.map (· - 1)
          body := frame.body.truncate }).frames.drop 1) + outer.length ≤ _
      unfold Activation.weight
      omega
  | @continued frame _ _ _ hframe _ hmore ha' _ =>
      subst ha'
      obtain ⟨f, hat, n, hn, -, -⟩ := h.stands replay (hreplays ▸ List.mem_cons_self)
      rw [hframe] at hat
      cases hat
      have hset := Activation.framesWeight_setLoopAt hframe
        { frame with
          remaining := frame.remaining.map (· - 1)
          body := frame.body.rewind }
      have hagain := LoopFrame.weight_again hn fun hzero => hmore (by rw [hn]; exact congrArg some hzero)
      show lineWeight (a.feed.rest s.input).length + framesWeight (a.setLoopAt replay.base
        { frame with
          remaining := frame.remaining.map (· - 1)
          body := frame.body.rewind }).frames + (outer.length + 1) ≤ _
      unfold Activation.weight
      omega

/-- Leaving some loops and no others makes a script lighter. -/
theorem weight_leaveLoops {levels : Nat} (hlevels : levels ≠ 0)
    (h : (leaveLoops inherited a levels a.replays : Act σ ω _).exec s = (.ok (0, a'), s'))
    (input : List RawLine) : a'.weight input < a.weight input := by
  obtain ⟨hframes, -, -⟩ := leaveLoops_suffix h
  have hfeed := feed_leaveLoops h
  have hreplays : a'.replays.length < a.replays.length := by
    obtain ⟨n, rfl⟩ := Nat.exists_eq_succ_of_ne_zero hlevels
    cases hr : a.replays with
    | nil =>
        rw [hr] at h
        cases h
    | cons replay outer =>
        rw [hr] at h
        obtain ⟨⟨⟩, s₁, -, h₁⟩ := Act.exec_bind_eq_ok.mp h
        obtain ⟨⟨⟩, s₂, -, h₂⟩ := Act.exec_bind_eq_ok.mp h₁
        exact Nat.lt_succ_of_le (leaveLoops_suffix h₂).2.1.length_le
  have hweight := framesWeight_suffix hframes
  unfold Activation.weight
  rw [hfeed]
  omega

variable [Sink ω] {settings : Settings}

theorem Performed.weighs {inv : Invocation} (hline : Performed settings inherited a inv s m s')
    (h : Rooted counted a) (hargs : inv.verb = .loop → inv.args ≠ []) :
    m.Weighs (a.weight s.input) s'.input := by
  obtain ⟨feed, hreads, hfeed⟩ := hline.fed
  have hlight : ∀ {b : Activation}, b.feed = feed → framesWeight b.frames ≤ framesWeight a.frames →
      b.replays.length ≤ a.replays.length → b.weight s'.input ≤ a.weight s.input := by
    intro b hb
    rw [← hb] at hreads
    exact Activation.weight_le hreads
  cases hline with
  | simple _ _ => exact hlight hfeed (Nat.le_refl _) (Nat.le_refl _)
  | call _ _ _ => exact hlight hfeed (Nat.le_refl _) (Nat.le_refl _)
  | loop hverb hlimits hframe _ hbody hpublish =>
      obtain ⟨n, rfl, hcounts⟩ := countsTo_of_limits (hargs hverb) hlimits
      rw [(publish_input _).of_eq hpublish]
      exact hbody.weight_le h (by rw [hframe]) hcounts.le
  | leave _ _ _ hleave =>
      obtain ⟨hframes, hreplays, -⟩ := leaveLoops_suffix hleave
      split
      · next hleft =>
          rw [if_pos hleft] at hfeed
          exact hlight hfeed (framesWeight_suffix hframes) hreplays.length_le
      · trivial
  | @cond truth _ _ _ _ =>
      have hcond : ∀ c : CondFrame, framesWeight (.cond c :: a.frames) ≤ framesWeight a.frames := by
        intro c
        simp [framesWeight, Frame.weight]
      cases truth with
      | true => exact hlight hfeed (hcond _) (Nat.le_refl _)
      | false => exact hlight hfeed (hcond _) (Nat.le_refl _)
  | otherwise _ _ _ =>
      refine hlight hfeed (Nat.le_of_eq a.framesWeight_markElse) (Nat.le_of_eq ?_)
      exact congrArg List.length a.replays_markElse
  | close _ _ =>
      exact hlight hfeed (framesWeight_suffix (List.drop_suffix 1 a.frames)) (Nat.le_refl _)
  | exit _ _ => trivial

/-- A `loop` that is performed has a body shorter than the lines to come. -/
theorem Performed.collects {inv : Invocation} (hline : Performed settings inherited a inv s m s')
    (hverb : inv.verb = .loop) (h : Rooted counted a) :
    ∃ b frame frames, m = .next b ∧ b.frames = .loop frame :: frames ∧
      frame.body.lines.length < (a.upcoming s.input).1.length := by
  obtain ⟨_, _, _, _, _, _, -, -, hbody, rfl⟩ := hline.entered hverb
  have hlength := hbody.length_lt h
  obtain ⟨b, before, left, rfl, -, -⟩ := hbody.consumes h
  exact ⟨_, _, _, rfl, (Activation.replaying_eq rfl).1, hlength⟩

/-- A script is lighter after a line than it was before. -/
theorem Advanced.lighter (hadvanced : Advanced settings inherited a s m s')
    (h : Rooted counted a)
    (hargs : ∀ {a₁ inv s₁}, NextCommand settings a s a₁ inv s₁ → inv.verb = .loop →
      inv.args ≠ []) :
    ∃ bound < a.weight s.input, m.Weighs bound s'.input := by
  cases hadvanced with
  | omitted hfetch _ hline => exact ⟨_, Activation.weight_fetch hfetch, hline.weighs⟩
  | blank hfetch _ hsplit =>
      refine ⟨_, Activation.weight_fetch hfetch, ?_⟩
      rw [(preserves_input (Expansion.split_preserves _ _ _)).of_eq hsplit]
      exact Nat.le_refl _
  | performed hfetch homit hsplit hbind hline =>
      have hweighs := hline.weighs (h.fetch hfetch).1 (hargs (.intro hfetch homit hsplit hbind))
      have hinput := (preserves_input (Expansion.split_preserves _ _ _)).of_eq hsplit
      dsimp only at hweighs hinput
      rw [hinput] at hweighs
      exact ⟨_, Activation.weight_fetch hfetch, hweighs⟩
  | iterated hfetch hreplays hend =>
      obtain ⟨bound, hlt, hweighs⟩ := hend.lighter (h.fetch hfetch).1 hreplays
      exact ⟨bound, Nat.lt_of_lt_of_le hlt (Activation.weight_end hfetch), hweighs⟩
  | finished _ _ _ _ =>
      refine ⟨0, ?_, trivial⟩
      have hpos := lineWeight_pos (a.feed.rest s.input).length
      unfold Activation.weight
      omega

end Host

end Machine

end InputScript
