import InputScript.Proofs.Reading
import InputScript.Proofs.Transition

/-!
# Where the lines of a script come from

Lines are read once, but a loop keeps the lines of its body and delivers them again, and a block
remembers the line that opened it.  All of them are lines of the stream of the script itself, with
the number that they have there: `Activation.Grounded` says so of an activation, and every step
keeps it.  Streams only count what a script has read so far, since the standard input is shared and
what is left of it may be read by another script.

## Main results

* `Advanced.grounded` — what a line makes of its script is grounded.
* `grounded_of_leads` — so is every script that is running in a run.
-/

namespace InputScript

namespace Script

/-- A line as it stands in a sequence of physical lines, with its number there. -/
def IsLine (stream : List RawLine) (line : Line) : Prop :=
  ∃ before raw after text, stream = before ++ raw :: after ∧ line.number = before.length + 1 ∧
    raw.decode = .ok text ∧ line.text = Text.trim text ∧ isDropped line.text = false

/-- A physical line of a sequence that is not UTF-8, with its number there. -/
def IsUndecodable (stream : List RawLine) (d : DecodeFault) : Prop :=
  ∃ before raw after, stream = before ++ raw :: after ∧ d.number = before.length + 1 ∧
    raw.decode = .error d.fault

theorem IsLine.append {stream : List RawLine} {line : Line} (h : IsLine stream line)
    (more : List RawLine) : IsLine (stream ++ more) line := by
  obtain ⟨before, raw, after, text, rfl, hnumber, hline⟩ := h
  exact ⟨before, raw, after ++ more, text, by simp, hnumber, hline⟩

/-- A line is among the physical lines up to its number. -/
theorem IsLine.take {stream : List RawLine} {line : Line} (h : IsLine stream line) {n : Nat}
    (hn : line.number ≤ n) : IsLine (stream.take n) line := by
  obtain ⟨before, raw, after, text, rfl, hnumber, hline⟩ := h
  obtain ⟨k, rfl⟩ := Nat.exists_eq_add_of_le (hnumber ▸ hn)
  refine ⟨before, raw, after.take k, text, ?_, hnumber, hline⟩
  rw [Nat.add_assoc, List.take_length_add_append, Nat.add_comm 1 k, List.take_succ_cons]

/-- The lines that are read from a source are lines of it, and so is the one that stops the
reading. -/
theorem isLine_of_readLinesFrom (before source : List RawLine) :
    (∀ line ∈ (readLinesFrom before.length source).1, IsLine (before ++ source) line) ∧
      ∀ d, (readLinesFrom before.length source).2 = some d → IsUndecodable (before ++ source) d := by
  induction source generalizing before with
  | nil => constructor <;> intro _ h <;> cases h
  | cons raw rest ih =>
      have hnext := ih (before ++ [raw])
      rw [List.length_append, List.length_singleton, List.append_assoc, List.singleton_append]
        at hnext
      rw [readLinesFrom]
      cases hdecode : raw.decode with
      | error fault =>
          refine ⟨List.forall_mem_nil _, fun d h => ?_⟩
          cases h
          exact ⟨before, raw, rest, rfl, rfl, hdecode⟩
      | ok text =>
          dsimp only
          split
          · exact hnext
          · next hkept =>
              refine ⟨List.forall_mem_cons.mpr ⟨?_, hnext.1⟩, hnext.2⟩
              exact ⟨before, raw, rest, text, rfl, rfl, hdecode, rfl, Bool.eq_false_iff.mpr hkept⟩

/-- The next line of a source is the last of the physical lines that are read for it. -/
theorem isLine_of_next (before source : List RawLine) {next : Next} {consumed : Nat}
    (h : Script.next before.length source = (next, consumed)) :
    (∀ line, next = .line line →
      before.length < consumed ∧ IsLine ((before ++ source).take consumed) line) ∧
    ∀ d, next = .fault d →
      before.length < consumed ∧ IsUndecodable (before ++ source) d := by
  induction source generalizing before with
  | nil =>
      cases h
      constructor <;> intro _ h <;> cases h
  | cons raw rest ih =>
      rw [Script.next] at h
      cases hdecode : raw.decode with
      | error fault =>
          rw [hdecode] at h
          cases h
          refine ⟨fun line h => ?_, fun d h => ?_⟩ <;> cases h
          exact ⟨Nat.lt_succ_self _, before, raw, rest, rfl, rfl, hdecode⟩
      | ok text =>
          rw [hdecode] at h
          dsimp only at h
          split at h
          · have hnext := ih (before ++ [raw]) (by rw [List.length_append]; exact h)
            rw [List.length_append, List.length_singleton, List.append_assoc,
              List.singleton_append] at hnext
            exact ⟨fun line hline => (hnext.1 line hline).imp_left Nat.lt_of_succ_lt,
              fun d hd => (hnext.2 d hd).imp_left Nat.lt_of_succ_lt⟩
          · next hkept =>
              cases h
              refine ⟨fun line hline => ?_, fun d h => by cases h⟩
              cases hline
              refine ⟨Nat.lt_succ_self _, IsLine.take ?_ (Nat.le_refl _)⟩
              exact ⟨before, raw, rest, text, rfl, rfl, hdecode, rfl, Bool.eq_false_iff.mpr hkept⟩

/-- Lines are numbered upwards. -/
theorem number_lt_of_readLinesFrom {consumed : Nat} {source : List RawLine}
    {before between lines : List Line} {line later : Line} {fault : Option DecodeFault}
    (h : readLinesFrom consumed source =
      (before ++ line :: (between ++ later :: lines), fault)) : line.number < later.number := by
  obtain ⟨-, hafter⟩ := readLinesFrom_after h
  exact (readLinesFrom_after hafter).1.1

end Script

namespace Machine

open Device (Sink)
open Script (Line RawLine DecodeFault IsLine IsUndecodable)

variable {input input' : List RawLine}

/-! ## Streams -/

namespace Feed

/-- The physical lines read so far, in order. -/
def read (f : Feed) : List RawLine := f.past.reverse

/-- All physical lines, as far as they are known. -/
def stream (f : Feed) (input : List RawLine) : List RawLine := f.read ++ f.rest input

@[simp] theorem length_read (f : Feed) : f.read.length = f.consumed := List.length_reverse

theorem read_take (f : Feed) (input : List RawLine) (count : Nat) :
    (f.take input count).1.read = f.read ++ (f.rest input).take count := by
  unfold take read
  cases f.pending <;> simp

theorem read_skipPast (f : Feed) (input : List RawLine) {number : Nat}
    (h : f.consumed ≤ number) :
    (f.skipPast input number).1.read = (f.stream input).take number := by
  have hread : f.read.take number = f.read :=
    List.take_of_length_le (by rw [length_read]; exact h)
  rw [skipPast, read_take, stream, List.take_append, hread, length_read]

/-- The stream is what the feed had at first, or what was read of the standard input and what is
left of it. -/
theorem stream_eq (f : Feed) (input : List RawLine) :
    f.stream input = f.origin.getD (f.read ++ input) := by
  unfold stream rest origin read
  cases f.pending <;> rfl

/-- Reading does not change the stream. -/
theorem stream_take (f : Feed) (input : List RawLine) (count : Nat) :
    (f.take input count).1.stream (f.take input count).2 = f.stream input := by
  rw [stream, read_take, rest_take, List.append_assoc, List.take_append_drop, stream]

end Feed

theorem Activation.stream_fetch {a a' : Activation}
    {next : Script.Next} (h : a.fetch input = (next, a', input')) :
    a'.feed.stream input' = a.feed.stream input := by
  unfold fetch at h
  split at h
  · split at h
    · cases h
      rfl
    · split at h <;> cases h <;> rfl
  · cases h
    exact a.feed.stream_take input _

/-! ## Grounded activations -/

/-- The lines that a block holds. -/
def Frame.lines : Frame → List Line
  | .loop f => f.body.lines
  | .cond _ => []

/-- The line that opened a block and the lines that it holds were read. -/
structure Frame.Within (read : List RawLine) (frame : Frame) : Prop where
  opener : ∃ line, IsLine read line ∧ frame.line = some line.number
  held : ∀ line ∈ frame.lines, IsLine read line

/-- All lines that a script has kept are its own. -/
def Activation.Grounded (a : Activation) : Prop :=
  ∀ frame ∈ a.frames, frame.Within a.feed.read

variable {line : Line}

theorem mem_of_advance {body body' : Script.Scratch} (h : body.advance = some (line, body')) :
    line ∈ body.lines ∧ body'.lines = body.lines := by
  unfold Script.Scratch.advance at h
  split at h
  · next hline =>
      cases h
      exact ⟨List.mem_of_getElem? hline, rfl⟩
  · cases h

namespace Activation.Grounded

variable {a a' : Activation}

/-- Reading on and giving up lines or blocks does no harm. -/
theorem of_frames (h : a.Grounded) (more : List RawLine)
    (hread : a'.feed.read = a.feed.read ++ more)
    (hframes : ∀ g ∈ a'.frames, ∃ f ∈ a.frames, g.line = f.line ∧ ∀ line ∈ g.lines, line ∈ f.lines) :
    a'.Grounded := by
  intro g hg
  obtain ⟨f, hf, hline, hlines⟩ := hframes g hg
  obtain ⟨line, hopener, hnumber⟩ := (h f hf).opener
  rw [hread]
  exact ⟨⟨line, hopener.append more, hline.trans hnumber⟩,
    fun held hheld => ((h f hf).held held (hlines held hheld)).append more⟩

theorem of_subset (h : a.Grounded) (hfeed : a'.feed = a.feed) (hframes : a'.frames ⊆ a.frames) :
    a'.Grounded := by
  refine h.of_frames [] (by rw [hfeed, List.append_nil]) fun g hg => ?_
  exact ⟨g, hframes hg, rfl, fun _ hline => hline⟩

theorem mem_of_loopAt? {height : Nat} {f : LoopFrame} (h : a.loopAt? height = some f) :
    Frame.loop f ∈ a.frames := by
  obtain ⟨frame, hframe, hf⟩ := Option.bind_eq_some_iff.mp h
  cases frame with
  | cond c => cases hf
  | loop f' =>
      cases hf
      exact List.mem_of_getElem? hframe

theorem setLoopAt {g : LoopFrame} (h : a.Grounded) (hloop : (Frame.loop g).Within a.feed.read)
    (height : Nat) : (a.setLoopAt height g).Grounded := by
  intro frame hframe
  rcases List.mem_or_eq_of_mem_set hframe with hold | rfl
  · exact h frame hold
  · exact hloop

/-- A loop may give up lines. -/
theorem updateLoop {height : Nat} {f g : LoopFrame} (h : a.Grounded)
    (hloop : a.loopAt? height = some f) (hline : g.line = f.line)
    (hlines : ∀ line ∈ g.body.lines, line ∈ f.body.lines) : (a.setLoopAt height g).Grounded := by
  have hwithin := h _ (mem_of_loopAt? hloop)
  refine h.setLoopAt ⟨?_, fun held hheld => hwithin.held held (hlines held hheld)⟩ height
  obtain ⟨line, hopener, hnumber⟩ := hwithin.opener
  exact ⟨line, hopener, hline.trans hnumber⟩

theorem markElse (h : a.Grounded) : a.markElse.Grounded := by
  unfold Activation.markElse
  split
  · next c frames hframes =>
      refine h.of_frames [] (List.append_nil _).symm fun frame hframe => ?_
      rw [hframes]
      rcases List.mem_cons.mp hframe with rfl | hold
      · exact ⟨.cond c, List.mem_cons_self, rfl, fun _ hline => hline⟩
      · exact ⟨frame, List.mem_cons_of_mem _ hold, rfl, fun _ hline => hline⟩
  · exact h

theorem push {frame : Frame} (h : a.Grounded) (hframe : frame.Within a.feed.read) :
    (a.push frame).Grounded :=
  List.forall_mem_cons.mpr ⟨hframe, h⟩

/-- The next line is one that was read, and nothing else changes but what was read. -/
theorem fetch {next : Script.Next} (h : a.Grounded) (hfetch : a.fetch input = (next, a', input')) :
    a'.Grounded ∧ (∀ line, next = .line line → IsLine a'.feed.read line) ∧
      ∀ d, next = .fault d → IsUndecodable (a.feed.stream input) d := by
  unfold Activation.fetch at hfetch
  split at hfetch
  · next replay replays _ =>
      split at hfetch
      · cases hfetch
        exact ⟨h, fun _ h => (nomatch h), fun _ h => (nomatch h)⟩
      · next frame hframe =>
          split at hfetch
          · next line body hadvance =>
              cases hfetch
              obtain ⟨hmem, hlines⟩ := mem_of_advance hadvance
              refine ⟨h.updateLoop hframe rfl fun held hheld => hlines ▸ hheld, fun _ heq => ?_,
                fun _ h => (nomatch h)⟩
              cases heq
              exact (h _ (mem_of_loopAt? hframe)).held line hmem
          · cases hfetch
            exact ⟨h, fun _ h => (nomatch h), fun _ h => (nomatch h)⟩
  · rcases hnext : Script.next a.feed.consumed (a.feed.rest input) with ⟨next', consumed⟩
    rw [hnext] at hfetch
    cases hfetch
    rw [← a.feed.length_read] at hnext
    obtain ⟨hline, hfault⟩ := Script.isLine_of_next _ _ hnext
    refine ⟨h.of_frames _ (a.feed.read_take input _) fun g hg => ⟨g, hg, rfl, fun _ h => h⟩,
      fun line heq => ?_, fun d heq => (hfault d heq).2⟩
    obtain ⟨hconsumed, hread⟩ := hline line heq
    rw [a.feed.length_read] at hconsumed
    have hlast : IsLine (a.feed.skipPast input consumed).1.read line := by
      rw [a.feed.read_skipPast input (Nat.le_of_lt hconsumed)]
      exact hread
    exact hlast

/-- The lines to come are lines of the stream, and so is the one that stops them. -/
theorem upcoming (h : a.Grounded) (input : List RawLine) :
    (∀ line ∈ (a.upcoming input).1, IsLine (a.feed.stream input) line) ∧
      ∀ d, (a.upcoming input).2 = some d → IsUndecodable (a.feed.stream input) d := by
  unfold Activation.upcoming
  split
  · split
    · exact ⟨fun _ h => (nomatch h), fun _ h => (nomatch h)⟩
    · next frame hframe =>
        refine ⟨fun line hline => IsLine.append ?_ _, fun _ h => (nomatch h)⟩
        exact (h _ (mem_of_loopAt? hframe)).held line (List.mem_of_mem_drop hline)
  · rw [← a.feed.length_read]
    exact Script.isLine_of_readLinesFrom _ _

/-- What was read up to a line that was to come includes that line and those before it. -/
theorem skipPast {before rest : List Line} {fault : Option DecodeFault} (h : a.Grounded)
    (hupcoming : a.upcoming input = (before ++ line :: rest, fault))
    (hskip : a.skipPast input line rest = (a', input')) :
    a'.Grounded ∧ (∃ more, a'.feed.read = a.feed.read ++ more) ∧
      ∀ held ∈ before, IsLine a'.feed.read held := by
  have hstream := (h.upcoming input).1
  rw [hupcoming] at hstream
  unfold Activation.upcoming at hupcoming
  unfold Activation.skipPast at hskip
  split at hskip
  · next replay replays hreplays =>
      rw [hreplays] at hupcoming
      dsimp only at hupcoming
      split at hskip
      · next hframe =>
          rw [hframe] at hupcoming
          have := congrArg (fun r => r.1.length) hupcoming
          simp at this
      · next frame hframe =>
          cases hskip
          rw [hframe] at hupcoming
          have hrest : frame.body.rest = before ++ line :: rest := congrArg Prod.fst hupcoming
          refine ⟨h.updateLoop hframe rfl fun _ hheld => hheld, ⟨[], (List.append_nil _).symm⟩,
            fun held hheld => ?_⟩
          have hmem : held ∈ frame.body.rest := by
            rw [hrest]
            exact List.mem_append_left _ hheld
          exact (h _ (mem_of_loopAt? hframe)).held held (List.mem_of_mem_drop hmem)
  · next hreplays =>
      rw [hreplays] at hupcoming
      cases hskip
      refine ⟨h.of_frames _ (a.feed.read_take input _) fun g hg => ⟨g, hg, rfl, fun _ h => h⟩,
        ⟨_, a.feed.read_take input _⟩, fun held hheld => ?_⟩
      obtain ⟨⟨hconsumed, -⟩, -⟩ := Script.readLinesFrom_after hupcoming
      have hread : IsLine (a.feed.skipPast input line.number).1.read held := by
        rw [a.feed.read_skipPast input (Nat.le_of_lt hconsumed)]
        refine (hstream held (List.mem_append_left _ hheld)).take (Nat.le_of_lt ?_)
        obtain ⟨first, second, rfl⟩ := List.append_of_mem hheld
        rw [List.append_assoc, List.cons_append] at hupcoming
        exact Script.number_lt_of_readLinesFrom hupcoming
      exact hread

end Activation.Grounded

/-! ## Moves -/

section Moves

variable {σ ω : Type} [Host σ] {inherited : Option Countdown} {a a' : Activation}
  {s s' : Session σ ω} {m : Move}

theorem grounded_leaveLoops {levels left : Nat} {replays : List Replay} (h : a.Grounded)
    (hleave : (leaveLoops inherited a levels replays : Act σ ω _).exec s = (.ok (left, a'), s')) :
    a'.Grounded :=
  leaveLoops_keeps (fun _ hb => hb.of_subset rfl (List.drop_subset _ _)) hleave h

omit [Host σ] in
theorem Omitted.grounded {o : Omission} (h : a.Grounded) (hline : Omitted a o line s m s') :
    m.All Activation.Grounded := by
  cases hline with
  | opener _ _ => exact h
  | inner _ _ _ => exact h
  | close _ _ _ => exact h.of_subset rfl (List.drop_subset _ _)
  | otherwise _ _ _ =>
      split
      · exact h.markElse
      · exact h
  | neutral _ _ => exact h

theorem Iterated.grounded {replay : Replay} {outer : List Replay} (h : a.Grounded)
    (hend : Iterated inherited a replay outer s m s') : m.All Activation.Grounded := by
  cases hend with
  | gone _ => exact h
  | @finished frame _ _ _ _ hframe _ _ ha' _ =>
      subst ha'
      have hset : (a.setLoopAt replay.base
          { frame with
            remaining := frame.remaining.map (· - 1)
            body := frame.body.truncate }).Grounded :=
        h.updateLoop hframe rfl fun _ hheld => absurd hheld List.not_mem_nil
      exact hset.of_subset rfl (List.drop_subset _ _)
  | continued hframe _ _ ha' _ =>
      subst ha'
      exact h.updateLoop hframe rfl fun _ hheld => hheld

theorem Collected.grounded {body : Body} (h : a.Grounded)
    (hbody : Collected a input body a' input') :
    a'.Grounded ∧ (∃ more, a'.feed.read = a.feed.read ++ more) ∧
      ∀ line ∈ body.lines, IsLine a'.feed.read line := by
  have hlines : a.upcoming input =
      (body.lines ++ body.closer :: body.rest, (a.upcoming input).2) := by
    rw [← takeBody_eq hbody.taken]
  exact h.skipPast hlines hbody.skipped

variable [Sink ω] {settings : Settings}

/-- A command keeps its script grounded if the script has read the line that gave the command. -/
theorem Performed.grounded {inv : Invocation} (h : a.Grounded) (hline : IsLine a.feed.read line)
    (hnumber : inv.line = some line.number) (hperformed : Performed settings inherited a inv s m s') :
    m.All Activation.Grounded := by
  cases hperformed with
  | simple _ _ => exact h
  | call _ _ hcall =>
      obtain ⟨feed, s₁, -, rfl⟩ := callScript_ok hcall
      exact ⟨fun _ hframe => absurd hframe List.not_mem_nil, h⟩
  | @loop _ _ frame body a₁ _ _ _ _ hframe _ hbody _ =>
      have hopener : frame.line = some line.number := by rw [hframe, hnumber]
      have hempty : frame.body.lines = [] := by rw [hframe]
      have hpush : (a.push (.loop frame)).Grounded :=
        h.push ⟨⟨line, hline, hopener⟩, fun held hheld =>
          absurd (hempty ▸ hheld : held ∈ []) List.not_mem_nil⟩
      obtain ⟨hgrounded, ⟨more, hread⟩, hheld⟩ := hbody.grounded hpush
      have hwithin : (Frame.loop { frame with body := { lines := body.lines } }).Within
          a₁.feed.read :=
        ⟨⟨line, hread ▸ hline.append more, hopener⟩, hheld⟩
      exact hgrounded.setLoopAt hwithin a₁.height
  | leave _ _ _ hleave =>
      split
      · exact grounded_leaveLoops h hleave
      · trivial
  | @cond truth _ _ _ _ =>
      have hpush : (a.push (.cond { line := inv.line })).Grounded :=
        h.push ⟨⟨line, hline, hnumber⟩, fun _ hheld => absurd hheld List.not_mem_nil⟩
      cases truth <;> exact hpush
  | otherwise _ _ _ => exact h.markElse
  | close _ _ => exact h.of_subset rfl (List.drop_subset _ _)
  | exit _ _ => trivial

/-- What a line makes of its script is grounded. -/
theorem Advanced.grounded (h : a.Grounded) (hadvanced : Advanced settings inherited a s m s') :
    m.All Activation.Grounded := by
  cases hadvanced with
  | omitted hfetch _ hline => exact hline.grounded (h.fetch hfetch).1
  | blank hfetch _ _ => exact (h.fetch hfetch).1
  | performed hfetch _ hsplit hbind hline =>
      obtain ⟨hgrounded, hread, -⟩ := h.fetch hfetch
      exact hline.grounded hgrounded (hread _ rfl) (line_of_bind hbind)
  | iterated hfetch _ hend => exact hend.grounded (h.fetch hfetch).1
  | finished _ _ _ _ => trivial

/-- The script of a name has these lines in a run: it is the one that the run began with, or the
file of that name was read, or the name is a dash and the lines are the standard input. -/
inductive Opened (σ : Type) [Host σ] (source : String) (lines : Option (List RawLine)) :
    String → Option (List RawLine) → Prop
  | launched : Opened σ source lines source lines
  | file {path : String} {host : σ} {bytes : List UInt8}
      (hread : Host.readFile path host = .ok bytes) :
      Opened σ source lines path (some (RawLine.ofBytes bytes))
  | input : Opened σ source lines "-" none

theorem Opened.congr {source : String} {lines : Option (List RawLine)} (h : a'.birth = a.birth)
    (hopened : Opened σ source lines a.source a.feed.origin) :
    Opened σ source lines a'.source a'.feed.origin := by
  simp only [Activation.birth, Activation.identity, Prod.mk.injEq] at h
  rw [h.1.2.1, h.2]
  exact hopened

/-- Who runs in a run, and with which lines. -/
theorem Advanced.opened {source : String} {lines : Option (List RawLine)}
    (hopened : Opened σ source lines a.source a.feed.origin)
    (h : Advanced settings inherited a s m s') :
    m.All fun a => Opened σ source lines a.source a.feed.origin := by
  have hkeeps := h.keeps
  cases m with
  | next b => exact hopened.congr hkeeps
  | leave => trivial
  | unwind levels => trivial
  | call callee b =>
      refine ⟨?_, hopened.congr hkeeps⟩
      obtain ⟨inv, s₁, path, hcall⟩ := h.callee rfl
      obtain ⟨feed, s₂, hopen, rfl⟩ := callScript_ok hcall
      rcases openFeed_ok hopen with ⟨rfl, rfl⟩ | ⟨bytes, hread, rfl⟩
      · exact .input
      · exact .file hread

/-- All scripts that are running in a run are grounded, and their lines are those of their name. -/
theorem grounded_of_leads {source : String} {pending : Option (List RawLine)}
    {activations : List Activation}
    (h : Leads settings ((Launch.script source { pending }).start settings s)
      (.running activations, s')) :
    ∀ a ∈ activations, a.Grounded ∧ Opened σ source pending a.source a.feed.origin := by
  have horigin : (freshScript source 0 { pending }).feed.origin = pending := by
    cases pending <;> rfl
  refine all_of_leads (fun ha hleave => ?_) (fun _ ha hadvanced => ?_) (fun _ _ hstart => ?_) h
  · exact ⟨grounded_leaveLoops ha.1 hleave, ha.2.congr (birth_leaveLoops hleave)⟩
  · exact Move.All.and (hadvanced.grounded ha.1) (hadvanced.opened ha.2)
  · cases hstart
    refine List.forall_mem_singleton.mpr ⟨fun _ hframe => absurd hframe List.not_mem_nil, ?_⟩
    rw [horigin]
    exact .launched

end Moves

end Machine

end InputScript
