import InputScript.Proofs.Alignment

/-!
# Reading on

The lines to come of a script are found in two places: the body of the loop that is replayed, or the
script's own feed.  `Activation.upcoming` lists them, and this module says that reading a line, or
reading past a loop body, takes exactly these lines off that list.

Reading moves an activation only within its current source.  `Activation.seek` is that move: it puts
the feed, or the cursor of the innermost loop, elsewhere and touches nothing else, so one move
absorbs another (`seek_seek`).

`Awaits a lines fault` says that `lines` is what `a` has to come, whatever is on standard input: the
activation reads its own lines only.

## Main results

* `Awaits.fetch`, `Awaits.fetch_finished` — the next line is the first of those to come.
* `Awaits.skipPast` — a loop just entered reads its body up to the closing line.
-/

namespace InputScript

variable {source : List RawLine} {consumed : Nat}

namespace Script

/-! ## Lines of a source -/

/-- Reading finds the first line of a source and leaves the others. -/
theorem next_of_cons {line : Line} {lines : List Line} {fault : Option DecodeFault}
    (h : readLinesFrom consumed source = (line :: lines, fault)) :
    next consumed source = (.line line, line.number) ∧
      (consumed < line.number ∧ line.number ≤ consumed + source.length) ∧
      readLinesFrom line.number (source.drop (line.number - consumed)) = (lines, fault) := by
  induction source generalizing consumed with
  | nil => cases h
  | cons raw source ih =>
      simp only [readLinesFrom, next] at h ⊢
      cases hraw : raw.decode with
      | error e => simp [hraw] at h
      | ok s =>
          simp only [hraw] at h ⊢
          by_cases hdrop : isDropped (Text.trim s) = true
          · rw [if_pos hdrop] at h
            obtain ⟨hnext, hbounds, hrest⟩ := ih h
            have hindex : line.number - consumed = (line.number - (consumed + 1)) + 1 := by omega
            rw [if_pos hdrop, hnext, hindex, List.drop_succ_cons]
            refine ⟨rfl, ?_, hrest⟩
            simp only [List.length_cons]
            omega
          · rw [if_neg hdrop] at h
            simp only [Prod.mk.injEq, List.cons.injEq] at h
            obtain ⟨⟨rfl, rfl⟩, rfl⟩ := h
            rw [if_neg hdrop]
            simp

/-- Reading a source without lines reads all of it. -/
theorem next_of_nil (h : readLinesFrom consumed source = ([], none)) :
    next consumed source = (.finished, consumed + source.length) := by
  induction source generalizing consumed with
  | nil => rfl
  | cons raw source ih =>
      simp only [readLinesFrom, next] at h ⊢
      cases hraw : raw.decode with
      | error e => simp [hraw] at h
      | ok s =>
          simp only [hraw] at h ⊢
          by_cases hdrop : isDropped (Text.trim s) = true
          · rw [if_pos hdrop] at h
            rw [if_pos hdrop, ih h, List.length_cons, Nat.add_right_comm, Nat.add_assoc]
          · rw [if_neg hdrop] at h
            cases h

/-- Reading stops at a line that cannot be decoded. -/
theorem next_of_fault {fault : DecodeFault} (h : readLinesFrom consumed source = ([], some fault)) :
    next consumed source = (.fault fault, fault.number) := by
  induction source generalizing consumed with
  | nil => cases h
  | cons raw source ih =>
      simp only [readLinesFrom, next] at h ⊢
      cases hraw : raw.decode with
      | error e =>
          simp only [hraw, Prod.mk.injEq, Option.some.injEq, true_and] at h
          subst h
          rfl
      | ok s =>
          simp only [hraw] at h ⊢
          by_cases hdrop : isDropped (Text.trim s) = true
          · rw [if_pos hdrop] at h
            rw [if_pos hdrop, ih h]
          · rw [if_neg hdrop] at h
            cases h

/-- Reading goes on behind a part of a source that can be decoded. -/
theorem readLinesFrom_append {more : List RawLine} {lines : List Line}
    (h : readLinesFrom consumed source = (lines, none)) :
    readLinesFrom consumed (source ++ more) =
      (lines ++ (readLinesFrom (consumed + source.length) more).1,
        (readLinesFrom (consumed + source.length) more).2) := by
  induction source generalizing consumed lines with
  | nil =>
      cases h
      rfl
  | cons raw source ih =>
      rw [readLinesFrom] at h
      rw [List.cons_append, readLinesFrom]
      cases hdecode : raw.decode with
      | error fault => simp [hdecode] at h
      | ok text =>
          simp only [hdecode] at h ⊢
          have hindex : consumed + (raw :: source).length = consumed + 1 + source.length := by
            rw [List.length_cons]
            omega
          rw [hindex]
          by_cases hdrop : isDropped (Text.trim text) = true
          · rw [if_pos hdrop] at h ⊢
            rw [ih h]
          · rw [if_neg hdrop] at h ⊢
            simp only [Prod.mk.injEq] at h
            obtain ⟨rfl, hnone⟩ := h
            rw [ih (Prod.ext rfl hnone)]
            rfl

/-- What is left after a line further on. -/
theorem readLinesFrom_after {before lines : List Line} {line : Line} {fault : Option DecodeFault}
    (h : readLinesFrom consumed source = (before ++ line :: lines, fault)) :
    (consumed < line.number ∧ line.number ≤ consumed + source.length) ∧
      readLinesFrom line.number (source.drop (line.number - consumed)) = (lines, fault) := by
  induction before generalizing consumed source with
  | nil => exact (next_of_cons h).2
  | cons first before ih =>
      obtain ⟨-, hfirst, hrest⟩ := next_of_cons h
      obtain ⟨hbounds, hafter⟩ := ih hrest
      rw [List.length_drop] at hbounds
      refine ⟨by omega, ?_⟩
      have hindex : line.number - consumed =
          (first.number - consumed) + (line.number - first.number) := by
        omega
      rw [hindex, ← List.drop_drop]
      exact hafter

end Script

namespace Machine

open Script (Line RawLine DecodeFault)

variable {a : Activation} {replays : List Replay} {f : LoopFrame} {fs : List LoopFrame}

/-! ## Feeds -/

namespace Feed

theorem rest_take (f : Feed) (input : List RawLine) (count : Nat) :
    (f.take input count).1.rest (f.take input count).2 = (f.rest input).drop count := by
  unfold take rest
  cases f.pending <;> rfl

theorem consumed_take (f : Feed) (input : List RawLine) (count : Nat) :
    (f.take input count).1.consumed = min count (f.rest input).length + f.consumed := by
  unfold take consumed
  cases f.pending <;> simp

/-- A feed of its own does not touch the standard input. -/
theorem take_of_pending {f : Feed} {lines : List RawLine} (h : f.pending = some lines)
    (input : List RawLine) (count : Nat) :
    f.take input count =
      ({ pending := some (lines.drop count), past := (lines.take count).reverse ++ f.past },
        input) := by
  simp [take, rest, h]

end Feed

/-! ## Moving within the current source -/

/-- The frames with the cursor of the innermost loop elsewhere. -/
def moveCursor (cursor : Nat) : List Frame → List Frame
  | [] => []
  | .cond c :: frames => .cond c :: moveCursor cursor frames
  | .loop f :: frames => .loop { f with body := { f.body with cursor } } :: frames

theorem replaceLoop_eq_moveCursor {frames : List Frame}
    (h : loopsOf frames = f :: fs) (cursor : Nat) :
    replaceLoop { f with body := { f.body with cursor } } frames = moveCursor cursor frames := by
  induction frames with
  | nil => cases h
  | cons frame frames ih =>
      cases frame with
      | cond c => rw [replaceLoop, moveCursor, ih h]
      | loop g =>
          cases h
          rfl

/-- The innermost loop after its cursor was moved. -/
theorem loopsOf_moveCursor {frames : List Frame} (h : loopsOf frames = f :: fs) (cursor : Nat) :
    loopsOf (moveCursor cursor frames) = { f with body := { f.body with cursor } } :: fs := by
  rw [← replaceLoop_eq_moveCursor h]
  exact loopsOf_replaceLoop h

@[simp] theorem length_moveCursor (cursor : Nat) (frames : List Frame) :
    (moveCursor cursor frames).length = frames.length := by
  induction frames with
  | nil => rfl
  | cons frame frames ih =>
      cases frame with
      | cond c => simp [moveCursor, ih]
      | loop f => rfl

theorem moveCursor_moveCursor (m n : Nat) (frames : List Frame) :
    moveCursor m (moveCursor n frames) = moveCursor m frames := by
  induction frames with
  | nil => rfl
  | cons frame frames ih =>
      cases frame with
      | cond c => simp [moveCursor, ih]
      | loop f => rfl

@[simp] theorem outsideLoop_moveCursor (cursor : Nat) (frames : List Frame) :
    outsideLoop (moveCursor cursor frames) = outsideLoop frames := by
  induction frames with
  | nil => rfl
  | cons frame frames ih =>
      cases frame with
      | cond c => simpa [moveCursor, outsideLoop] using ih
      | loop f => rfl

theorem Aligned.moveCursor {frames : List Frame} (h : Aligned frames replays) (cursor : Nat) :
    Aligned (Machine.moveCursor cursor frames) replays := by
  induction h with
  | nil => exact .nil
  | cond _ ih => exact .cond ih
  | loop h _ => exact .loop h

namespace Activation

/-- The activation elsewhere in its current source. -/
def seek (a : Activation) (feed : Feed) (cursor : Nat) : Activation :=
  match a.replays with
  | [] => { a with feed }
  | _ :: _ => { a with frames := moveCursor cursor a.frames }

variable (a : Activation) (feed feed' : Feed) (cursor cursor' : Nat)

@[simp] theorem source_seek : (a.seek feed cursor).source = a.source := by
  unfold seek; split <;> rfl

@[simp] theorem omission_seek : (a.seek feed cursor).omission = a.omission := by
  unfold seek; split <;> rfl

@[simp] theorem replays_seek : (a.seek feed cursor).replays = a.replays := by
  unfold seek; split <;> rfl

@[simp] theorem height_seek : (a.seek feed cursor).height = a.height := by
  unfold seek height; split <;> simp

@[simp] theorem seek_seek : (a.seek feed cursor).seek feed' cursor' = a.seek feed' cursor' := by
  unfold seek
  cases hr : a.replays <;> simp [moveCursor_moveCursor]

theorem seek_of_nil {a : Activation} (h : a.replays = []) :
    a.seek feed cursor = { a with feed } := by
  simp [seek, h]

theorem seek_of_cons {a : Activation} {replay : Replay} (h : a.replays = replay :: replays) :
    a.seek feed cursor = { a with frames := moveCursor cursor a.frames } := by
  simp [seek, h]

/-- Entering a branch and moving on in the current source commute. -/
theorem seek_push_cond (c : CondFrame) :
    (a.push (.cond c)).seek feed cursor = (a.seek feed cursor).push (.cond c) := by
  unfold seek push
  cases a.replays <;> rfl

theorem aligned_seek {a : Activation} (h : Aligned a.frames a.replays) :
    Aligned (a.seek feed cursor).frames (a.seek feed cursor).replays := by
  rw [replays_seek]
  cases hr : a.replays with
  | nil =>
      rw [seek_of_nil _ _ hr]
      rwa [hr] at h
  | cons replay replays =>
      rw [seek_of_cons _ _ hr]
      rw [hr] at h
      exact h.moveCursor cursor

/-- An activation is somewhere in its current source. -/
theorem exists_seek_self {a : Activation} (h : Aligned a.frames a.replays) :
    ∃ feed cursor, a.seek feed cursor = a := by
  cases hr : a.replays with
  | nil => exact ⟨a.feed, 0, seek_of_nil _ _ hr⟩
  | cons replay replays =>
      rw [hr] at h
      obtain ⟨f, fs, hloops⟩ := h.exists_loop
      refine ⟨a.feed, f.body.cursor, ?_⟩
      rw [seek_of_cons _ _ hr, ← replaceLoop_eq_moveCursor hloops, replaceLoop_self hloops]

end Activation

/-! ## The lines to come -/

/-- The lines that an activation has to come.  It does not read the standard input. -/
structure Awaits (a : Activation) (lines : List Line) (fault : Option DecodeFault) : Prop where
  own : a.replays = [] → a.feed.pending.isSome
  upcoming : ∀ input, a.upcoming input = (lines, fault)

section Feed

/-- Outside of all loops the feed has the next line. -/
theorem fetch_of_feed (hr : a.replays = []) (input : List RawLine) :
    a.fetch input =
      ((Script.next a.feed.consumed (a.feed.rest input)).1,
        { a with
          feed := (a.feed.skipPast input (Script.next a.feed.consumed (a.feed.rest input)).2).1 },
        (a.feed.skipPast input (Script.next a.feed.consumed (a.feed.rest input)).2).2) := by
  cases a
  cases hr
  rfl

theorem upcoming_of_feed (hr : a.replays = []) (input : List RawLine) :
    a.upcoming input = Script.readLinesFrom a.feed.consumed (a.feed.rest input) := by
  cases a
  cases hr
  rfl

theorem skipPast_of_feed (hr : a.replays = []) (input : List RawLine) (line : Line)
    (rest : List Line) :
    a.skipPast input line rest =
      ({ a with feed := (a.feed.skipPast input line.number).1 },
        (a.feed.skipPast input line.number).2) := by
  cases a
  cases hr
  rfl

end Feed

/-- The cursor from which on a part at the end of a body is to come. -/
def cursorBefore (body : Script.Scratch) (rest : List Line) : Nat :=
  body.lines.length - rest.length

theorem rest_cursorBefore {body : Script.Scratch} {before rest : List Line}
    (h : body.rest = before ++ rest) :
    ({ body with cursor := cursorBefore body rest } : Script.Scratch).rest = rest := by
  have hlines : body.lines = (body.lines.take body.cursor ++ before) ++ rest := by
    rw [List.append_assoc, ← h, Script.Scratch.rest, List.take_append_drop]
  unfold cursorBefore Script.Scratch.rest
  dsimp only
  generalize body.lines.take body.cursor ++ before = front at hlines
  rw [hlines, List.length_append, Nat.add_sub_cancel, List.drop_left]

section Replay

variable {replay : Replay} (hr : a.replays = replay :: replays)
  (h : Aligned a.frames (replay :: replays)) (hloops : a.loops = f :: fs)

include hr h hloops

/-- While a loop is replayed its body has the next line. -/
theorem fetch_of_replay (input : List RawLine) :
    a.fetch input =
      match f.body.advance with
      | some (line, body) =>
        (.line line, { a with frames := replaceLoop { f with body } a.frames }, input)
      | none => (.finished, a, input) := by
  have hat : a.loopAt? replay.base = some f := by rw [h.loopAt?_eq, hloops]; rfl
  unfold Activation.fetch
  simp only [hr, hat]
  cases hadv : f.body.advance with
  | none => rfl
  | some next => simp only [h.setLoopAt_eq, hr]

theorem upcoming_of_replay (input : List RawLine) : a.upcoming input = (f.body.rest, none) := by
  have hat : a.loopAt? replay.base = some f := by rw [h.loopAt?_eq, hloops]; rfl
  unfold Activation.upcoming
  simp only [hr, hat]

/-- A loop entered while another is replayed reads on in the body of that one. -/
theorem skipPast_of_replay (frame : Frame) (input : List RawLine) (line : Line) (rest : List Line) :
    (a.push frame).skipPast input line rest =
      (({ a with frames := moveCursor (cursorBefore f.body rest) a.frames } : Activation).push frame,
        input) := by
  have hpush : (a.push frame).replays = replay :: replays := hr
  have hat : (a.push frame).loopAt? replay.base = some f := by
    rw [h.loopAt?_push, h.loopAt?_eq, hloops]
    rfl
  simp only [Activation.skipPast, hpush, hat]
  rw [h.setLoopAt_push, h.setLoopAt_eq, ← replaceLoop_eq_moveCursor hloops]
  rfl

end Replay

/-- What the body at the cursor says about the next line. -/
theorem advance_of_rest {body : Script.Scratch} {line : Line} {lines : List Line}
    (h : body.rest = line :: lines) :
    body.advance = some (line, { body with cursor := body.cursor + 1 }) ∧
      ({ body with cursor := body.cursor + 1 } : Script.Scratch).rest = lines := by
  unfold Script.Scratch.rest at h
  have hget : body.lines[body.cursor]? = some line := by
    rw [← List.head?_drop, h]
    rfl
  have htail : body.lines.drop (body.cursor + 1) = lines := by
    rw [← List.tail_drop, h]
    rfl
  exact ⟨by rw [Script.Scratch.advance, hget], htail⟩

theorem advance_of_rest_nil {body : Script.Scratch} (h : body.rest = []) :
    body.advance = none := by
  have hle : body.lines.length ≤ body.cursor := List.drop_eq_nil_iff.mp h
  rw [Script.Scratch.advance, List.getElem?_eq_none hle]

/-- A block that is entered has the lines to come that there were before it. -/
theorem Activation.upcoming_push (a : Activation) (frame : Frame) (input : List RawLine)
    (hlow : ∀ r ∈ a.replays, r.base ≤ a.height) :
    (a.push frame).upcoming input = a.upcoming input := by
  have hpushed : (a.push frame).replays = a.replays := rfl
  unfold Activation.upcoming
  rw [hpushed]
  cases hr : a.replays with
  | nil => rfl
  | cons replay replays =>
      have hat := a.loopAt?_push frame (hlow replay (hr ▸ List.mem_cons_self))
      simp only [hat]

namespace Awaits

variable {line closer : Line} {lines before : List Line} {fault : Option DecodeFault}

/-- A feed of its own, read on, still has the lines after the one it was read to. -/
private theorem of_feed (hr : a.replays = []) (hpending : a.feed.pending = some source)
    (hlines : Script.readLinesFrom a.feed.consumed source = (before ++ line :: lines, fault)) :
    (∀ input, a.feed.skipPast input line.number = ((a.feed.skipPast [] line.number).1, input)) ∧
      ∀ cursor, Awaits (a.seek (a.feed.skipPast [] line.number).1 cursor) lines fault := by
  obtain ⟨hbounds, hafter⟩ := Script.readLinesFrom_after hlines
  refine ⟨fun input => ?_, fun cursor => ⟨fun _ => ?_, fun input => ?_⟩⟩
  · simp [Feed.skipPast, Feed.take_of_pending hpending]
  · simp [Activation.seek_of_nil _ _ hr, Feed.skipPast, Feed.take_of_pending hpending]
  · rw [upcoming_of_feed ((Activation.replays_seek a _ cursor).trans hr),
      Activation.seek_of_nil _ _ hr, Feed.skipPast, Feed.take_of_pending hpending]
    simp only [Feed.rest, Option.getD_some, Feed.consumed, List.length_append, List.length_reverse,
      List.length_take]
    have hcount : min (line.number - a.feed.past.length) source.length + a.feed.past.length =
        line.number := by
      simp only [Feed.consumed] at hbounds
      omega
    rw [hcount]
    exact hafter

/-- A loop body, read on, still has the lines after the cursor. -/
private theorem of_body {replay : Replay} (hr : a.replays = replay :: replays)
    (h : Aligned a.frames (replay :: replays)) (hloops : a.loops = f :: fs) (feed : Feed)
    {cursor : Nat} (hrest : ({ f.body with cursor } : Script.Scratch).rest = lines) :
    Awaits (a.seek feed cursor) lines none := by
  have hseek := Activation.seek_of_cons feed cursor hr
  refine ⟨fun hnil => ?_, fun input => ?_⟩
  · rw [Activation.replays_seek, hr] at hnil
    cases hnil
  · have hmoved : Aligned (a.seek feed cursor).frames (replay :: replays) := by
      rw [hseek]
      exact h.moveCursor cursor
    have hinner : (a.seek feed cursor).loops =
        { f with body := { f.body with cursor } } :: fs := by
      rw [hseek]
      exact loopsOf_moveCursor hloops cursor
    rw [upcoming_of_replay ((Activation.replays_seek a feed cursor).trans hr) hmoved hinner, hrest]

/-- Lines that are awaited are read from a feed of the script's own, or from the body of its innermost
loop. -/
private theorem feed_or_body (h : Awaits a lines fault) (haligned : Aligned a.frames a.replays) :
    (∃ source, a.replays = [] ∧ a.feed.pending = some source ∧
      Script.readLinesFrom a.feed.consumed source = (lines, fault)) ∨
    ∃ replay replays f fs, a.replays = replay :: replays ∧ Aligned a.frames (replay :: replays) ∧
      a.loops = f :: fs ∧ f.body.rest = lines ∧ fault = none := by
  have hlines := h.upcoming []
  cases hr : a.replays with
  | nil =>
      obtain ⟨source, hpending⟩ := Option.isSome_iff_exists.mp (h.own hr)
      rw [upcoming_of_feed hr, Feed.rest, hpending, Option.getD_some] at hlines
      exact .inl ⟨source, rfl, hpending, hlines⟩
  | cons replay replays =>
      rw [hr] at haligned
      obtain ⟨f, fs, hloops⟩ := haligned.exists_loop
      rw [upcoming_of_replay hr haligned hloops, Prod.mk.injEq] at hlines
      exact .inr ⟨replay, replays, f, fs, rfl, haligned, hloops, hlines.1, hlines.2.symm⟩

/-- The next line is the first of those to come. -/
theorem fetch (h : Awaits a (line :: lines) fault) (haligned : Aligned a.frames a.replays) :
    ∃ feed cursor, (∀ input, a.fetch input = (.line line, a.seek feed cursor, input)) ∧
      Awaits (a.seek feed cursor) lines fault := by
  rcases h.feed_or_body haligned with
    ⟨source, hr, hpending, hlines⟩ | ⟨replay, replays, f, fs, hr, haligned, hloops, hrest, rfl⟩
  · obtain ⟨hnext, -, -⟩ := Script.next_of_cons hlines
    obtain ⟨hskip, hawaits⟩ := of_feed hr hpending
      (show _ = ([] ++ line :: lines, fault) from hlines)
    refine ⟨(a.feed.skipPast [] line.number).1, 0, fun input => ?_, hawaits 0⟩
    rw [fetch_of_feed hr, Feed.rest, hpending, Option.getD_some, hnext, hskip input,
      Activation.seek_of_nil _ _ hr]
  · obtain ⟨hadv, htail⟩ := advance_of_rest hrest
    refine ⟨a.feed, f.body.cursor + 1, fun input => ?_, of_body hr haligned hloops _ htail⟩
    rw [fetch_of_replay hr haligned hloops, hadv, Activation.seek_of_cons _ _ hr,
      ← replaceLoop_eq_moveCursor hloops]

/-- Where no line is to come, reading finds the end of the source. -/
theorem fetch_finished (h : Awaits a [] none) (haligned : Aligned a.frames a.replays) :
    ∃ feed cursor, ∀ input, a.fetch input = (.finished, a.seek feed cursor, input) := by
  rcases h.feed_or_body haligned with
    ⟨source, hr, hpending, hlines⟩ | ⟨replay, replays, f, fs, hr, haligned, hloops, hrest, -⟩
  · have hnext := Script.next_of_nil hlines
    refine ⟨(a.feed.skipPast [] (a.feed.consumed + source.length)).1, 0, fun input => ?_⟩
    rw [fetch_of_feed hr, Feed.rest, hpending, Option.getD_some, hnext,
      Activation.seek_of_nil _ _ hr]
    simp [Feed.skipPast, Feed.take_of_pending hpending]
  · refine ⟨a.feed, f.body.cursor, fun input => ?_⟩
    rw [fetch_of_replay hr haligned hloops, advance_of_rest_nil hrest,
      Activation.seek_of_cons _ _ hr, ← replaceLoop_eq_moveCursor hloops,
      replaceLoop_self hloops]

/-- A block just entered has the same lines to come. -/
theorem upcoming_push (haligned : Aligned a.frames a.replays) (frame : Frame)
    (input : List RawLine) : (a.push frame).upcoming input = a.upcoming input :=
  a.upcoming_push frame input haligned.base_le

theorem push_iff (haligned : Aligned a.frames a.replays) (frame : Frame) :
    Awaits (a.push frame) lines fault ↔ Awaits a lines fault := by
  constructor
  · intro h
    exact ⟨h.own, fun input => (upcoming_push haligned frame input).symm.trans (h.upcoming input)⟩
  · intro h
    exact ⟨h.own, fun input => (upcoming_push haligned frame input).trans (h.upcoming input)⟩

/-- A loop just entered reads its body up to the closing line. -/
theorem skipPast (h : Awaits a (before ++ closer :: lines) fault)
    (haligned : Aligned a.frames a.replays) :
    ∃ feed cursor,
      (∀ frame input, (a.push frame).skipPast input closer lines =
        ((a.seek feed cursor).push frame, input)) ∧
      Awaits (a.seek feed cursor) lines fault := by
  rcases h.feed_or_body haligned with
    ⟨source, hr, hpending, hlines⟩ | ⟨replay, replays, f, fs, hr, haligned, hloops, hrest, rfl⟩
  · obtain ⟨hskip, hawaits⟩ := of_feed hr hpending hlines
    refine ⟨(a.feed.skipPast [] closer.number).1, 0, fun frame input => ?_, hawaits 0⟩
    rw [skipPast_of_feed (show (a.push frame).replays = [] from hr),
      show (a.push frame).feed = a.feed from rfl, hskip input, Activation.seek_of_nil _ _ hr]
    rfl
  · have hsplit : f.body.rest = (before ++ [closer]) ++ lines := by
      rw [hrest, List.append_assoc]
      rfl
    have hleft := rest_cursorBefore hsplit
    refine ⟨a.feed, cursorBefore f.body lines, fun frame input => ?_,
      of_body hr haligned hloops _ hleft⟩
    rw [skipPast_of_replay hr haligned hloops, Activation.seek_of_cons _ _ hr]

end Awaits

end Machine

end InputScript
