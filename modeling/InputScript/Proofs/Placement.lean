import InputScript.Proofs.BlockBalance
import InputScript.Proofs.ControlState
import InputScript.Proofs.Intake
import InputScript.Proofs.Origin

/-!
# Where a loop was read

A loop is read as a whole before it is run: its first line, then its body up to the line that closes
it.  While it runs, nothing more is read where it came from, be it the body of the loop around it or
the feed of the script.  So the lines that were read there last are still those of the loop
(`ReadThrough`), and whoever takes its frame off the stack goes on right behind it.

What is read of a feed is counted by physical lines; `LastRead` relates the lines to these.  The
standard input is shared, and only what a script has read itself counts.

## Main results

* `Advanced.placed` — whatever a script does with its next line, its loops keep their places.
* `placed_of_leads` — so all loops of a run have the place where they were read.
-/

namespace InputScript

namespace Script

/-! ## Reading a part of a source -/

/-- The part of a source up to a line has the lines up to this one. -/
theorem readLinesFrom_take {consumed : Nat} {source : List RawLine} {before lines : List Line}
    {line : Line} {fault : Option DecodeFault}
    (h : readLinesFrom consumed source = (before ++ line :: lines, fault)) :
    readLinesFrom consumed (source.take (line.number - consumed)) = (before ++ [line], none) := by
  induction source generalizing consumed before with
  | nil =>
      rw [readLinesFrom] at h
      simp at h
  | cons raw source ih =>
      have hbounds := (readLinesFrom_after h).1
      have hindex : line.number - consumed = (line.number - (consumed + 1)) + 1 := by omega
      rw [hindex, List.take_succ_cons, readLinesFrom]
      rw [readLinesFrom] at h
      cases hdecode : raw.decode with
      | error fault => simp [hdecode] at h
      | ok text =>
          simp only [hdecode] at h ⊢
          by_cases hdrop : isDropped (Text.trim text) = true
          · rw [if_pos hdrop] at h ⊢
            rw [ih h]
          · rw [if_neg hdrop] at h ⊢
            simp only [Prod.mk.injEq] at h
            obtain ⟨hlines, hfault⟩ := h
            cases before with
            | nil =>
                cases hlines
                simp [readLinesFrom]
            | cons first before =>
                obtain ⟨rfl, hrest⟩ := List.cons.inj hlines
                rw [ih (Prod.ext hrest hfault)]
                rfl

/-- The next line of a source is the first of its lines. -/
theorem readLinesFrom_of_next {consumed n : Nat} {source : List RawLine} {line : Line}
    (h : next consumed source = (.line line, n)) :
    ∃ lines fault, readLinesFrom consumed source = (line :: lines, fault) := by
  rcases hread : readLinesFrom consumed source with ⟨_ | ⟨first, rest⟩, fault⟩
  · cases fault with
    | none =>
        rw [next_of_nil hread] at h
        cases h
    | some fault =>
        rw [next_of_fault hread] at h
        cases h
  · rw [(next_of_cons hread).1] at h
    cases h
    exact ⟨rest, fault, rfl⟩

end Script

variable {input input' : List RawLine}

namespace Machine

open Device (Sink)
open Script (Line RawLine Scratch)

/-! ## The lines that were read last -/

/-- The lines that were read last where blocks take their lines from: in the body of their innermost
loop, or else in the feed, which has been read up to the last of them and no further. -/
inductive LastRead (feed : Feed) (frames : List Frame) (lines : List Line) : Prop
  | body {f : LoopFrame} {fs : List LoopFrame} (hloops : loopsOf frames = f :: fs)
      (hread : lines <:+ f.body.lines.take f.body.cursor)
  | feed {before chunk : List RawLine} (hloops : loopsOf frames = [])
      (hread : feed.read = before ++ chunk)
      (hlines : Script.readLinesFrom before.length chunk = (lines, none))
      (hlast : ∀ last ∈ lines.getLast?, last.number = feed.consumed)

/-- What the cursor of a body is moved over was read. -/
theorem take_of_drop {lines mid : List Line} {cursor cursor' : Nat}
    (h : lines.drop cursor = mid ++ lines.drop cursor') :
    lines.take cursor' = lines.take cursor ++ mid := by
  have hsame : lines.take cursor' ++ lines.drop cursor' =
      (lines.take cursor ++ mid) ++ lines.drop cursor' := by
    rw [List.append_assoc, ← h, List.take_append_drop, List.take_append_drop]
  exact List.append_cancel_right hsame

/-- Reading a feed up to a line reads the lines up to this one. -/
theorem Feed.readLinesFrom_skipPast {f : Feed} {before rest : List Line} {line : Line}
    {fault : Option Script.DecodeFault}
    (h : Script.readLinesFrom f.consumed (f.rest input) = (before ++ line :: rest, fault)) :
    ∃ chunk, (f.skipPast input line.number).1.read = f.read ++ chunk ∧
      Script.readLinesFrom f.consumed chunk = (before ++ [line], none) ∧
      (f.skipPast input line.number).1.consumed = line.number := by
  obtain ⟨⟨hlow, hhigh⟩, -⟩ := Script.readLinesFrom_after h
  refine ⟨_, f.read_take input _, Script.readLinesFrom_take h, ?_⟩
  rw [Feed.skipPast, Feed.consumed_take]
  omega

variable {a a₁ b : Activation} {line : Line} {lines : List Line}

/-- A line that was read is the last that was read. -/
theorem lastRead_of_fetch (haligned : Aligned a.frames a.replays)
    (hfetch : a.fetch input = (.line line, a₁, input')) : LastRead a₁.feed a₁.frames [line] := by
  cases hr : a.replays with
  | nil =>
      rw [hr] at haligned
      rw [fetch_of_feed hr] at hfetch
      obtain ⟨hnext, hrest⟩ := Prod.mk.inj hfetch
      obtain ⟨rfl, -⟩ := Prod.mk.inj hrest
      obtain ⟨lines, fault, hlines⟩ := Script.readLinesFrom_of_next (Prod.ext hnext rfl)
      rw [(Script.next_of_cons hlines).1]
      obtain ⟨chunk, hread, hchunk, hconsumed⟩ :=
        Feed.readLinesFrom_skipPast (show _ = ([] ++ line :: lines, fault) from hlines)
      rw [← a.feed.length_read] at hchunk
      refine .feed haligned.loops_eq_nil hread hchunk fun last hlast => ?_
      cases hlast
      exact hconsumed.symm
  | cons replay outer =>
      obtain ⟨f, fs, hloops⟩ := (hr ▸ haligned : Aligned a.frames (replay :: outer)).exists_loop
      obtain ⟨cursor, htook⟩ := took_of_fetch haligned hfetch
      have hmoved := loopsOf_moveCursor hloops cursor
      rw [← htook.frames] at hmoved
      refine .body hmoved ?_
      have hrest : f.body.lines.drop f.body.cursor = [line] ++ f.body.lines.drop cursor :=
        htook.rest f fs hloops
      show [line] <:+ f.body.lines.take cursor
      rw [take_of_drop hrest]
      exact List.suffix_append _ _

/-- A loop that is collected is read behind the lines that were read before. -/
theorem LastRead.collect {frame : LoopFrame} {body : Body} (h : LastRead a.feed a.frames lines)
    (haligned : Aligned a.frames a.replays)
    (hbody : Collected (a.push (.loop frame)) input body b input') :
    ∃ below, b.frames = .loop frame :: below ∧
      LastRead b.feed below (lines ++ (body.lines ++ [body.closer])) := by
  obtain ⟨cursor, hframes, hreplays, -, htaken⟩ := hbody.frames_eq haligned
  refine ⟨_, hframes, ?_⟩
  cases h with
  | @body f fs hloops hread =>
      obtain ⟨htake, hrest⟩ := htaken f fs hloops
      have hdrop : f.body.lines.drop f.body.cursor =
          (body.lines ++ [body.closer]) ++ f.body.lines.drop cursor := by
        rw [show f.body.lines.drop cursor = body.rest from hrest, List.append_assoc]
        exact takeBody_eq htake
      refine .body (loopsOf_moveCursor hloops cursor) ?_
      show _ <:+ f.body.lines.take cursor
      rw [take_of_drop hdrop]
      obtain ⟨before, hbefore⟩ := hread
      exact ⟨before, by rw [← hbefore, List.append_assoc]⟩
  | @feed before chunk hloops hread hlines hlast =>
      have hnone := haligned.replays_eq_nil hloops
      obtain ⟨htake, hskipped⟩ := hbody
      rw [Awaits.upcoming_push haligned, upcoming_of_feed hnone] at htake
      rw [skipPast_of_feed (show (a.push (.loop frame)).replays = [] from hnone)] at hskipped
      obtain ⟨rfl, -⟩ := Prod.mk.inj hskipped
      have hupcoming : Script.readLinesFrom a.feed.consumed (a.feed.rest input) =
          (body.lines ++ body.closer :: body.rest, _) := Prod.ext (takeBody_eq htake) rfl
      obtain ⟨more, hmore, hchunk, hconsumed⟩ := Feed.readLinesFrom_skipPast hupcoming
      refine @LastRead.feed _ _ _ before (chunk ++ more) ?_ ?_ ?_ ?_
      · rw [moveCursor_of_no_loop hloops]
        exact hloops
      · show (a.feed.skipPast input body.closer.number).1.read = _
        rw [hmore, hread, List.append_assoc]
      · have hlength : a.feed.consumed = before.length + chunk.length := by
          rw [← a.feed.length_read, hread, List.length_append]
        rw [Script.readLinesFrom_append hlines, ← hlength, hchunk]
      · intro last hmem
        rw [← List.append_assoc, List.getLast?_concat] at hmem
        cases hmem
        exact hconsumed.symm

/-! ## Loops and their places -/

/-- A line that does not close the body belongs to it. -/
theorem takeBody_of_level {word : Option String} {n k : Nat}
    (hword : Word.firstWord line.text = .ok word) (hlevel : (Mark.ofWord word).level n = some k)
    (rest : List Line) :
    takeBody n (line :: rest) = (takeBody k rest).map (Body.prepend [line]) := by
  cases hmark : Mark.ofWord word with
  | neutral =>
      rw [hmark] at hlevel
      cases hlevel
      exact takeBody_neutral n rest hword hmark
  | opener =>
      rw [hmark] at hlevel
      cases hlevel
      exact takeBody_opener n rest hword hmark
  | closer =>
      rw [hmark] at hlevel
      cases n with
      | zero => cases hlevel
      | succ n =>
          cases hlevel
          exact takeBody_closer_succ k rest hword hmark

/-- A body is closed by the same line, whatever comes after it. -/
theorem takeBody_closer {n : Nat} {body : Body} (h : takeBody n lines = .ok body)
    (rest : List Line) :
    takeBody n (body.lines ++ body.closer :: rest) = .ok ⟨body.lines, body.closer, rest⟩ := by
  induction lines generalizing n body with
  | nil => cases h
  | cons line others ih =>
      obtain ⟨word, hword, ⟨rfl, hmark, rfl⟩ | ⟨k, inner, hlevel, hinner, rfl⟩⟩ := takeBody_cons h
      · exact takeBody_closer_zero rest hword hmark
      · rw [List.cons_append, takeBody_of_level hword hlevel, ih hinner]
        rfl

/-- The lines that were read last, where the blocks around a loop take theirs from, are the first
line of the loop, its body, and the line that closes it. -/
structure ReadThrough (feed : Feed) (below : List Frame) (f : LoopFrame) (head closer : Line) :
    Prop where
  opened : f.line = some head.number
  closes : ∀ rest, takeBody 0 (f.body.lines ++ closer :: rest) = .ok ⟨f.body.lines, closer, rest⟩
  read : LastRead feed below (head :: (f.body.lines ++ [closer]))

/-- Every loop on the stack was read through. -/
def Placed (feed : Feed) : List Frame → Prop
  | [] => True
  | .cond _ :: frames => Placed feed frames
  | .loop f :: frames => (∃ head closer, ReadThrough feed frames f head closer) ∧ Placed feed frames

theorem ReadThrough.congr {feed : Feed} {below : List Frame} {f g : LoopFrame} {head closer : Line}
    (h : ReadThrough feed below f head closer) (hline : g.line = f.line)
    (hlines : g.body.lines = f.body.lines) : ReadThrough feed below g head closer := by
  refine ⟨hline.trans h.opened, ?_, ?_⟩
  · rw [hlines]
    exact h.closes
  · rw [hlines]
    exact h.read

namespace Placed

variable {feed : Feed} {frames frames' : List Frame}

theorem of_suffix (h : Placed feed frames) (hsuffix : frames' <:+ frames) :
    Placed feed frames' := by
  induction frames with
  | nil =>
      rw [List.suffix_nil.mp hsuffix]
      trivial
  | cons frame frames ih =>
      rcases List.suffix_cons_iff.mp hsuffix with rfl | hbelow
      · exact h
      · cases frame with
        | cond c => exact ih h hbelow
        | loop f => exact ih h.2 hbelow

/-- Without loops the feed may be read. -/
theorem of_no_loop (h : loopsOf frames = []) (feed : Feed) : Placed feed frames := by
  induction frames with
  | nil => trivial
  | cons frame frames ih =>
      cases frame with
      | cond c => exact ih h
      | loop f => cases h

/-- The innermost loop may be read. -/
theorem moveCursor (h : Placed feed frames) (cursor : Nat) :
    Placed feed (moveCursor cursor frames) := by
  induction frames with
  | nil => trivial
  | cons frame frames ih =>
      cases frame with
      | cond c => exact ih h
      | loop f =>
          obtain ⟨⟨head, closer, hread⟩, hbelow⟩ := h
          exact ⟨⟨head, closer, hread.congr rfl rfl⟩, hbelow⟩

end Placed

/-- The loops of a script have their places. -/
def Activation.IsPlaced (a : Activation) : Prop := Placed a.feed a.frames

namespace Activation.IsPlaced

/-- Reading a line leaves the loops where they are. -/
theorem fetch {next : Script.Next} (h : a.IsPlaced) (haligned : Aligned a.frames a.replays)
    (hfetch : a.fetch input = (next, a₁, input')) :
    a₁.IsPlaced := by
  cases hr : a.replays with
  | nil =>
      have hsame := eq_of_fetch hr hfetch
      rw [hsame]
      exact .of_no_loop (hr ▸ haligned : Aligned a.frames []).loops_eq_nil _
  | cons replay outer =>
      have hfeed := (feed_of_fetch (by rw [hr]; exact List.cons_ne_nil _ _) hfetch).1
      show Placed a₁.feed a₁.frames
      rw [hfeed]
      cases next with
      | line line =>
          obtain ⟨cursor, htook⟩ := took_of_fetch haligned hfetch
          rw [htook.frames]
          exact Placed.moveCursor h cursor
      | finished =>
          rw [(ended_of_fetch haligned hfetch).1.1]
          exact h
      | fault d =>
          have haligned' : Aligned a.frames (replay :: outer) := hr ▸ haligned
          obtain ⟨f, fs, hloops⟩ := haligned'.exists_loop
          rw [fetch_of_replay hr haligned' hloops] at hfetch
          split at hfetch <;> cases hfetch

theorem pop (h : a.IsPlaced) : a.pop.IsPlaced := Placed.of_suffix h (List.drop_suffix 1 _)

theorem markElse (h : a.IsPlaced) : a.markElse.IsPlaced := by
  unfold IsPlaced at h
  unfold Activation.markElse
  split
  · next c frames hframes =>
      rw [hframes] at h
      exact h
  · exact h

/-- Collecting a loop leaves the loops around it where they are. -/
theorem collect {frame : LoopFrame} {body : Body} {below : List Frame} (h : a.IsPlaced)
    (haligned : Aligned a.frames a.replays)
    (hbody : Collected (a.push (.loop frame)) input body b input')
    (hframes : b.frames = .loop frame :: below) : Placed b.feed below := by
  obtain ⟨cursor, hmoved, -⟩ := hbody.frames_eq haligned
  rw [hmoved] at hframes
  obtain rfl := (List.cons.inj hframes).2
  by_cases hr : a.replays = []
  · have hnone := (hr ▸ haligned : Aligned a.frames []).loops_eq_nil
    rw [moveCursor_of_no_loop hnone]
    exact .of_no_loop hnone _
  · have hpushed : (a.push (.loop frame)).replays ≠ [] := hr
    have hfeed := feed_of_skipPast hpushed hbody.skipped
    rw [hfeed]
    exact Placed.moveCursor h cursor

end Activation.IsPlaced

/-! ## Moves -/

section Moves

variable {σ ω : Type} {s s' : Session σ ω} {m : Move}

theorem Omitted.placed {o : Omission} (h : a.IsPlaced) (hline : Omitted a o line s m s') :
    m.All Activation.IsPlaced := by
  cases hline with
  | opener _ _ => exact h
  | inner _ _ _ => exact h
  | neutral _ _ => exact h
  | close _ _ _ => exact h.pop
  | otherwise _ _ _ =>
      have hmarked : (if a.height = o.height then a.markElse else a).IsPlaced := by
        split
        · exact h.markElse
        · exact h
      exact hmarked

variable [Host σ] {inherited : Option Countdown}

theorem Iterated.placed {replay : Replay} {outer : List Replay} (h : a.IsPlaced) (hsound : Sound a)
    (hrest : ∀ f fs, loopsOf a.frames = f :: fs → f.body.rest = [])
    (hreplays : a.replays = replay :: outer) (hend : Iterated inherited a replay outer s m s') :
    m.All Activation.IsPlaced := by
  have haligned : Aligned a.frames (replay :: outer) := hreplays ▸ hsound.aligned
  obtain ⟨-, f, frames, hframes, hat, -⟩ := hsound.at_end hrest hreplays
  have hplaced : Placed a.feed (.loop f :: frames) := hframes ▸ h
  cases hend with
  | gone hgone =>
      rw [hat] at hgone
      cases hgone
  | finished hframe _ _ ha' _ =>
      rw [haligned.setLoopAt_eq, hframes] at ha'
      subst ha'
      exact hplaced.2
  | continued hframe _ _ ha' _ =>
      rw [hat] at hframe
      cases hframe
      rw [haligned.setLoopAt_eq, hframes] at ha'
      subst ha'
      obtain ⟨⟨head, closer, hread⟩, hbelow⟩ := hplaced
      exact ⟨⟨head, closer, hread.congr rfl rfl⟩, hbelow⟩

theorem Activation.IsPlaced.leaveLoops {levels left : Nat} {replays : List Replay} (h : a.IsPlaced)
    (hleave : (leaveLoops inherited a levels replays).exec s = (.ok (left, b), s')) :
    b.IsPlaced := by
  have hframes := (leaveLoops_suffix hleave).1
  have hfeed := feed_leaveLoops hleave
  show Placed b.feed b.frames
  rw [hfeed]
  exact Placed.of_suffix h hframes

variable [Sink ω] {settings : Settings}

/-- A command leaves the loops where they are; a new one is read right behind its first line. -/
theorem Performed.placed {inv : Invocation} (h : a.IsPlaced)
    (haligned : Aligned a.frames a.replays)
    (hread : ∀ {frame body b input}, Collected (a.push (.loop frame)) s.input body b input →
      ∃ line : Line, inv.line = some line.number ∧ LastRead a.feed a.frames [line])
    (hperformed : Performed settings inherited a inv s m s') : m.All Activation.IsPlaced := by
  cases hperformed with
  | simple _ _ => exact h
  | call _ _ hcall =>
      obtain ⟨feed, s₁, -, rfl⟩ := callScript_ok hcall
      exact ⟨trivial, h⟩
  | @loop _ _ frame body b _ _ _ _ hframe _ hbody _ =>
      obtain ⟨line, hnumber, hlast⟩ := hread hbody
      obtain ⟨below, hframes, hthrough⟩ := hlast.collect haligned hbody
      have hbelow := h.collect haligned hbody hframes
      show Placed _ (b.replaying frame body.lines).frames
      rw [(Activation.replaying_eq hframes).1]
      refine ⟨⟨line, body.closer, ?_, takeBody_closer hbody.taken, hthrough⟩, hbelow⟩
      rw [hframe]
      exact hnumber
  | leave _ _ _ hleave =>
      split
      · exact h.leaveLoops hleave
      · trivial
  | @cond truth _ _ _ _ => cases truth <;> exact h
  | otherwise _ _ _ => exact h.markElse
  | close _ _ => exact h.pop
  | exit _ _ => trivial

/-- Whatever a script does with its next line, its loops keep their places. -/
theorem Advanced.placed (h : a.IsPlaced) (hsound : Sound a)
    (hadvanced : Advanced settings inherited a s m s') : m.All Activation.IsPlaced := by
  cases hadvanced with
  | omitted hfetch _ hline => exact hline.placed (h.fetch hsound.aligned hfetch)
  | blank hfetch _ _ => exact h.fetch hsound.aligned hfetch
  | performed hfetch _ _ hbind hline =>
      obtain ⟨cursor, htook⟩ := took_of_fetch hsound.aligned hfetch
      exact hline.placed (h.fetch hsound.aligned hfetch) (htook.aligned hsound) fun _ =>
        ⟨_, line_of_bind hbind, lastRead_of_fetch hsound.aligned hfetch⟩
  | iterated hfetch hreplays hend =>
      obtain ⟨⟨hframes, hsame, homit⟩, hrest⟩ := ended_of_fetch hsound.aligned hfetch
      refine hend.placed (h.fetch hsound.aligned hfetch) (hsound.congr hframes hsame homit)
        ?_ hreplays
      rw [hframes]
      exact hrest
  | finished _ _ _ _ => trivial

/-- All loops of a run have the place where they were read. -/
theorem placed_of_leads {launch : Launch} {s₀ : Session σ ω}
    (hshell : ∀ {line activations s},
      Executes settings (launch.start settings s₀) line activations s →
      ShellKeeps settings.shell line s)
    {activations : List Activation}
    (h : Leads settings (launch.start settings s₀) (.running activations, s)) :
    ∀ a ∈ activations, a.IsPlaced := by
  refine all_of_launch (fun ha hleave => ha.leaveLoops hleave) (fun _ _ _ => trivial)
    (fun _ _ hperformed => ?_) (fun hleads ha hadvanced => ?_) h
  · have hfresh : freshCommand.IsPlaced := trivial
    exact hperformed.placed hfresh .nil fun hbody => by cases hbody.taken
  · have hsteady := standing_of_leads hshell hleads _ List.mem_cons_self
    exact hadvanced.placed ha hsteady.toSound

end Moves

end Machine

end InputScript
