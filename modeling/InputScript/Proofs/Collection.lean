import InputScript.Proofs.BlockBalance
import InputScript.Proofs.Iterations
import InputScript.Proofs.Placement

/-!
# Collecting a loop body

The body of a loop is found by counting: the first `end` at which more blocks have been closed than
opened is the one that belongs to the loop.  What is found is said here without the counter.  The
lines before that `end` are balanced (`BalancedLines`), and there is no other way to cut the lines into
a balanced part, an `end` and a rest (`takeBody_eq_ok_iff`).

Collecting does not read line by line: it looks at all lines to come, and then skips those that it has
taken.  `Delivers` is reading line by line, and collecting leaves the script, and the standard input,
just where that would leave them.

## Main results

* `closes_iff_balanced` — the counter never fails on balanced lines, and ends at zero.
* `delivers_skipPast` — skipping past a line is reading all lines up to it.
* `collection_takes_body` — collecting takes the body, or everything.
-/

namespace InputScript

namespace Machine

open Device (Sink)
open Script (Line RawLine Scratch DecodeFault)

/-! ## Balanced lines -/

/-- The first words of some lines.  Every line has to have one to go by. -/
def FirstWords (lines : List Line) (words : List (Option String)) : Prop :=
  lines.map (fun line => Word.firstWord line.text) = words.map .ok

/-- The words that open a block, `loop` and `if`. -/
def openers (words : List (Option String)) : Nat :=
  words.count (some Verb.loop.name) + words.count (some Verb.cond.name)

/-- The words that close a block, `end`. -/
def closers (words : List (Option String)) : Nat := words.count (some Verb.close.name)

/-- The lines open as many blocks as they close, and none of them closes a block that was not opened
before it. -/
def BalancedLines (lines : List Line) : Prop :=
  ∃ words, FirstWords lines words ∧ closers words = openers words ∧
    ∀ k, closers (words.take k) ≤ openers (words.take k)

/-- The lines are cut into a balanced part, a line that closes it, and a rest. -/
structure Cuts (lines : List Line) (body : Body) : Prop where
  lines : lines = body.lines ++ body.closer :: body.rest
  balanced : BalancedLines body.lines
  closer : Word.firstWord body.closer.text = .ok (some Verb.close.name)

theorem Mark.ofWord_eq_closer_iff {word : Option String} :
    Mark.ofWord word = .closer ↔ word = some Verb.close.name := by
  constructor
  · intro h
    cases word with
    | none => cases h
    | some name =>
        cases hverb : Verb.ofName? name with
        | none =>
            rw [Mark.ofWord, hverb] at h
            cases h
        | some verb =>
            obtain rfl := Verb.name_of_ofName? hverb
            rw [Mark.ofWord_name] at h
            cases verb with
            | close => rfl
            | _ => cases h
  · rintro rfl
    rw [Mark.ofWord_name]
    rfl

/-- A line closes no block that is not open, or it is the last one of its body. -/
theorem Mark.level_or_closer (mark : Mark) (n : Nat) :
    (∃ l, mark.level n = some l) ∨ (mark = .closer ∧ n = 0) := by
  cases mark with
  | opener => exact .inl ⟨_, rfl⟩
  | neutral => exact .inl ⟨_, rfl⟩
  | closer =>
      cases n with
      | zero => exact .inr ⟨rfl, rfl⟩
      | succ n => exact .inl ⟨_, rfl⟩

theorem openers_append (words more : List (Option String)) :
    openers (words ++ more) = openers words + openers more := by
  unfold openers
  rw [List.count_append, List.count_append]
  omega

theorem closers_append (words more : List (Option String)) :
    closers (words ++ more) = closers words + closers more :=
  List.count_append

/-- Counting up and down along the lines from `n` on never falls below zero, and ends there. -/
theorem closes_iff {n : Nat} {lines : List Line} :
    Closes n lines ↔ ∃ words, FirstWords lines words ∧ closers words = n + openers words ∧
      ∀ k, closers (words.take k) ≤ n + openers (words.take k) := by
  constructor
  · intro h
    obtain ⟨words, hwords, hparts, hwhole⟩ := h.counts
    exact ⟨words, hwords, by rw [openers, ← Nat.add_assoc]; exact hwhole,
      fun k => by rw [openers, ← Nat.add_assoc]; exact hparts k⟩
  · rintro ⟨words, hwords, hwhole, hparts⟩
    induction lines generalizing n words with
    | nil =>
        obtain rfl := List.map_eq_nil_iff.mp hwords.symm
        show n = 0
        simpa [closers, openers] using hwhole.symm
    | cons line lines ih =>
        cases words with
        | nil => cases hwords
        | cons word words =>
            obtain ⟨hword, hrest⟩ := List.cons.inj hwords
            have hfirst : closers [word] ≤ n + openers [word] := hparts 1
            have hlevel : ∃ l, (Mark.ofWord word).level n = some l := by
              rcases (Mark.ofWord word).level_or_closer n with hlevel | ⟨hcloser, rfl⟩
              · exact hlevel
              · rw [Mark.ofWord_eq_closer_iff.mp hcloser] at hfirst
                exact absurd hfirst (by decide)
            obtain ⟨l, hlevel⟩ := hlevel
            have hcount : l + closers [word] = n + openers [word] := by
              rw [openers, ← Nat.add_assoc]
              exact Mark.level_count hlevel
            refine ⟨word, l, hword, hlevel, ih words hrest ?_ fun k => ?_⟩
            · rw [← List.singleton_append, closers_append, openers_append] at hwhole
              omega
            · have hpart := hparts (k + 1)
              rw [List.take_succ_cons, ← List.singleton_append, closers_append,
                openers_append] at hpart
              omega

theorem closes_iff_balanced {lines : List Line} : Closes 0 lines ↔ BalancedLines lines := by
  rw [closes_iff, BalancedLines]
  simp only [Nat.zero_add]

/-! ## Taking a body -/

theorem takeBody_of_closes_closer {n : Nat} {lines : List Line} {closer : Line}
    (h : Closes n lines) (hcloser : Word.firstWord closer.text = .ok (some Verb.close.name))
    (rest : List Line) : takeBody n (lines ++ closer :: rest) = .ok ⟨lines, closer, rest⟩ := by
  induction lines generalizing n with
  | nil =>
      obtain rfl : n = 0 := h
      exact takeBody_closer_zero rest hcloser (Mark.ofWord_eq_closer_iff.mpr rfl)
  | cons line lines ih =>
      obtain ⟨word, l, hword, hlevel, hrest⟩ := h
      rw [List.cons_append, takeBody_of_level hword hlevel, ih hrest]
      rfl

theorem closer_of_takeBody {n : Nat} {lines : List Line} {body : Body}
    (h : takeBody n lines = .ok body) :
    Word.firstWord body.closer.text = .ok (some Verb.close.name) := by
  induction lines generalizing n body with
  | nil => cases h
  | cons line lines ih =>
      obtain ⟨word, hword, ⟨-, hmark, rfl⟩ | ⟨k, inner, -, hinner, rfl⟩⟩ := takeBody_cons h
      · rw [← Mark.ofWord_eq_closer_iff.mp hmark]
        exact hword
      · have hclosed := ih hinner
        exact hclosed

/-- The body that is taken is the only one. -/
theorem takeBody_eq_ok_iff {lines : List Line} {body : Body} :
    takeBody 0 lines = .ok body ↔ Cuts lines body := by
  constructor
  · intro h
    exact ⟨takeBody_eq h, closes_iff_balanced.mp (closes_of_takeBody h), closer_of_takeBody h⟩
  · rintro ⟨rfl, hbalanced, hcloser⟩
    exact takeBody_of_closes_closer (closes_iff_balanced.mpr hbalanced) hcloser body.rest

/-- If every line has a first word, then no body is taken only where there is none. -/
theorem takeBody_eq_unfinished {lines : List Line}
    (hwords : ∀ line ∈ lines, ∃ word, Word.firstWord line.text = .ok word)
    (h : ∀ body, ¬ Cuts lines body) : takeBody 0 lines = .error .unfinished := by
  cases htake : takeBody 0 lines with
  | ok body => exact absurd (takeBody_eq_ok_iff.mp htake) (h body)
  | error fault =>
      cases fault with
      | unfinished => rfl
      | obscure line trouble =>
          obtain ⟨hmem, htrouble⟩ := of_takeBody_obscure htake
          obtain ⟨word, hword⟩ := hwords line hmem
          rw [hword] at htrouble
          cases htrouble

/-! ## Reading line by line -/

/-- Reading line by line delivers some lines; with them go the activation and the standard input
afterwards. -/
inductive Delivers : Activation → List RawLine → List Line → Activation → List RawLine → Prop
  | nil (a : Activation) (input : List RawLine) : Delivers a input [] a input
  | cons {a a₁ a' : Activation} {input input₁ input' : List RawLine} {line : Line}
      {lines : List Line} (hfetch : a.fetch input = (.line line, a₁, input₁))
      (hrest : Delivers a₁ input₁ lines a' input') : Delivers a input (line :: lines) a' input'

namespace Feed

variable {f : Feed} {input : List RawLine}

/-- Reading on past a line is the same from any line before it. -/
theorem skipPast_skipPast {m n : Nat} (hlow : f.consumed ≤ m) (hle : m ≤ n)
    (hhigh : m ≤ f.consumed + (f.rest input).length) :
    (f.skipPast input m).1.skipPast (f.skipPast input m).2 n = f.skipPast input n := by
  have hconsumed : (f.skipPast input m).1.consumed = m := by
    rw [skipPast, consumed_take]
    omega
  have hcount : n - f.consumed = (m - f.consumed) + (n - m) := by omega
  rw [skipPast, hconsumed, skipPast, skipPast, hcount]
  rcases f with ⟨_ | source, past⟩ <;> simp [take, rest, List.take_add]

/-- What is left of the standard input when everything is read. -/
theorem skipAll_input (f : Feed) (input : List RawLine) :
    (f.skipAll input).2 = if f.pending.isSome then input else [] := by
  rcases f with ⟨_ | source, past⟩ <;> simp [skipAll, take, rest]

end Feed

namespace Activation

variable {a : Activation} {input : List RawLine} {line : Line} {before lines rest : List Line}
  {fault : Option DecodeFault}

/-- The lines to come of a body that is replayed. -/
theorem upcoming_of_loopAt? {replay : Replay} {outer : List Replay} {f : LoopFrame}
    (hreplays : a.replays = replay :: outer) (hat : a.loopAt? replay.base = some f)
    (input : List RawLine) : a.upcoming input = (f.body.rest, none) := by
  unfold upcoming
  rw [hreplays]
  simp only [hat]

/-- Lines to come are those of a feed, or of a body that is replayed. -/
theorem source_of_upcoming (h : a.upcoming input = (before ++ line :: rest, fault)) :
    (a.replays = [] ∧
      Script.readLinesFrom a.feed.consumed (a.feed.rest input) = (before ++ line :: rest, fault)) ∨
    ∃ replay outer f, a.replays = replay :: outer ∧ a.loopAt? replay.base = some f ∧
      f.body.rest = before ++ line :: rest ∧ fault = none := by
  cases hreplays : a.replays with
  | nil => exact .inl ⟨rfl, (upcoming_of_feed hreplays input).symm.trans h⟩
  | cons replay outer =>
      cases hat : a.loopAt? replay.base with
      | none =>
          unfold upcoming at h
          rw [hreplays] at h
          simp only [hat, Prod.mk.injEq] at h
          exact absurd h.1.symm (List.append_ne_nil_of_right_ne_nil _ (List.cons_ne_nil _ _))
      | some f =>
          rw [upcoming_of_loopAt? hreplays hat] at h
          obtain ⟨hrest, hfault⟩ := Prod.mk.inj h
          exact .inr ⟨replay, outer, f, rfl, hat, hrest, hfault.symm⟩

/-- Skipping in a body that is replayed moves its cursor. -/
theorem skipPast_of_loopAt? {replay : Replay} {outer : List Replay} {f : LoopFrame}
    (hreplays : a.replays = replay :: outer) (hat : a.loopAt? replay.base = some f)
    (input : List RawLine) (line : Line) (rest : List Line) :
    a.skipPast input line rest =
      (a.setLoopAt replay.base
        { f with body := { f.body with cursor := cursorBefore f.body rest } }, input) := by
  unfold skipPast
  rw [hreplays]
  simp only [hat]
  rfl

theorem setLoopAt_setLoopAt (a : Activation) (height : Nat) (f g : LoopFrame) :
    (a.setLoopAt height f).setLoopAt height g = a.setLoopAt height g := by
  have hheight : (a.setLoopAt height f).height = a.height := List.length_set
  unfold setLoopAt
  rw [show (({ a with frames := a.frames.set (a.height - height) (.loop f) } : Activation).height) =
    a.height from hheight, List.set_set]

/-- Skipping past a line leaves the lines after it. -/
theorem upcoming_skipPast (h : a.upcoming input = (before ++ line :: rest, fault)) :
    (a.skipPast input line rest).1.upcoming (a.skipPast input line rest).2 = (rest, fault) := by
  rcases source_of_upcoming h with ⟨hreplays, hlines⟩ | ⟨replay, outer, f, hreplays, hat, hlines, rfl⟩
  · obtain ⟨⟨hlow, hhigh⟩, hafter⟩ := Script.readLinesFrom_after hlines
    have hconsumed : (a.feed.skipPast input line.number).1.consumed = line.number := by
      rw [Feed.skipPast, Feed.consumed_take]
      omega
    rw [skipPast_of_feed hreplays]
    rw [upcoming_of_feed (a := { a with feed := (a.feed.skipPast input line.number).1 }) hreplays]
    show Script.readLinesFrom (a.feed.skipPast input line.number).1.consumed
      ((a.feed.skipPast input line.number).1.rest (a.feed.skipPast input line.number).2) = _
    rw [hconsumed, Feed.skipPast, Feed.rest_take]
    exact hafter
  · have hsplit : f.body.rest = (before ++ [line]) ++ rest := by
      rw [hlines, List.append_assoc, List.singleton_append]
    rw [skipPast_of_loopAt? hreplays hat]
    rw [upcoming_of_loopAt? (a := a.setLoopAt replay.base _) hreplays (loopAt?_setLoopAt_self hat _),
      rest_cursorBefore hsplit]

/-- Reading the next line is skipping past it. -/
theorem fetch_of_upcoming (h : a.upcoming input = (line :: rest, fault)) :
    a.fetch input = (.line line, a.skipPast input line rest) := by
  rcases source_of_upcoming (show _ = ([] ++ line :: rest, fault) from h) with
    ⟨hreplays, hlines⟩ | ⟨replay, outer, f, hreplays, hat, hlines, rfl⟩
  · rw [fetch_of_feed hreplays, (Script.next_of_cons hlines).1, skipPast_of_feed hreplays]
  · have hcursor : cursorBefore f.body rest = f.body.cursor + 1 := by
      have hlength := congrArg List.length hlines
      rw [Scratch.rest, List.length_drop, List.nil_append, List.length_cons] at hlength
      unfold cursorBefore
      omega
    rw [skipPast_of_loopAt? hreplays hat, hcursor]
    unfold fetch
    rw [hreplays]
    simp only [hat, (advance_of_rest hlines).1]

/-- Skipping past a line is reading the next line and skipping on. -/
theorem skipPast_cons {between : List Line} {later : Line}
    (h : a.upcoming input = (line :: (between ++ later :: rest), fault)) :
    (a.skipPast input line (between ++ later :: rest)).1.skipPast
      (a.skipPast input line (between ++ later :: rest)).2 later rest =
      a.skipPast input later rest := by
  rcases source_of_upcoming (show _ = ([] ++ line :: (between ++ later :: rest), fault) from h) with
    ⟨hreplays, hlines⟩ | ⟨replay, outer, f, hreplays, hat, -, rfl⟩
  · obtain ⟨⟨hlow, hhigh⟩, -⟩ := Script.readLinesFrom_after hlines
    have hlt : line.number < later.number := Script.number_lt_of_readLinesFrom hlines
    have hfeed := Feed.skipPast_skipPast (Nat.le_of_lt hlow) (Nat.le_of_lt hlt) hhigh
    rw [skipPast_of_feed hreplays, skipPast_of_feed hreplays]
    rw [skipPast_of_feed (a := { a with feed := (a.feed.skipPast input line.number).1 }) hreplays]
    show (({ a with feed := _ } : Activation), _) = _
    rw [hfeed]
  · rw [skipPast_of_loopAt? hreplays hat, skipPast_of_loopAt? hreplays hat,
      skipPast_of_loopAt? (a := a.setLoopAt replay.base _) hreplays (loopAt?_setLoopAt_self hat _),
      setLoopAt_setLoopAt]
    rfl

/-- Where no line is to come, reading finds the end of the source and nothing is left to read. -/
theorem fetch_of_upcoming_nil (h : a.upcoming input = ([], none)) :
    ∃ a', a.fetch input = (.finished, a', a.drain input none) ∧
      a'.upcoming (a.drain input none) = ([], none) := by
  cases hreplays : a.replays with
  | nil =>
      rw [upcoming_of_feed hreplays] at h
      have hall : a.feed.skipPast input (a.feed.consumed + (a.feed.rest input).length) =
          a.feed.skipAll input := by
        rw [Feed.skipPast, Nat.add_sub_cancel_left, Feed.skipAll]
      have hdrain : a.drain input none = (a.feed.skipAll input).2 := by
        unfold drain
        rw [hreplays]
      refine ⟨{ a with feed := (a.feed.skipAll input).1 }, ?_, ?_⟩
      · rw [fetch_of_feed hreplays, Script.next_of_nil h, hall, hdrain]
      · rw [upcoming_of_feed (a := { a with feed := (a.feed.skipAll input).1 }) hreplays, hdrain]
        show Script.readLinesFrom (a.feed.skipAll input).1.consumed
          ((a.feed.skipAll input).1.rest (a.feed.skipAll input).2) = ([], none)
        rw [Feed.skipAll, Feed.rest_take, List.drop_length]
        rfl
  | cons replay outer =>
      have hdrain : a.drain input none = input := by
        unfold drain
        rw [hreplays]
      refine ⟨a, ?_, by rw [hdrain]; exact h⟩
      rw [hdrain]
      unfold fetch
      rw [hreplays]
      cases hat : a.loopAt? replay.base with
      | none => simp only [hat]
      | some f =>
          rw [upcoming_of_loopAt? hreplays hat] at h
          simp only [hat, advance_of_rest_nil (Prod.mk.inj h).1]

/-- Reading on does not change what is left of the standard input in the end. -/
theorem drain_skipPast (h : a.upcoming input = (before ++ line :: rest, fault)) :
    (a.skipPast input line rest).1.drain (a.skipPast input line rest).2 none =
      a.drain input none := by
  rcases source_of_upcoming h with ⟨hreplays, -⟩ | ⟨replay, outer, f, hreplays, hat, -, -⟩
  · rw [skipPast_of_feed hreplays]
    unfold drain
    simp only [hreplays, Feed.skipAll_input]
    rcases a.feed with ⟨_ | source, past⟩ <;> rfl
  · rw [skipPast_of_loopAt? hreplays hat]
    unfold drain
    have hsame : (a.setLoopAt replay.base
        { f with body := { f.body with cursor := cursorBefore f.body rest } }).replays = a.replays := rfl
    simp only [hsame, hreplays]

end Activation

/-- Skipping past a line is reading all lines up to it. -/
theorem delivers_skipPast {a : Activation} {input : List RawLine} {before rest : List Line}
    {line : Line} {fault : Option DecodeFault}
    (h : a.upcoming input = (before ++ line :: rest, fault)) :
    Delivers a input (before ++ [line]) (a.skipPast input line rest).1
      (a.skipPast input line rest).2 := by
  induction before generalizing a input with
  | nil => exact .cons (Activation.fetch_of_upcoming h) (.nil _ _)
  | cons first before ih =>
      have hdelivers := ih (Activation.upcoming_skipPast
        (show _ = ([] ++ first :: (before ++ line :: rest), fault) from h))
      rw [Activation.skipPast_cons h] at hdelivers
      exact .cons (Activation.fetch_of_upcoming h) hdelivers

/-- All lines to come can be read, and then the end is found. -/
theorem delivers_all {a : Activation} {input : List RawLine} {lines : List Line}
    (h : a.upcoming input = (lines, none)) :
    ∃ a₁ input₁ a', Delivers a input lines a₁ input₁ ∧
      a₁.fetch input₁ = (.finished, a', a.drain input none) ∧
      a'.upcoming (a.drain input none) = ([], none) := by
  rcases List.eq_nil_or_concat lines with rfl | ⟨before, last, rfl⟩
  · obtain ⟨a', hfetch, hnone⟩ := Activation.fetch_of_upcoming_nil h
    exact ⟨a, input, a', .nil _ _, hfetch, hnone⟩
  · rw [List.concat_eq_append] at h ⊢
    obtain ⟨a', hfetch, hnone⟩ := Activation.fetch_of_upcoming_nil (Activation.upcoming_skipPast h)
    rw [Activation.drain_skipPast h] at hfetch hnone
    exact ⟨_, _, a', delivers_skipPast h, hfetch, hnone⟩

/-! ## Collecting -/

section Collect

variable {σ ω : Type}

/-- What collecting does with the lines to come, all of which can be decoded. -/
inductive Collects (a : Activation) (s : Session σ ω) (lines : List Line) : Prop
  /-- There is one way to cut a body off the lines.  The body is taken as it stands, and the script
  has read the lines up to the one that closes it.  A loop on top of the stack that is started with
  this body will have just these lines to come. -/
  | body (body : Body) (a' : Activation) (input' : List RawLine) (hcuts : Cuts lines body)
      (honly : ∀ other, Cuts lines other → other = body)
      (hcollect : (collect a).exec s = (.ok (body.lines, a'), { s with input := input' }))
      (hread : Delivers a s.input (body.lines ++ [body.closer]) a' input')
      (hrest : a'.upcoming input' = (body.rest, none))
      (hreplay : a.frames ≠ [] → ∀ (frame : LoopFrame) (input : List RawLine),
        (a'.replaying frame body.lines).upcoming input = (body.lines, none))
  /-- No body can be cut off.  Then the script has read all lines up to the end of its source. -/
  | unfinished (a₁ a' : Activation) (input₁ input' : List RawLine)
      (hnone : ∀ body, ¬ Cuts lines body)
      (hcollect : (collect a).exec s =
        (.error (.fault { fault := .control (.loopUnterminated a.height) }),
          { s with input := input' }))
      (hread : Delivers a s.input lines a₁ input₁)
      (hend : a₁.fetch input₁ = (.finished, a', input'))
      (hrest : a'.upcoming input' = ([], none))

variable {a : Activation} {lines : List Line} {s : Session σ ω}

theorem exec_collect_of_body {body : Body} (h : a.upcoming s.input = (lines, none))
    (hbody : takeBody 0 lines = .ok body) :
    (collect a).exec s = (.ok (body.lines, (a.skipPast s.input body.closer body.rest).1),
      { s with input := (a.skipPast s.input body.closer body.rest).2 }) := by
  unfold collect
  rw [Act.exec_bind_of_ok (Act.exec_get s), h]
  dsimp only
  rw [hbody]
  rfl

theorem exec_collect_of_unfinished (h : a.upcoming s.input = (lines, none))
    (hbody : takeBody 0 lines = .error .unfinished) :
    (collect a).exec s = (.error (.fault { fault := .control (.loopUnterminated a.height) }),
      { s with input := a.drain s.input none }) := by
  unfold collect
  rw [Act.exec_bind_of_ok (Act.exec_get s), h]
  dsimp only
  rw [hbody]
  rfl

/-- A loop that is started has the lines of its body to come. -/
theorem Activation.upcoming_replaying (h : a.frames ≠ []) (frame : LoopFrame) (lines : List Line)
    (input : List RawLine) :
    (a.replaying frame lines).upcoming input = (lines, none) := by
  obtain ⟨top, below, hframes⟩ := List.exists_cons_of_ne_nil h
  have hat : (a.replaying frame lines).loopAt? (a.setLoopAt a.height
      { frame with body := { lines } }).height = some { frame with body := { lines } } := by
    unfold loopAt? replaying setLoopAt height
    simp [hframes, Frame.loop?]
  rw [upcoming_of_loopAt? (a := a.replaying frame lines) rfl hat]
  rfl

theorem collects_of_words (hlines : a.upcoming s.input = (lines, none))
    (hwords : ∀ line ∈ lines, ∃ word, Word.firstWord line.text = .ok word) :
    Collects a s lines := by
  by_cases hcut : ∃ body, Cuts lines body
  · obtain ⟨body, hcuts⟩ := hcut
    have htake := takeBody_eq_ok_iff.mpr hcuts
    have hparts : a.upcoming s.input = (body.lines ++ body.closer :: body.rest, none) :=
      hcuts.lines ▸ hlines
    refine .body body _ _ hcuts (fun other hother => ?_) (exec_collect_of_body hlines htake)
      (delivers_skipPast hparts) (Activation.upcoming_skipPast hparts) fun hframes frame input => ?_
    · exact Except.ok.inj ((takeBody_eq_ok_iff.mpr hother).symm.trans htake)
    · refine Activation.upcoming_replaying (fun hnil => hframes ?_) frame body.lines input
      have hheight := (Activation.height_skipPast
        (rfl : a.skipPast s.input body.closer body.rest = (_, _))).1
      exact List.length_eq_zero_iff.mp (hheight.symm.trans (List.length_eq_zero_iff.mpr hnil))
  · have hnone : ∀ body, ¬ Cuts lines body := fun body hcuts => hcut ⟨body, hcuts⟩
    obtain ⟨a₁, input₁, a', hread, hend, hrest⟩ := delivers_all hlines
    exact .unfinished a₁ a' input₁ _ hnone
      (exec_collect_of_unfinished hlines (takeBody_eq_unfinished hwords hnone)) hread hend hrest

/-- **Collecting takes exactly the body of a loop**.  Let the lines to come be decoded, and let each of
them have a first word to go by.  Then the body is the one balanced part of them that an `end` follows,
and it is taken line by line as it stands; or else there is none, everything is read, and the loop is
reported as not terminated.  While a body that was taken is replayed, loops inside of it are collected
from it in the same way. -/
theorem collection_takes_body (a : Activation) (s : Session σ ω) (lines : List Line)
    (hlines : a.upcoming s.input = (lines, none))
    (hwords : ∀ line ∈ lines, ∃ word, Word.firstWord line.text = .ok word) :
    Collects a s lines ∧
      ∀ body, Cuts lines body →
        ∀ (b : Activation) (t : Session σ ω) (replay : Replay) (outer : List Replay) (f : LoopFrame),
          b.replays = replay :: outer → b.loopAt? replay.base = some f →
          f.body.lines = body.lines → Collects b t f.body.rest := by
  refine ⟨collects_of_words hlines hwords, ?_⟩
  intro body hcuts b t replay outer f hreplays hat hbody
  refine collects_of_words (Activation.upcoming_of_loopAt? hreplays hat t.input) fun line hline => ?_
  refine hwords line ?_
  rw [hcuts.lines, ← hbody]
  exact List.mem_append_left _ (List.mem_of_mem_drop hline)

end Collect

/-! ### A loop in a loop on standard input -/

/-- The lines behind the head of a loop. -/
def nestedLoop : List RawLine :=
  [.text "  loop 3\n", .text "    key KEY_A\n", .text "  end\n", .text "\n", .text "end\n",
   .text "# done\n", .text "exit\n"]

/-- A script on standard input that has just entered a loop. -/
def enteringLoop : Activation :=
  { freshScript "-" 0 { pending := none, past := [.text "loop 2\n"] } with
    frames := [.loop { remaining := some 2, deadline := none, line := some 1 }] }

/-- The body of the outer loop, which holds the inner one. -/
def nestedBody : Body where
  lines := [⟨2, "loop 3"⟩, ⟨3, "key KEY_A"⟩, ⟨4, "end"⟩]
  closer := ⟨6, "end"⟩
  rest := [⟨8, "exit"⟩]

/-- The outer loop, after the head of the inner one was read from its body. -/
def outerLoop : LoopFrame where
  remaining := some 2
  deadline := none
  line := some 1
  body := { lines := nestedBody.lines, cursor := 1 }

/-- The script in the outer loop has just entered the inner one. -/
def enteringInner : Activation :=
  { enteringLoop with
    frames := [.loop { remaining := some 3, deadline := none, line := some 2 }, .loop outerLoop]
    replays := [{ base := 1 }] }

namespace NestedLoop

/-- All lines behind the head of the loop. -/
def lines : List Line := nestedBody.lines ++ nestedBody.closer :: nestedBody.rest

theorem upcoming : enteringLoop.upcoming nestedLoop = (lines, none) := rfl

theorem firstWord_loop : Word.firstWord "loop 3" = .ok (some "loop") := rfl

theorem firstWord_key : Word.firstWord "key KEY_A" = .ok (some "key") := rfl

theorem firstWord_end : Word.firstWord "end" = .ok (some "end") := rfl

theorem firstWord_exit : Word.firstWord "exit" = .ok (some "exit") := rfl

theorem words : ∀ line ∈ lines, ∃ word, Word.firstWord line.text = .ok word := by
  intro line hline
  simp only [lines, nestedBody, List.cons_append, List.nil_append, List.mem_cons,
    List.not_mem_nil, or_false] at hline
  rcases hline with rfl | rfl | rfl | rfl | rfl
  · exact ⟨_, firstWord_loop⟩
  · exact ⟨_, firstWord_key⟩
  · exact ⟨_, firstWord_end⟩
  · exact ⟨_, firstWord_end⟩
  · exact ⟨_, firstWord_exit⟩

theorem cuts : Cuts lines nestedBody where
  lines := rfl
  balanced := closes_iff_balanced.mp ⟨_, 1, firstWord_loop, rfl, _, 1, firstWord_key, rfl,
    _, 0, firstWord_end, rfl, rfl⟩
  closer := firstWord_end

end NestedLoop

/-- The outer loop is collected up to the second `end`, and the inner one from its body. -/
theorem collection_takes_body_nestedLoop :
    (enteringLoop.upcoming nestedLoop = (NestedLoop.lines, none) ∧
      ∀ line ∈ NestedLoop.lines, ∃ word, Word.firstWord line.text = .ok word) ∧
      Cuts NestedLoop.lines nestedBody ∧
      Collects enteringLoop { idle with input := nestedLoop } NestedLoop.lines ∧
      Collects enteringInner idle [⟨3, "key KEY_A"⟩, ⟨4, "end"⟩] := by
  obtain ⟨houter, hinner⟩ := collection_takes_body enteringLoop { idle with input := nestedLoop }
    NestedLoop.lines NestedLoop.upcoming NestedLoop.words
  exact ⟨⟨NestedLoop.upcoming, NestedLoop.words⟩, NestedLoop.cuts, houter,
    hinner nestedBody NestedLoop.cuts enteringInner idle { base := 1 } [] outerLoop rfl rfl rfl⟩

end Machine

end InputScript
