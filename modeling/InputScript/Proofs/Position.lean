import InputScript.Proofs.Blocks
import InputScript.Proofs.Commands
import InputScript.Proofs.FirstWord
import InputScript.Proofs.Origin
import InputScript.Proofs.Utf8
import InputScript.Sandbox

/-!
# Where a failure is reported

A failure carries the name of a script and the number of a line.  Both are attached where the
failure passes: a line attaches its own number and the name of its script, and a script that is
abandoned attaches the line that called it, each only where nothing is attached yet.

`cause?` says what a failing step stumbles over, without a look at positions: the line that is next,
a line of the loop body that this line collects, or the end of the script inside of a block.  A
failure is reported at its cause, with one exception: a physical line that is not UTF-8 has its
number attached when it is met as the next line, but the name of the script is left to the caller, so
that the number of one script goes with the name of another, or with none.

## Main results

* `Expansion.fullText_of_failed` — a shell that fails is quoted in the report.
* `advance_fault` — the position that a failing line leaves.
* `failure_position` — the position that the run of a script reports, and when it is the right one.
-/

namespace InputScript

/-! ## Reports -/

/-- The report of a fault leaves the position open. -/
theorem Fault.report_unplaced (fault : Fault) :
    fault.report.context.lookup "source" = none ∧ fault.report.context.lookup "line" = none := by
  cases fault with
  | control fault =>
      cases fault with
      | mismatched verb depth => cases depth <;> exact ⟨rfl, rfl⟩
      | _ => exact ⟨rfl, rfl⟩
  | binding fault => cases fault <;> exact ⟨rfl, rfl⟩
  | lookup fault => cases fault <;> exact ⟨rfl, rfl⟩
  | _ => exact ⟨rfl, rfl⟩

theorem Fields.lookup_setDefault_self {fields : Fields} {name : String}
    (h : fields.lookup name = none) (value : Datum) :
    (fields.setDefault name value).lookup name = some value := by
  simp [setDefault, h, List.lookup_append]

theorem Fields.lookup_setDefault_of_ne {name other : String} (hne : (other == name) = false)
    (fields : Fields) (value : Datum) :
    (fields.setDefault name value).lookup other = fields.lookup other := by
  unfold setDefault
  split
  · rfl
  · simp [List.lookup_append, List.lookup_cons, hne]

/-- A failure reports the position that is attached to it. -/
theorem Failure.report_position (f : Failure) :
    f.report.context.lookup "source" = f.source.map .text ∧
      f.report.context.lookup "line" = f.line.map .ofNat := by
  obtain ⟨hsource, hline⟩ := f.fault.report_unplaced
  obtain ⟨fault, _ | source, _ | line⟩ := f
  · exact ⟨hsource, hline⟩
  · exact ⟨(Fields.lookup_setDefault_of_ne rfl _ _).trans hsource,
      Fields.lookup_setDefault_self hline _⟩
  · exact ⟨Fields.lookup_setDefault_self hsource _,
      (Fields.lookup_setDefault_of_ne rfl _ _).trans hline⟩
  · refine ⟨?_, Fields.lookup_setDefault_self ?_ _⟩
    · exact (Fields.lookup_setDefault_of_ne rfl _ _).trans (Fields.lookup_setDefault_self hsource _)
    · exact (Fields.lookup_setDefault_of_ne rfl _ _).trans hline

/-- A shell that fails is quoted: what it said follows the message, or else its status. -/
theorem Expansion.fullText_of_failed {f : Finished} {cs : List Char} (hstatus : f.status ≠ 0)
    (hcs : Text.decodeUtf8 f.complaint = .ok cs) :
    ∃ fault, ofFinished f = .error fault ∧
      (Fault.expansion fault).report.fullText = "expansion failed: " ++
        if Text.trimChars cs = [] then "exit status " ++ Text.decimalInt f.status
        else String.ofList (Text.trimChars cs) := by
  have htrim : Text.trim (String.ofList cs) = String.ofList (Text.trimChars cs) := by
    rw [Text.trim, String.toList_ofList]
  refine ⟨_, if_pos (bne_iff_ne.mpr hstatus), ?_⟩
  rw [Text.decodeLossy_of_decodeUtf8 hcs, htrim]
  by_cases hsaid : Text.trimChars cs = []
  · rw [if_pos hsaid, hsaid, ← String.append_assoc]
    rfl
  · rw [if_neg hsaid, if_neg (by simpa using hsaid)]
    rfl

namespace Machine

open Device (Sink)
open Script (Line RawLine DecodeFault IsLine IsUndecodable)

variable {σ ω : Type} [Host σ] {inherited : Option Countdown} {s s' : Session σ ω} {f : Failure}

/-! ## Causes -/

/-- What a failing step stumbles over. -/
inductive Cause
  /-- The next physical line is not UTF-8. -/
  | undecodable (fault : DecodeFault)
  /-- The next line cannot be skipped, split, bound or executed. -/
  | current (line : Line)
  /-- A line of the loop body that is collected has no first word to tell. -/
  | bodyLine (line : Line)
  /-- A physical line of the loop body that is collected is not UTF-8. -/
  | bodyUndecodable (fault : DecodeFault)
  /-- The script ends inside of a block. -/
  | openBlock (frame : Frame)

namespace Cause

/-- The number of the line that a cause is about. -/
def number : Cause → Option Nat
  | .undecodable d | .bodyUndecodable d => some d.number
  | .current line | .bodyLine line => some line.number
  | .openBlock frame => frame.line

/-- The cause is found in a sequence of physical lines, with the number that it has there. -/
def IsIn (stream : List RawLine) : Cause → Prop
  | .undecodable d | .bodyUndecodable d => IsUndecodable stream d
  | .current line | .bodyLine line => IsLine stream line
  | .openBlock frame => ∃ line, IsLine stream line ∧ frame.line = some line.number

/-- Whether a physical line was met that is not UTF-8, other than in a loop body. -/
def isBareUndecodable : Cause → Bool
  | .undecodable _ => true
  | _ => false

end Cause

/-- What stops the collection of a loop body. -/
def bodyCause? (a : Activation) (input : List RawLine) : Option Cause :=
  match takeBody 0 (a.upcoming input).1 with
  | .ok _ => none
  | .error (.obscure line _) => some (.bodyLine line)
  | .error .unfinished => (a.upcoming input).2.map .bodyUndecodable

/-- What a loop does before it collects its body. -/
def loopHead (settings : Settings) (a : Activation) (inv : Invocation) : Act σ ω LoopFrame := do
  let (count, time) ← loopLimits inv
  let now ← Act.readClock
  let frame : LoopFrame :=
    { remaining := count, deadline := time.map (now + ·), line := inv.line }
  checkDepth settings a.height inv.name
  return frame

/-- The loop that a line enters, if it gets as far as to collect the body. -/
def enteredLoop (settings : Settings) (a : Activation) (line : Line) :
    Act σ ω (Option LoopFrame) := do
  let inv ← heading settings line
  match inv.verb with
  | .loop =>
    let frame ← loopHead settings a inv
    return some frame
  | _ => return none

/-- What is wrong where a line fails: the line, or a line of the body that it collects. -/
def lineCause (settings : Settings) (a : Activation) (line : Line) (s : Session σ ω) : Cause :=
  match a.omission, (enteredLoop settings a line).exec s with
  | none, (.ok (some frame), s) => (bodyCause? (a.push (.loop frame)) s.input).getD (.current line)
  | _, _ => .current line

/-- What a script stumbles over if its next step fails. -/
def cause? (settings : Settings) (a : Activation) (s : Session σ ω) : Option Cause :=
  match a.fetch s.input with
  | (.fault d, _, _) => some (.undecodable d)
  | (.line line, a, input) => some (lineCause settings a line { s with input })
  | (.finished, a, _) => a.frames.head?.map .openBlock

/-! ## Faults without a position -/

theorem locate_of_unplaced (h : f.source = none ∧ f.line = none) (source : String)
    (line : Option Nat) :
    (f.locate source line).source = some source ∧ (f.locate source line).line = line := by
  simp [Failure.locate, h.1, h.2]

theorem unplaced_assign (name : String) (value : Option String) :
    (assign name value : Act σ ω Unit).Unplaced := by
  unfold assign
  split
  · cases value with
    | none => exact (Act.Unplaced.modify _).bind fun _ => .note _
    | some value =>
        dsimp only
        split
        · exact .crash _
        · exact (Act.Unplaced.modify _).bind fun _ => .note _
  · exact .fail _

omit [Host σ] in
theorem unplaced_omitLine (a : Activation) (o : Omission) (line : Line) :
    (omitLine a o line : Act σ ω Move).Unplaced := by
  refine (Act.Unplaced.lift _ _).bind fun word => ?_
  split
  · exact .pure _
  · exact .pure _
  · exact (Act.Unplaced.note _).bind fun _ => .pure _
  · split
    · split
      · exact .fail _
      · exact (Act.Unplaced.note _).bind fun _ => .pure _
    · exact .pure _
  · exact .pure _

/-- A line that cannot be split knows its number only. -/
theorem split_fault {shell text : String} {line : Option Nat}
    (h : (Expansion.split shell text line).exec s = (.error (.fault f), s')) :
    f.source = none ∧ f.line = line := by
  rw [Expansion.split, Act.exec_tryCatch] at h
  rcases hwords : (Expansion.words shell text : Act σ ω _).exec s with ⟨(g | c) | words, s₁⟩
  · obtain ⟨hsource, hline⟩ := (Act.Local.words shell text).unplaced s g s₁ hwords
    rw [hwords] at h
    cases h
    simp [hsource, hline]
  · rw [hwords] at h
    cases h
  · rw [hwords] at h
    cases h

section Commands

variable [Sink ω] {settings : Settings}

theorem unplaced_executePlain (depth : Nat) (inv : Invocation) :
    (executePlain settings depth inv : Act σ ω _).Unplaced := by
  unfold executePlain
  split
  · exact (Act.Local.callScript settings depth inv _).unplaced.bind fun _ => .pure _
  · refine Act.Unplaced.bind ?_ fun _ => .pure _
    by_cases hverb : inv.verb = .assign
    · unfold simple
      rw [hverb]
      cases inv.args with
      | nil => exact .pure _
      | cons name rest => exact unplaced_assign name rest.head?
    · exact (Act.Local.simple hverb).unplaced

/-- No command but a loop attaches a position to a fault. -/
theorem unplaced_perform (a : Activation) {inv : Invocation} (hverb : inv.verb ≠ .loop) :
    (perform settings inherited a inv : Act σ ω Move).Unplaced := by
  unfold perform
  split
  · next hloop => exact absurd hloop hverb
  · refine (Act.Local.breakLevels inv).unplaced.bind fun levels => ?_
    dsimp only
    split
    · exact .fail _
    · exact (Act.Unplaced.note _).bind fun _ =>
        (Act.Unplaced.of_ok (exec_leaveLoops inherited a levels a.replays)).bind fun _ => .pure _
  · exact (Act.Local.judge settings inv).unplaced.bind fun _ =>
      (Act.Local.checkDepth settings _ _).unplaced.bind fun _ => .pure _
  · unfold startElse
    split
    · exact .pure _
    · exact .fail _
  · unfold endCond
    split
    · exact .pure _
    · exact .fail _
  · refine .of_ok fun s => ?_
    obtain ⟨s', hexit⟩ := exec_exitScript inherited a s
    exact ⟨_, s', hexit⟩
  · exact (unplaced_executePlain a.depth inv).bind fun _ => .pure _

end Commands

/-! ## Loops -/

omit [Host σ] in
/-- A body that cannot be collected is a fault at the line that stops the collection; if the lines
just end, it is a fault without a position. -/
theorem collect_fault {a : Activation}
    (h : (collect a : Act σ ω _).exec s = (.error (.fault f), s')) :
    match bodyCause? a s.input with
    | some cause =>
      (f.source = none ∨ f.source = some a.source) ∧
        ∃ n, cause.number = some n ∧ f.line = some n
    | none => f.source = none ∧ f.line = none := by
  revert h
  unfold collect bodyCause?
  rw [Act.exec_bind_of_ok (Act.exec_get s)]
  rcases a.upcoming s.input with ⟨lines, fault⟩
  dsimp only
  rcases takeBody 0 lines with (⟨line, trouble⟩ | _) | body
  · intro h
    rcases trouble with e | c
    · cases h
      exact ⟨.inr rfl, line.number, rfl, rfl⟩
    · cases h
  · intro h
    rcases fault with _ | fault
    · cases h
      exact ⟨rfl, rfl⟩
    · cases h
      exact ⟨.inl rfl, fault.number, rfl, rfl⟩
  · intro h
    cases h

/-- A loop fails at its own line, or once it collects its body. -/
theorem startLoop_fault {settings : Settings} {a : Activation} {inv : Invocation}
    (h : (startLoop settings inherited a inv).exec s = (.error (.fault f), s')) :
    (∃ e s₁, (loopHead settings a inv).exec s = (.error e, s₁) ∧ f.source = none ∧ f.line = none) ∨
      ∃ frame s₁, (loopHead settings a inv).exec s = (.ok frame, s₁) ∧
        (collect (a.push (.loop frame))).exec s₁ = (.error (.fault f), s') := by
  have hunplaced : (loopHead settings a inv : Act σ ω _).Unplaced :=
    (Act.Local.loopLimits inv).unplaced.bind fun _ => Act.Local.readClock.unplaced.bind fun _ =>
      (Act.Local.checkDepth settings _ _).unplaced.bind fun _ => .pure _
  have hhead : (loopHead settings a inv).exec s = (.error (.fault f), s') →
      ∃ e s₁, (loopHead settings a inv).exec s = (.error e, s₁) ∧ f.source = none ∧ f.line = none :=
    fun hfault => ⟨_, s', hfault, hunplaced s f s' hfault⟩
  unfold startLoop at h
  rcases Act.exec_bind_eq_error.mp h with hlimits | ⟨⟨count, time⟩, s₁, hlimits, h₁⟩
  · exact .inl (hhead (Act.exec_bind_of_error hlimits))
  · rcases Act.exec_bind_eq_error.mp h₁ with hclock | ⟨now, s₂, hclock, h₂⟩
    · cases hclock
    · rcases Act.exec_bind_eq_error.mp h₂ with hdepth | ⟨⟨⟩, s₃, hdepth, h₃⟩
      · refine .inl (hhead ?_)
        unfold loopHead
        rw [Act.exec_bind_of_ok hlimits, Act.exec_bind_of_ok hclock, Act.exec_bind_of_error hdepth]
      · rcases Act.exec_bind_eq_error.mp h₃ with hcollect | ⟨⟨lines, a₁⟩, s₄, hcollect, h₄⟩
        · refine .inr ⟨_, s₃, ?_, hcollect⟩
          unfold loopHead
          rw [Act.exec_bind_of_ok hlimits, Act.exec_bind_of_ok hclock, Act.exec_bind_of_ok hdepth]
          rfl
        · rw [Act.exec_bind_of_ok (Act.exec_note _ _),
            Act.exec_bind_of_ok (exec_publish _ _)] at h₄
          cases h₄

/-! ## Lines -/

variable {cause : Cause}

section Lines

variable [Sink ω] {settings : Settings} {a : Activation} {line : Line}

omit [Sink ω] in
theorem lineCause_of_error {e : Trouble Failure}
    (h : (enteredLoop settings a line).exec s = (.error e, s')) :
    lineCause settings a line s = .current line := by
  unfold lineCause
  rw [h]
  cases a.omission <;> rfl

/-- A line that fails when it is executed is reported at its cause. -/
theorem executeLine_fault (homit : a.omission = none)
    (h : (executeLine settings inherited a line).exec s = (.error (.fault f), s')) :
    (f.locate a.source (some line.number)).source = some a.source ∧
      (f.locate a.source (some line.number)).line = (lineCause settings a line s).number := by
  unfold executeLine at h
  rcases Act.exec_bind_eq_error.mp h with hsplit | ⟨words, s₁, hsplit, h₁⟩
  · have hentered : (enteredLoop settings a line).exec s = (.error (.fault f), s') :=
      Act.exec_bind_of_error (Act.exec_bind_of_error hsplit)
    obtain ⟨hsource, hline⟩ := split_fault hsplit
    rw [lineCause_of_error hentered]
    simp [Failure.locate, hsource, hline, Cause.number]
  · split at h₁
    · cases h₁
    · unfold dispatch at h₁
      have hheading : (heading settings line).exec s =
          (commandOf words (some line.number)).exec s₁ := Act.exec_bind_of_ok hsplit
      rcases Act.exec_bind_eq_error.mp h₁ with hcommand | ⟨inv, s₂, hcommand, h₂⟩
      · have hentered : (enteredLoop settings a line).exec s = (.error (.fault f), s') :=
          Act.exec_bind_of_error (hheading.trans hcommand)
        rw [lineCause_of_error hentered]
        exact locate_of_unplaced ((Act.Local.commandOf _ _).unplaced s₁ f s' hcommand) _ _
      · rw [hcommand] at hheading
        by_cases hverb : inv.verb = .loop
        · have hstart : (startLoop settings inherited a inv).exec s₂ = (.error (.fault f), s') := by
            unfold perform at h₂
            rwa [hverb] at h₂
          have hloop : (enteredLoop settings a line).exec s =
              (loopHead settings a inv >>= fun frame => pure (some frame)).exec s₂ := by
            rw [enteredLoop, Act.exec_bind_of_ok hheading, hverb]
          rcases startLoop_fault hstart with
            ⟨e, s₃, hhead, hunplaced⟩ | ⟨frame, s₃, hhead, hcollect⟩
          · rw [lineCause_of_error (hloop.trans (Act.exec_bind_of_error hhead))]
            exact locate_of_unplaced hunplaced _ _
          · rw [Act.exec_bind_of_ok hhead] at hloop
            have hcause : lineCause settings a line s =
                (bodyCause? (a.push (.loop frame)) s₃.input).getD (.current line) := by
              unfold lineCause
              rw [homit, hloop]
              rfl
            have hfault := collect_fault hcollect
            rw [hcause]
            cases hbody : bodyCause? (a.push (.loop frame)) s₃.input with
            | none =>
                rw [hbody] at hfault
                exact locate_of_unplaced hfault _ _
            | some cause =>
                rw [hbody] at hfault
                obtain ⟨hsource, n, hnumber, hline⟩ := hfault
                refine ⟨?_, by simp [Failure.locate, hline, hnumber]⟩
                rcases hsource with hsource | hsource <;> simp [Failure.locate, hsource]
                rfl
        · have hentered : (enteredLoop settings a line).exec s = (.ok none, s₂) := by
            rw [enteredLoop, Act.exec_bind_of_ok hheading]
            cases hcase : inv.verb <;> first | rfl | exact absurd hcase hverb
          have hcause : lineCause settings a line s = .current line := by
            unfold lineCause
            rw [homit, hentered]
          rw [hcause]
          exact locate_of_unplaced (unplaced_perform a hverb s₂ f s' h₂) _ _

theorem isBareUndecodable_bodyCause {input : List RawLine} (h : bodyCause? a input = some cause) :
    cause.isBareUndecodable = false := by
  unfold bodyCause? at h
  split at h
  · cases h
  · cases h
    rfl
  · obtain ⟨d, -, rfl⟩ := Option.map_eq_some_iff.mp h
    rfl

omit [Sink ω] in
theorem isBareUndecodable_lineCause :
    (lineCause settings a line s).isBareUndecodable = false := by
  unfold lineCause
  split
  · next frame s₁ _ _ =>
      cases hbody : bodyCause? (a.push (.loop frame)) s₁.input with
      | none => rfl
      | some cause => exact isBareUndecodable_bodyCause hbody
  · rfl

omit [Sink ω] in
/-- An iteration ends without a fault. -/
theorem exec_endIteration (inherited : Option Countdown) (a : Activation) (replay : Replay)
    (outer : List Replay) (s : Session σ ω) :
    ∃ m s', (endIteration inherited a replay outer).exec s = (.ok m, s') := by
  unfold endIteration
  cases a.loopAt? replay.base with
  | none => exact ⟨_, s, rfl⟩
  | some frame =>
      obtain ⟨timeDone, s₁, htime⟩ := exec_timeIsUp frame.deadline s
      dsimp only
      rw [Act.exec_bind_of_ok htime]
      split
      · rw [Act.exec_bind_of_ok (exec_publish _ _)]
        exact ⟨_, _, rfl⟩
      · rw [Act.exec_bind_of_ok (Act.exec_note _ _), Act.exec_bind_of_ok (exec_publish _ _)]
        exact ⟨_, _, rfl⟩

omit [Host σ] [Sink ω] in
/-- The end of a script inside of a block is a fault at the line that opened the block. -/
theorem finish_fault (h : (finish a : Act σ ω Move).exec s = (.error (.fault f), s')) :
    ∃ frame, a.frames.head? = some frame ∧ f.source = some a.source ∧ f.line = frame.line := by
  unfold finish at h
  split at h
  · next frame frames hframes =>
      cases h
      rw [hframes]
      exact ⟨frame, rfl, rfl, rfl⟩
  · split at h <;> cases h

/-- The position that a failing line leaves: its cause, or no more than a number for a physical line
that is not UTF-8. -/
theorem advance_fault (h : (advance settings inherited a).exec s = (.error (.fault f), s')) :
    ∃ cause, cause? settings a s = some cause ∧ f.line = cause.number ∧
      f.source = if cause.isBareUndecodable then none else some a.source := by
  unfold advance at h
  rw [Act.exec_bind_of_ok (Act.exec_get s)] at h
  unfold cause?
  rcases hfetch : a.fetch s.input with ⟨next, a₁, input⟩
  have hsource : a₁.source = a.source := by
    have hidentity := congrArg Prod.fst (Activation.birth_fetch hfetch)
    simp only [Activation.birth, Activation.identity, Prod.mk.injEq] at hidentity
    exact hidentity.2.1
  simp only [hfetch, Act.exec_bind_of_ok (Act.exec_set _ _)] at h
  cases next with
  | fault d =>
      cases h
      exact ⟨_, rfl, rfl, rfl⟩
  | line line =>
      refine ⟨_, rfl, ?_⟩
      rw [isBareUndecodable_lineCause, ← hsource]
      obtain ⟨g, hg, rfl⟩ := exec_located_fault h
      cases homit : a₁.omission with
      | some o =>
          rw [homit] at hg
          have hcause : lineCause settings a₁ line { s with input } = .current line := by
            unfold lineCause
            rw [homit]
          rw [hcause]
          exact (locate_of_unplaced (unplaced_omitLine a₁ o line _ g s' hg) _ _).symm
      | none =>
          rw [homit] at hg
          exact (executeLine_fault homit hg).symm
  | finished =>
      cases hreplays : a₁.replays with
      | cons replay outer =>
          rw [hreplays] at h
          obtain ⟨m, s₁, hok⟩ := exec_endIteration inherited a₁ replay outer { s with input }
          rw [hok] at h
          cases h
      | nil =>
          rw [hreplays] at h
          obtain ⟨frame, hframe, hplace, hline⟩ := finish_fault h
          refine ⟨.openBlock frame, ?_, hline, hplace.trans (hsource ▸ rfl)⟩
          dsimp only
          rw [hframe]
          rfl

/-! ## Causes are lines of the script -/

omit [Sink ω] in
theorem enteredLoop_preserves :
    (enteredLoop settings a line : Act σ ω _).Preserves Session.shared := by
  refine ((Expansion.split_preserves _ _ _).bind fun words =>
    (Act.Local.commandOf words _).preserves).bind fun inv => ?_
  have hhead : (loopHead settings a inv : Act σ ω _).Local :=
    (Act.Local.loopLimits inv).bind fun _ => Act.Local.readClock.bind fun _ =>
      (Act.Local.checkDepth settings _ _).bind fun _ => .pure _
  split
  · exact hhead.preserves.bind fun _ => .pure _
  · exact .pure _

omit [Sink ω] in
/-- The loop that a line enters is opened by the line and holds no lines yet. -/
theorem enteredLoop_ok {frame : LoopFrame}
    (h : (enteredLoop settings a line).exec s = (.ok (some frame), s')) :
    frame.line = some line.number ∧ frame.body.lines = [] := by
  obtain ⟨inv, s₁, hheading, h₁⟩ := Act.exec_bind_eq_ok.mp h
  obtain ⟨words, s₂, -, hcommand⟩ := Act.exec_bind_eq_ok.mp hheading
  obtain ⟨hbind, -⟩ := commandOf_ok hcommand
  split at h₁
  · obtain ⟨frame', s₃, hhead, h₂⟩ := Act.exec_bind_eq_ok.mp h₁
    cases h₂
    obtain ⟨⟨count, time⟩, s₄, -, h₃⟩ := Act.exec_bind_eq_ok.mp hhead
    obtain ⟨now, s₅, -, h₄⟩ := Act.exec_bind_eq_ok.mp h₃
    obtain ⟨⟨⟩, s₆, -, h₅⟩ := Act.exec_bind_eq_ok.mp h₄
    cases h₅
    exact ⟨line_of_bind hbind, rfl⟩
  · cases h₁

theorem isIn_of_bodyCause {input : List RawLine} (h : a.Grounded)
    (hcause : bodyCause? a input = some cause) : cause.IsIn (a.feed.stream input) := by
  obtain ⟨hlines, hfault⟩ := h.upcoming input
  unfold bodyCause? at hcause
  split at hcause
  · cases hcause
  · next obscure trouble htake =>
      cases hcause
      exact hlines obscure (of_takeBody_obscure htake).1
  · obtain ⟨d, hd, rfl⟩ := Option.map_eq_some_iff.mp hcause
    exact hfault d hd

omit [Sink ω] in
/-- What a script stumbles over is a line of its own stream. -/
theorem isIn_of_cause (h : a.Grounded) (hcause : cause? settings a s = some cause) :
    cause.IsIn (a.feed.stream s.input) := by
  unfold cause? at hcause
  rcases hfetch : a.fetch s.input with ⟨next, a₁, input⟩
  obtain ⟨hgrounded, hline, hfault⟩ := h.fetch hfetch
  have hstream := Activation.stream_fetch hfetch
  rw [hfetch] at hcause
  cases next with
  | fault d =>
      cases hcause
      exact hfault d rfl
  | line line =>
      cases hcause
      rw [← hstream]
      have hcurrent : (Cause.current line).IsIn (a₁.feed.stream input) :=
        (hline line rfl).append _
      unfold lineCause
      split
      · next frame s₁ _ hentered =>
          obtain ⟨hopener, hempty⟩ := enteredLoop_ok hentered
          have hpush : (a₁.push (.loop frame)).Grounded :=
            hgrounded.push ⟨⟨line, hline line rfl, hopener⟩, fun held hheld =>
              absurd (hempty ▸ hheld : held ∈ []) List.not_mem_nil⟩
          have hinput : s₁.input = input :=
            congrArg Prod.snd (enteredLoop_preserves.of_eq hentered)
          cases hbody : bodyCause? (a₁.push (.loop frame)) s₁.input with
          | none => exact hcurrent
          | some cause =>
              have hin := isIn_of_bodyCause hpush hbody
              rw [hinput] at hin
              exact hin
      · exact hcurrent
  | finished =>
      obtain ⟨frame, hframe, rfl⟩ := Option.map_eq_some_iff.mp hcause
      obtain ⟨opener, hopener, hnumber⟩ := (hgrounded frame (List.mem_of_head? hframe)).opener
      rw [← hstream]
      exact ⟨opener, hopener.append _, hnumber⟩

end Lines

/-! ## Runs -/

/-- A cause that is found has a number. -/
theorem Cause.IsIn.number {stream : List RawLine} (h : cause.IsIn stream) :
    ∃ n, cause.number = some n := by
  cases cause with
  | undecodable d => exact ⟨d.number, rfl⟩
  | current line => exact ⟨line.number, rfl⟩
  | bodyLine line => exact ⟨line.number, rfl⟩
  | bodyUndecodable d => exact ⟨d.number, rfl⟩
  | openBlock frame =>
      obtain ⟨line, -, hnumber⟩ := h
      exact ⟨line.number, hnumber⟩

/-- Scripts that are abandoned attach nothing to a failure that knows its line, but for the name of
the innermost caller if no name is known. -/
theorem abandon_of_line {f f' : Failure} {n : Nat} {a : Activation}
    {callers : List Activation} (hline : f.line = some n)
    (h : (abandon inherited f (a :: callers) : Act σ ω _).exec s = (.ok f', s')) :
    f'.line = some n ∧ f'.source = (f.source <|> callers.head?.map (·.source)) := by
  induction callers generalizing a f s with
  | nil =>
      rw [abandon_singleton, Act.exec_bind_of_ok (exec_publish _ _)] at h
      cases h
      exact ⟨hline, by cases f'.source <;> rfl⟩
  | cons caller callers ih =>
      rw [abandon_cons, Act.exec_bind_of_ok (exec_publish _ _)] at h
      have hlocated : (f.locate caller.source a.calledFrom).line = some n := by
        simp [Failure.locate, hline]
      obtain ⟨hline', hsource'⟩ := ih hlocated h
      refine ⟨hline', hsource'.trans ?_⟩
      simp [Failure.locate]

/-- The position that the run of a script reports when it fails.  The innermost of the running scripts
has stumbled over a cause among its own lines, and the lines are those of its name.  The number
reported is that of the cause, among these lines.  The name reported is that of the script, unless
the cause is a physical line that is not UTF-8 and was met outside of a loop body: then it is the
name of the caller, and missing if there is none. -/
theorem failure_position [Sink ω] (settings : Settings) (fuel : Nat) (source : String)
    (pending : Option (List RawLine)) (s s' : Session σ ω) (f : Failure)
    (h : runScript settings fuel source { pending } s = (.failure f, s')) :
    ∃ a callers s₁ cause n,
      Leads settings ((Launch.script source { pending }).start settings s)
        (.running (a :: callers), s₁) ∧
      step settings (a :: callers) s₁ = (.done (.failure f), s') ∧
      Opened σ source pending a.source a.feed.origin ∧
      cause? settings a s₁ = some cause ∧
      cause.IsIn (a.feed.origin.getD (a.feed.read ++ s₁.input)) ∧ cause.number = some n ∧
      f.report.context.lookup "line" = some (.ofNat n) ∧
      f.report.context.lookup "source" =
        (if cause.isBareUndecodable then callers.head?.map (·.source) else some a.source).map
          .text ∧
      (f.report.context.lookup "source" = some (.text a.source) ↔
        (cause.isBareUndecodable = true → callers.head?.map (·.source) = some a.source)) := by
  rw [runScript_eq] at h
  obtain ⟨before, s₁, hleads, hstep⟩ := (leads_of_answer h (by rintro ⟨⟩)).last_step
  obtain ⟨f₀, s₂, hturn, habandon⟩ :
      ∃ f₀ s₂, (turn settings none before).exec s₁ = (.error (.fault f₀), s₂) ∧
        (abandon none f₀ before : Act σ ω _).exec s₂ = (.ok f, s') := exec_of_settle hstep
  cases before with
  | nil => cases hturn
  | cons a callers =>
      obtain ⟨hgrounded, hopened⟩ := grounded_of_leads hleads a List.mem_cons_self
      have hadvance : (advance settings (countdown? none callers) a).exec s₁ =
          (.error (.fault f₀), s₂) := by
        rw [turn] at hturn
        rcases Act.exec_bind_eq_error.mp hturn with hadvance | ⟨m, s₃, -, hfollow⟩
        · exact hadvance
        · obtain ⟨r, s₄, hok⟩ := exec_follow none callers m s₃
          rw [hok] at hfollow
          cases hfollow
      obtain ⟨cause, hcause, hline, hsource⟩ := advance_fault hadvance
      have hin := isIn_of_cause hgrounded hcause
      obtain ⟨n, hn⟩ := hin.number
      obtain ⟨hline', hsource'⟩ := abandon_of_line (hline.trans hn) habandon
      obtain ⟨hrsource, hrline⟩ := f.report_position
      rw [a.feed.stream_eq] at hin
      refine ⟨a, callers, s₁, cause, n, hleads, hstep, hopened, hcause, hin, hn, ?_, ?_, ?_⟩
      · rw [hrline, hline']
        rfl
      · rw [hrsource, hsource', hsource]
        cases cause.isBareUndecodable <;> rfl
      · rw [hrsource, hsource', hsource]
        cases cause.isBareUndecodable with
        | false => simp
        | true => cases callers.head? <;> simp

/-! ## A number of one script with the name of another -/

/-- A script calls `inner`, in one line. -/
def callsInner : List RawLine := [.text "script inner\n"]

/-- The third physical line of the file `inner` is not UTF-8. -/
def brokenInner : Session Sandbox Device.Recorder where
  host :=
    { clock := { now := 0, tick := 0 }
      files :=
        { root := .directory
            [("inner".toList, .file (Octets.ofBytes [10, 10, 255, 10]) false)] } }
  sink := {}

/-- The failure that the run of `callsInner` reports. -/
def misplacedFailure : Failure :=
  { fault := .undecodable .start, source := some "outer", line := some 3 }

theorem run_callsInner :
    ∃ s', runScript {} 2 "outer" { pending := some callsInner } brokenInner =
      (.failure misplacedFailure, s') := by
  let outer : Activation :=
    { freshScript "outer" 0 { pending := some callsInner } with
      feed := { pending := some [], past := callsInner } }
  let inner : Activation :=
    { role := .script
      source := "inner"
      depth := 1
      feed := { pending := some [.bytes [10], .bytes [10], .bytes [255, 10]] }
      calledFrom := some 1 }
  let started : Session Sandbox Device.Recorder :=
    { brokenInner with journal := [.scriptStarted "outer" 0] }
  have hsplit : (Expansion.split "/bin/sh" "script inner" (some 1)).exec started =
      (.ok ["script", "inner"], started) :=
    Expansion.exec_split rfl rfl (by cbv) (some 1) started
  have hcall : ∃ s₁, (executeLine {} none outer ⟨1, "script inner"⟩).exec started =
      (.ok (.call inner outer), s₁) :=
    ⟨_, (Act.exec_bind_of_ok hsplit).trans rfl⟩
  obtain ⟨s₁, hcall⟩ := hcall
  have hfirst : step {} [freshScript "outer" 0 { pending := some callsInner }] started =
      (.running [inner, outer], s₁) := by
    have hfetch : ∀ input, (freshScript "outer" 0 { pending := some callsInner }).fetch input =
        (.line ⟨1, "script inner"⟩, outer, input) := fun _ => rfl
    rw [step_of_line hfetch]
    exact settle_of_running (Act.exec_bind_of_ok (exec_located_of_ok hcall))
  have hsecond : ∃ s₂, step {} [inner, outer] s₁ = (.done (.failure misplacedFailure), s₂) :=
    ⟨_, rfl⟩
  obtain ⟨s₂, hsecond⟩ := hsecond
  refine ⟨s₂, (runScript_eq 2 _ _ _).trans ?_⟩
  have hend : proceed {} 2 ((Launch.script "outer" { pending := some callsInner }).start {}
      brokenInner) = (.done (.failure misplacedFailure), s₂) := by
    have hstart : (Launch.script "outer" { pending := some callsInner }).start {} brokenInner =
        (.running [freshScript "outer" 0 { pending := some callsInner }], started) := rfl
    rw [hstart, proceed_succ_running, hfirst, proceed_succ_running, hsecond, proceed_done]
  rw [hend]
  rfl

/-- The line that is not UTF-8 is the third one of `inner`; the run reports the third line of
`outer`, which has one line. -/
theorem undecodable_reported_in_caller :
    ∃ f s', runScript {} 2 "outer" { pending := some callsInner } brokenInner = (.failure f, s') ∧
      f.report.context.lookup "source" = some (.text "outer") ∧
      f.report.context.lookup "line" = some (.ofNat 3) ∧ callsInner.length = 1 := by
  obtain ⟨s', hrun⟩ := run_callsInner
  exact ⟨_, s', hrun, rfl, rfl, rfl⟩

theorem failure_position_callsInner :
    ∃ s', runScript {} 2 "outer" { pending := some callsInner } brokenInner =
        (.failure misplacedFailure, s') ∧
      ∃ a callers s₁ cause,
        Leads {} ((Launch.script "outer" { pending := some callsInner }).start {} brokenInner)
          (.running (a :: callers), s₁) ∧
        step {} (a :: callers) s₁ = (.done (.failure misplacedFailure), s') ∧
        cause? {} a s₁ = some cause ∧
        (misplacedFailure.report.context.lookup "source" = some (.text a.source) ↔
          (cause.isBareUndecodable = true → callers.head?.map (·.source) = some a.source)) := by
  obtain ⟨s', hrun⟩ := run_callsInner
  obtain ⟨a, callers, s₁, cause, n, hleads, hstep, -, hcause, -, -, -, -, hright⟩ :=
    failure_position {} 2 "outer" (some callsInner) brokenInner s' misplacedFailure hrun
  exact ⟨s', hrun, a, callers, s₁, cause, hleads, hstep, hcause, hright⟩

end Machine

end InputScript
