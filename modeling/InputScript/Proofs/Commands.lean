import InputScript.Machine.Step
import InputScript.Proofs.Action

/-!
# What commands leave alone

A command works on the device, the host, the output and the journal.  The variables and the standard
input are shared by all scripts of a run and left alone, but for `set`; and a fault of a command says
what is wrong and not where, since the place is known to whoever executes the line.  Both are one
property of actions, `Act.Local`, which is proved for every action that a command is made of.
-/

namespace InputScript

open Device (Sink)

variable {σ ω α β : Type}

/-- What the scripts of a run share: the variables and the standard input. -/
def Session.shared (s : Session σ ω) : Environment × List Script.RawLine := (s.environment, s.input)

/-- An action whose faults have no position yet and that leaves alone what scripts share. -/
structure Act.Local (act : Act σ ω α) : Prop where
  unplaced : Unplaced act
  preserves : Preserves Session.shared act

namespace Act.Local

theorem pure (a : α) : Local (Pure.pure a : Act σ ω α) := ⟨.pure a, .pure a⟩

theorem fail (fault : Fault) : Local (Act.fail fault : Act σ ω α) :=
  ⟨.fail fault, .fail fault⟩

theorem crash (c : Crash) : Local (Act.crash c : Act σ ω α) := ⟨.crash c, .crash c⟩

theorem get : Local (MonadState.get : Act σ ω (Session σ ω)) := ⟨.get, .get⟩

theorem bind {act : Act σ ω α} {next : α → Act σ ω β} (h : Local act)
    (hnext : ∀ a, Local (next a)) : Local (act >>= next) :=
  ⟨h.unplaced.bind fun a => (hnext a).unplaced, h.preserves.bind fun a => (hnext a).preserves⟩

theorem lift {ε : Type} (wrap : ε → Fault) (r : Except (Trouble ε) α) :
    Local (Act.lift wrap r : Act σ ω α) := ⟨.lift wrap r, .lift wrap r⟩

theorem ofExcept {ε : Type} (wrap : ε → Fault) (r : Except ε α) :
    Local (Act.ofExcept wrap r : Act σ ω α) := ⟨.ofExcept wrap r, .ofExcept wrap r⟩

/-- An action that always answers is local if the session it leaves shares the same. -/
theorem of_ok {act : Act σ ω α} (h : ∀ s, ∃ a s', act.exec s = (.ok a, s') ∧ s'.shared = s.shared) :
    Local act := by
  have hok : ∀ s, ∃ a s', act.exec s = (.ok a, s') := by
    intro s
    obtain ⟨a, s', hok, -⟩ := h s
    exact ⟨a, s', hok⟩
  refine ⟨.of_ok hok, fun s => ?_⟩
  obtain ⟨a, s', hexec, hshared⟩ := h s
  rw [hexec]
  exact hshared

theorem note (n : Note) : Local (Act.note n : Act σ ω Unit) := of_ok fun _ => ⟨_, _, rfl, rfl⟩

theorem noteAll (ns : List Note) : Local (Act.noteAll ns : Act σ ω Unit) :=
  of_ok fun _ => ⟨_, _, rfl, rfl⟩

theorem echo (args : List String) : Local (Machine.echo args : Act σ ω Unit) :=
  of_ok fun _ => ⟨_, _, rfl, rfl⟩

/-! ## Control flow -/

theorem checkDepth (settings : Settings) (depth : Nat) (verb : String) :
    Local (Machine.checkDepth settings depth verb : Act σ ω Unit) := by
  unfold Machine.checkDepth
  split
  · exact fail _
  · exact pure _

theorem loopLimits (inv : Invocation) : Local (Machine.loopLimits inv : Act σ ω _) := by
  refine (ofExcept _ _).bind fun count => ?_
  have htime : Local (Machine.loopTime inv : Act σ ω _) := by
    unfold Machine.loopTime
    split
    · exact fail _
    · exact pure _
    · exact pure _
  refine htime.bind fun text => (lift _ _).bind fun time => ?_
  split
  · exact fail _
  · exact pure _

theorem breakLevels (inv : Invocation) : Local (Machine.breakLevels inv : Act σ ω Nat) := by
  unfold Machine.breakLevels
  split
  · exact pure _
  · exact ofExcept _ _

theorem judge (settings : Settings) (inv : Invocation) :
    Local (Machine.judge settings inv : Act σ ω Bool) :=
  (noteAll _).bind fun _ => (lift _ _).bind fun _ => (note _).bind fun _ => pure _

theorem commandOf (words : List String) (line : Option Nat) :
    Local (Machine.commandOf words line : Act σ ω Invocation) :=
  (lift _ _).bind fun _ => (note _).bind fun _ => pure _

/-! ## The host -/

variable [Host σ]

theorem readClock : Local (Act.readClock : Act σ ω Binary64) := of_ok fun _ => ⟨_, _, rfl, rfl⟩

theorem wait (delay : Binary64) : Local (Act.wait delay : Act σ ω Unit) := by
  refine ⟨fun s f s' h => ?_, fun s => ?_⟩
  · rw [exec_wait] at h
    obtain ⟨hresult, -⟩ := Prod.mk.inj h
    split at hresult <;> cases hresult
  · rw [exec_wait]
    rfl

theorem spawn (argv : List String) : Local (Act.spawn argv : Act σ ω _) :=
  of_ok fun _ => ⟨_, _, rfl, rfl⟩

theorem execute (command : String) (args : List String) (detach : Bool) :
    Local (Machine.execute command args detach : Act σ ω Unit) := by
  refine (note _).bind fun _ => get.bind fun s => ?_
  split
  · exact crash _
  · refine (spawn _).bind fun result => ?_
    split
    · exact fail _
    · refine (note _).bind fun _ => ?_
      split
      · exact pure _
      · refine (note _).bind fun _ => ?_
        split
        · exact fail _
        · exact pure _

theorem callScript (settings : Settings) (depth : Nat) (inv : Invocation) (path : String) :
    Local (Machine.callScript settings depth inv path : Act σ ω Machine.Activation) := by
  unfold Machine.callScript
  split
  · exact fail _
  · have hopen : Local (Machine.openFeed path : Act σ ω Machine.Feed) := by
      unfold Machine.openFeed
      split
      · exact pure _
      · split
        · exact crash _
        · refine get.bind fun s => ?_
          split
          · exact fail _
          · exact pure _
    exact hopen.bind fun feed => (note _).bind fun _ => pure _

theorem words (shell text : String) : Local (Expansion.words shell text : Act σ ω _) := by
  unfold Expansion.words
  split
  · exact fail _
  · split
    · refine (note _).bind fun _ => get.bind fun s => ?_
      dsimp only
      split
      · exact fail _
      · refine (spawn _).bind fun result => ?_
        split
        · exact fail _
        · exact ofExcept _ _
    · split
      · exact fail _
      · exact pure _

/-! ## The device -/

variable [Sink ω]

section Device

open Device

variable (p : Profile)

omit [Host σ] [Sink ω] in
theorem callSink (call : ω → Reply ω) : Local (Device.callSink call : Act σ ω _) :=
  of_ok fun _ => ⟨_, _, rfl, rfl⟩

theorem openDevice : Local (Device.openDevice p : Act σ ω Unit) := by
  refine get.bind fun s => ?_
  split
  · exact pure _
  · refine (callSink _).bind fun result => ?_
    split
    · exact (note _).bind fun _ => fail _
    · have hopen : Local (modify fun s : Session σ ω =>
          { s with isOpen := true, sysname := Sink.sysname s.sink } : Act σ ω Unit) :=
        of_ok fun _ => ⟨_, _, rfl, rfl⟩
      exact hopen.bind fun _ => get.bind fun s => (note _).bind fun _ => (note _).bind fun _ =>
        wait _

omit [Host σ] in
theorem emit (e : Event) : Local (Device.emit e : Act σ ω Unit) := by
  refine (note _).bind fun _ => (callSink _).bind fun result => ?_
  split
  · exact fail _
  · exact pure _

omit [Host σ] in
theorem emitAll (events : List Event) : Local (Device.emitAll events : Act σ ω Unit) := by
  induction events with
  | nil => exact pure _
  | cons e events ih => exact (emit e).bind fun _ => ih

theorem deliver (events : List Event) : Local (Device.deliver p events : Act σ ω Unit) :=
  (openDevice p).bind fun _ => emitAll events

theorem relative (axis : Int) (delta : Binary64) (sync : Bool) (verb : Option String) :
    Local (Device.relative p axis delta sync verb : Act σ ω Unit) :=
  (ofExcept _ _).bind fun _ => deliver p _

theorem absolute (axis : Int) (percent : Binary64) (sync : Bool) (verb : Option String) :
    Local (Device.absolute p axis percent sync verb : Act σ ω Unit) :=
  (ofExcept _ _).bind fun _ => deliver p _

theorem keys (pressed : Bool) (codes : List Int) :
    Local (Device.keys p pressed codes : Act σ ω Unit) := by
  induction codes with
  | nil => exact pure _
  | cons code codes ih => exact (deliver p _).bind fun _ => ih

theorem tapCycles (codes : List Int) (delay : Binary64) (n : Nat) :
    Local (Device.tapCycles p codes delay n : Act σ ω Unit) := by
  induction n with
  | zero => exact pure _
  | succ n ih =>
      exact (keys p true codes).bind fun _ => (keys p false _).bind fun _ => (wait _).bind fun _ => ih

theorem tap (c : Controls) (codes : List Int) (count : Option Int) (runTime : Option Binary64)
    (delay : Option Binary64) : Local (Device.tap c codes count runTime delay : Act σ ω Nat) := by
  unfold Device.tap
  dsimp only
  split
  · exact crash _
  · exact (note _).bind fun _ => (tapCycles _ _ _ _).bind fun _ => pure _

theorem moveAxes (verb : String) (axes : List (Nat × Binary64)) :
    Local (Device.moveAxes p verb axes : Act σ ω Unit) := by
  induction axes with
  | nil => exact pure _
  | cons axis axes ih => exact (relative p _ _ _ _).bind fun _ => ih

theorem placeAxes (verb : String) (axes : List (Nat × Binary64)) :
    Local (Device.placeAxes p verb axes : Act σ ω Unit) := by
  induction axes with
  | nil => exact pure _
  | cons axis axes ih => exact (absolute p _ _ _ _).bind fun _ => ih

theorem emitItem (verb : String) (item : Item) :
    Local (Device.emitItem p verb item : Act σ ω Unit) := by
  cases item with
  | keyDown code => exact deliver p _
  | keyUp code => exact deliver p _
  | relative axis delta => exact relative p axis delta false _
  | absolute axis percent => exact absolute p axis percent false _
  | sync => exact deliver p _
  | unknown => exact crash _

theorem emitItems (verb : String) (items : List Item) :
    Local (Device.emitItems p verb items : Act σ ω Unit) := by
  induction items with
  | nil => exact pure _
  | cons item items ih => exact (emitItem p verb item).bind fun _ => ih

end Device

/-! ## Simple commands -/

theorem tapKeys (settings : Settings) (inv : Invocation) :
    Local (Machine.tapKeys settings inv : Act σ ω Unit) :=
  (ofExcept _ _).bind fun _ => (lift _ _).bind fun _ => (lift _ _).bind fun _ =>
    (ofExcept _ _).bind fun _ => (tap _ _ _ _ _).bind fun _ => pure _

/-- Every simple command but `set` is local. -/
theorem simple {settings : Settings} {inv : Invocation} (h : inv.verb ≠ .assign) :
    Local (Machine.simple settings inv : Act σ ω Unit) := by
  unfold Machine.simple
  split
  · exact openDevice _
  · exact (lift _ _).bind fun _ =>
      (emitItems _ _ _).bind fun _ => deliver _ _
  · exact (ofExcept _ _).bind fun _ => keys _ _ _
  · exact (ofExcept _ _).bind fun _ => keys _ _ _
  · exact tapKeys settings inv
  · exact (lift _ _).bind fun _ =>
      (moveAxes _ _ _).bind fun _ => deliver _ _
  · exact (lift _ _).bind fun _ => relative _ _ _ _ _
  · exact (lift _ _).bind fun _ =>
      (placeAxes _ _ _).bind fun _ => deliver _ _
  · exact (lift _ _).bind fun _ => (note _).bind fun _ => wait _
  · exact execute _ _ _
  · exact echo _
  · next hverb _ => exact absurd hverb h
  · exact pure _

end Act.Local

/-- Splitting a line leaves alone what scripts share.  It is not local: a fault knows its line. -/
theorem Expansion.split_preserves [Host σ] (shell text : String) (line : Option Nat) :
    (split shell text line : Act σ ω _).Preserves Session.shared := by
  refine (Act.Local.words shell text).preserves.tryCatch fun e => ?_
  cases e with
  | fault f => exact .throw _
  | crash c => exact .throw _

end InputScript
