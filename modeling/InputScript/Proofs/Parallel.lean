import InputScript.Proofs.Validation

/-!
# The same program on two sinks

The engine is written for any sink, and touches it in two ways only: it opens the device, and it
delivers events to it.  Everything else that an action does concerns the host, the variables, the
standard input, the output and the journal.  `Act.Parallel` says so.  It relates an action on one sink
to the same action on another, with one case for each way in which actions are made; so whatever is
kept by these few ways is kept by every action of the engine, for one sink or between two.

An action that leaves the device alone is given by what it does in a session without one
(`Act.Aside`).  What is delivered at once is a `Portion`: a key, a motion along an axis that has a
name, or a place, perhaps with the sync that ends the frame, or the sync alone.

## Main results

* `Act.Parallel.simple` — a command without control flow does the same on both sinks.
* `Act.Parallel.turn` — so does a turn of the machine.
-/

namespace InputScript

open Device (Sink Event)
open Script (Line RawLine)

variable {σ ω ω' α β : Type}

/-! ## Beside the device -/

namespace Session

/-- What the engine works with beside the device, before anything is echoed or noted. -/
def bare (s : Session σ ω) : Session σ Unit :=
  { host := s.host, sink := (), environment := s.environment, input := s.input }

/-- The session after something was done beside the device. -/
def after (s : Session σ ω) (t : Session σ Unit) : Session σ ω :=
  { s with
    host := t.host
    environment := t.environment
    input := t.input
    echoed := t.echoed ++ s.echoed
    journal := t.journal ++ s.journal }

end Session

namespace Act

/-- The action leaves the device alone; the rest it does as `base` does. -/
def Aside (act : Act σ ω α) (base : Act σ Unit α) : Prop :=
  ∀ s, act.exec s = ((base.exec s.bare).1, s.after (base.exec s.bare).2)

theorem aside_note (n : Note) : (note n : Act σ ω Unit).Aside (note n) := fun _ => rfl

theorem aside_wait [Host σ] (delay : Binary64) : (wait delay : Act σ ω Unit).Aside (wait delay) := by
  intro s
  rw [exec_wait, exec_wait]
  rfl

/-- Changes what the failure of an action says about its position. -/
def relocate (place : Failure → Failure) (act : Act σ ω α) : Act σ ω α :=
  tryCatch act fun
    | .fault f => throw (.fault (place f))
    | .crash c => throw (.crash c)

theorem exec_relocate (place : Failure → Failure) (act : Act σ ω α) (s : Session σ ω) :
    (relocate place act).exec s =
      ((act.exec s).1.mapError (Trouble.map place), (act.exec s).2) := by
  rw [relocate, exec_tryCatch]
  rcases act.exec s with ⟨(f | c) | a, t⟩ <;> rfl

/-- In some session the action answers so. -/
def Answers (act : Act σ ω α) (a : α) : Prop := ∃ s s', act.exec s = (.ok a, s')

theorem Answers.of_lift {ε : Type} {wrap : ε → Fault} {r : Except (Trouble ε) α} {a : α}
    (h : (lift wrap r : Act σ ω α).Answers a) : r = .ok a := by
  obtain ⟨s, s', hexec⟩ := h
  exact (exec_lift_eq_ok hexec).1

theorem Answers.of_ofExcept {ε : Type} {wrap : ε → Fault} {r : Except ε α} {a : α}
    (h : (ofExcept wrap r : Act σ ω α).Answers a) : r = .ok a := by
  obtain ⟨s, s', hexec⟩ := h
  rcases r with e | b <;> cases hexec
  rfl

end Act

/-! ## What is delivered -/

namespace Device

/-- Events that are delivered at once. -/
inductive Portion : List Event → Prop
  | sync : Portion [.sync]
  | key (code : Int) (pressed sync : Bool) : Portion (framed [.key code pressed] sync)
  | relative {axis : Nat} {delta : Binary64} {verb : Option String} {events : List Event}
      (haxis : axis ∈ relativeAxes.map (·.2)) (h : relativeEvents axis delta verb = .ok events)
      (sync : Bool) : Portion (framed events sync)
  | absolute (axis : Nat) (value : Int) (sync : Bool) :
      Portion (framed [.absolute axis value] sync)

theorem mem_of_lookup {table : List (String × Nat)} {name : String} {code : Nat}
    (h : table.lookup name = some code) : code ∈ table.map (·.2) := by
  obtain ⟨before, after, rfl, -⟩ := List.lookup_eq_some_iff.mp h
  simp

/-- The axes that have a name are declared. -/
theorem mem_of_findAxis {name : String} {verb : Option String} {axis : Axis}
    (h : findAxis name verb = .ok axis) :
    if axis.absolute then axis.code ∈ declaredAbsoluteAxes
    else axis.code ∈ relativeAxes.map (·.2) := by
  unfold findAxis findAxis? at h
  simp only [if_true] at h
  cases habsolute : absoluteAxes.lookup (Text.upper name) with
  | some code =>
      rw [habsolute] at h
      cases h
      exact mem_of_lookup habsolute
  | none =>
      rw [habsolute] at h
      cases hrelative : relativeAxes.lookup (Text.upper name) with
      | some code =>
          rw [hrelative] at h
          cases h
          exact mem_of_lookup hrelative
      | none =>
          rw [hrelative] at h
          cases h

/-- The main axes are declared, as relative axes and as absolute ones. -/
theorem mem_mainAxes {alternate : Bool} {values : List Binary64} {axis : Nat × Binary64}
    (h : axis ∈ (mainAxes alternate).zip values) :
    axis.1 ∈ relativeAxes.map (·.2) ∧ axis.1 ∈ declaredAbsoluteAxes := by
  have hall : ∀ code ∈ mainAxes alternate,
      code ∈ relativeAxes.map (·.2) ∧ code ∈ declaredAbsoluteAxes := by
    cases alternate <;> decide
  exact hall axis.1 (List.of_mem_zip h).1

theorem wheel_mem_relativeAxes (horizontal : Bool) :
    (if horizontal then horizontalWheelAxis else wheelAxis : Nat) ∈ relativeAxes.map (·.2) := by
  cases horizontal <;> decide

end Device

/-! ## Actions made in the same way -/

/-- The same action on two sinks, for devices of a profile. -/
inductive Act.Parallel [Host σ] [Sink ω] [Sink ω'] (p : Profile) :
    {α : Type} → Act σ ω α → Act σ ω' α → Prop
  | aside {α : Type} {act : Act σ ω α} {act' : Act σ ω' α} (base : Act σ Unit α)
      (h : act.Aside base) (h' : act'.Aside base) : Parallel p act act'
  | bind {α β : Type} {act : Act σ ω α} {act' : Act σ ω' α} {next : α → Act σ ω β}
      {next' : α → Act σ ω' β} (h : Parallel p act act')
      (hnext : ∀ a, act.Answers a → Parallel p (next a) (next' a)) :
      Parallel p (act >>= next) (act' >>= next')
  /-- An action may go by the session, but not by its device. -/
  | get {β : Type} {next : Session σ ω → Act σ ω β} {next' : Session σ ω' → Act σ ω' β}
      (h : ∀ s s', s'.bare = s.bare → Parallel p (next s) (next' s')) :
      Parallel p (MonadState.get >>= next) (MonadState.get >>= next')
  | relocate {α : Type} {act : Act σ ω α} {act' : Act σ ω' α} (place : Failure → Failure)
      (hplace : ∀ f, (place f).fault = f.fault) (h : Parallel p act act') :
      Parallel p (act.relocate place) (act'.relocate place)
  | openDevice : Parallel p (Device.openDevice p) (Device.openDevice p)
  | deliver {events : List Event} (h : Device.Portion events) :
      Parallel p (Device.deliver p events) (Device.deliver p events)

namespace Act.Parallel

variable [Host σ] [Sink ω] [Sink ω'] {p : Profile} {act : Act σ ω α} {act' : Act σ ω' α}

theorem pure (a : α) : Parallel p (Pure.pure a : Act σ ω α) (Pure.pure a : Act σ ω' α) :=
  aside (Pure.pure a) (fun _ => rfl) fun _ => rfl

theorem throw (e : Trouble Failure) :
    Parallel p (MonadExcept.throw e : Act σ ω α) (MonadExcept.throw e : Act σ ω' α) :=
  aside (MonadExcept.throw e) (fun _ => rfl) fun _ => rfl

theorem fail (fault : Fault) :
    Parallel p (Act.fail fault : Act σ ω α) (Act.fail fault : Act σ ω' α) := throw _

theorem crash (c : Crash) : Parallel p (Act.crash c : Act σ ω α) (Act.crash c : Act σ ω' α) :=
  throw _

/-- What an action answers may be of no matter for what comes next. -/
theorem andThen {next : α → Act σ ω β} {next' : α → Act σ ω' β} (h : Parallel p act act')
    (hnext : ∀ a, Parallel p (next a) (next' a)) : Parallel p (act >>= next) (act' >>= next') :=
  h.bind fun a _ => hnext a

theorem note (n : Note) : Parallel p (Act.note n : Act σ ω Unit) (Act.note n : Act σ ω' Unit) :=
  aside (Act.note n) (aside_note n) (aside_note n)

theorem noteAll (ns : List Note) :
    Parallel p (Act.noteAll ns : Act σ ω Unit) (Act.noteAll ns : Act σ ω' Unit) := by
  have hexec : ∀ {ω : Type}, (Act.noteAll ns : Act σ ω Unit).Aside (Act.noteAll ns) := by
    intro ω s
    simp only [exec_noteAll, Session.bare, Session.after, List.append_nil, List.nil_append]
  exact aside (Act.noteAll ns) hexec hexec

theorem lift {ε : Type} (wrap : ε → Fault) (r : Except (Trouble ε) α) :
    Parallel p (Act.lift wrap r : Act σ ω α) (Act.lift wrap r : Act σ ω' α) := by
  rcases r with (e | c) | a
  · exact fail _
  · exact crash _
  · exact pure _

theorem ofExcept {ε : Type} (wrap : ε → Fault) (r : Except ε α) :
    Parallel p (Act.ofExcept wrap r : Act σ ω α) (Act.ofExcept wrap r : Act σ ω' α) := by
  rcases r with e | a
  · exact fail _
  · exact pure _

theorem echo (args : List String) :
    Parallel p (Machine.echo args : Act σ ω Unit) (Machine.echo args : Act σ ω' Unit) :=
  aside (Machine.echo args) (fun _ => rfl) fun _ => rfl

theorem environment (f : Environment → Environment) :
    Parallel p (modify fun s => { s with environment := f s.environment } : Act σ ω Unit)
      (modify fun s => { s with environment := f s.environment } : Act σ ω' Unit) :=
  aside (modify fun s => { s with environment := f s.environment }) (fun _ => rfl) fun _ => rfl

theorem assign (name : String) (value : Option String) :
    Parallel p (Machine.assign name value : Act σ ω Unit)
      (Machine.assign name value : Act σ ω' Unit) := by
  unfold Machine.assign
  split
  · cases value with
    | none => exact (environment fun e => e.erase name).andThen fun _ => note _
    | some value =>
        dsimp only
        split
        · exact crash _
        · exact (environment fun e => e.set name value).andThen fun _ => note _
  · exact fail _

/-! ## The host -/

theorem readClock :
    Parallel p (Act.readClock : Act σ ω Binary64) (Act.readClock : Act σ ω' Binary64) :=
  aside Act.readClock (fun _ => rfl) fun _ => rfl

theorem spawn (argv : List String) :
    Parallel p (Act.spawn argv : Act σ ω _) (Act.spawn argv : Act σ ω' _) :=
  aside (Act.spawn argv) (fun _ => rfl) fun _ => rfl

theorem wait (delay : Binary64) :
    Parallel p (Act.wait delay : Act σ ω Unit) (Act.wait delay : Act σ ω' Unit) :=
  aside (Act.wait delay) (aside_wait delay) (aside_wait delay)

theorem execute (command : String) (args : List String) (detach : Bool) :
    Parallel p (Machine.execute command args detach : Act σ ω Unit)
      (Machine.execute command args detach : Act σ ω' Unit) := by
  refine (note _).andThen fun _ => get fun s s' hbare => ?_
  have henv : s'.environment = s.environment := congrArg Session.environment hbare
  rw [henv]
  cases passable (command :: args) s.environment with
  | error cause => exact crash _
  | ok _ =>
      refine (spawn _).andThen fun result => ?_
      cases result with
      | error e => exact fail _
      | ok finished =>
          refine (note _).andThen fun _ => ?_
          split
          · exact pure _
          · refine (note _).andThen fun _ => ?_
            split
            · exact fail _
            · exact pure _

theorem openFeed (path : String) :
    Parallel p (Machine.openFeed path : Act σ ω Machine.Feed)
      (Machine.openFeed path : Act σ ω' Machine.Feed) := by
  unfold Machine.openFeed
  split
  · exact pure _
  · split
    · exact crash _
    · refine get fun s s' hbare => ?_
      have hhost : s'.host = s.host := congrArg Session.host hbare
      rw [hhost]
      cases Host.readFile path s.host with
      | error e => exact fail _
      | ok bytes => exact pure _

theorem callScript (settings : Settings) (depth : Nat) (inv : Invocation) (path : String) :
    Parallel p (Machine.callScript settings depth inv path : Act σ ω Machine.Activation)
      (Machine.callScript settings depth inv path : Act σ ω' Machine.Activation) := by
  unfold Machine.callScript
  split
  · exact fail _
  · exact (openFeed path).andThen fun feed => (note _).andThen fun _ => pure _

theorem words (shell text : String) :
    Parallel p (Expansion.words shell text : Act σ ω _)
      (Expansion.words shell text : Act σ ω' _) := by
  unfold Expansion.words
  cases Word.command text with
  | error fault => exact fail _
  | ok code =>
      dsimp only
      split
      · refine (note _).andThen fun _ => get fun s s' hbare => ?_
        have henv : s'.environment = s.environment := congrArg Session.environment hbare
        dsimp only
        rw [henv]
        cases passable [shell, "-c", Expansion.shellScript code] s.environment with
        | error cause => exact fail _
        | ok _ =>
            refine (spawn _).andThen fun result => ?_
            cases result with
            | error e => exact fail _
            | ok finished => exact ofExcept _ _
      · cases Word.tokens code.toList with
        | error fault => exact fail _
        | ok words => exact pure _

theorem split (shell text : String) (line : Option Nat) :
    Parallel p (Expansion.split shell text line : Act σ ω _)
      (Expansion.split shell text line : Act σ ω' _) :=
  relocate (fun f => { f with line := f.line <|> line }) (fun _ => rfl) (words shell text)

/-! ## The device -/

section Device

open Device

theorem relative {axis : Nat} (haxis : axis ∈ relativeAxes.map (·.2)) (delta : Binary64)
    (sync : Bool) (verb : Option String) :
    Parallel p (Device.relative p axis delta sync verb : Act σ ω Unit)
      (Device.relative p axis delta sync verb : Act σ ω' Unit) :=
  (ofExcept _ _).bind fun _ hevents => deliver (.relative haxis hevents.of_ofExcept sync)

theorem absolute (axis : Nat) (percent : Binary64) (sync : Bool) (verb : Option String) :
    Parallel p (Device.absolute p axis percent sync verb : Act σ ω Unit)
      (Device.absolute p axis percent sync verb : Act σ ω' Unit) :=
  (ofExcept _ _).andThen fun value => deliver (.absolute axis value sync)

theorem sync : Parallel p (Device.sync p : Act σ ω Unit) (Device.sync p : Act σ ω' Unit) :=
  deliver .sync

theorem keys (pressed : Bool) (codes : List Int) :
    Parallel p (Device.keys p pressed codes : Act σ ω Unit)
      (Device.keys p pressed codes : Act σ ω' Unit) := by
  induction codes with
  | nil => exact pure _
  | cons code codes ih => exact (deliver (.key code pressed true)).andThen fun _ => ih

theorem tapCycles (codes : List Int) (delay : Binary64) (n : Nat) :
    Parallel p (Device.tapCycles p codes delay n : Act σ ω Unit)
      (Device.tapCycles p codes delay n : Act σ ω' Unit) := by
  induction n with
  | zero => exact pure _
  | succ n ih =>
      exact (keys true codes).andThen fun _ => (keys false _).andThen fun _ =>
        (wait _).andThen fun _ => ih

theorem tap (c : Controls) (codes : List Int) (count : Option Int) (runTime : Option Binary64)
    (delay : Option Binary64) :
    Parallel c.profile (Device.tap c codes count runTime delay : Act σ ω Nat)
      (Device.tap c codes count runTime delay : Act σ ω' Nat) := by
  unfold Device.tap
  dsimp only
  cases tapCount count runTime (delay.getD c.keyDelay) with
  | error e => exact crash _
  | ok n => exact (note _).andThen fun _ => (tapCycles _ _ _).andThen fun _ => pure _

theorem moveAxes (verb : String) {axes : List (Nat × Binary64)}
    (h : ∀ axis ∈ axes, axis.1 ∈ relativeAxes.map (·.2)) :
    Parallel p (Device.moveAxes p verb axes : Act σ ω Unit)
      (Device.moveAxes p verb axes : Act σ ω' Unit) := by
  induction axes with
  | nil => exact pure _
  | cons axis axes ih =>
      obtain ⟨haxis, haxes⟩ := List.forall_mem_cons.mp h
      exact (relative haxis _ _ _).andThen fun _ => ih haxes

theorem placeAxes (verb : String) (axes : List (Nat × Binary64)) :
    Parallel p (Device.placeAxes p verb axes : Act σ ω Unit)
      (Device.placeAxes p verb axes : Act σ ω' Unit) := by
  induction axes with
  | nil => exact pure _
  | cons axis axes ih => exact (absolute _ _ _ _).andThen fun _ => ih

/-- The axis of an item has a name. -/
def Named : Item → Prop
  | .relative axis _ => ∃ code ∈ relativeAxes.map (·.2), axis = (code : Nat)
  | .absolute axis _ => ∃ code : Nat, axis = code
  | _ => True

theorem emitItem (verb : String) {item : Item} (h : Named item) :
    Parallel p (Device.emitItem p verb item : Act σ ω Unit)
      (Device.emitItem p verb item : Act σ ω' Unit) := by
  cases item with
  | keyDown code => exact deliver (.key code true false)
  | keyUp code => exact deliver (.key code false false)
  | relative axis delta =>
      obtain ⟨code, hcode, rfl⟩ := h
      exact relative hcode _ _ _
  | absolute axis percent =>
      obtain ⟨code, rfl⟩ := h
      exact absolute _ _ _ _
  | sync => exact sync
  | unknown => exact crash _

theorem emitItems (verb : String) {items : List Item} (h : ∀ item ∈ items, Named item) :
    Parallel p (Device.emitItems p verb items : Act σ ω Unit)
      (Device.emitItems p verb items : Act σ ω' Unit) := by
  induction items with
  | nil => exact pure _
  | cons item items ih =>
      obtain ⟨hitem, hitems⟩ := List.forall_mem_cons.mp h
      exact (emitItem verb hitem).andThen fun _ => ih hitems

/-- The axis of an item that was read has a name. -/
theorem named_of_readItem {verb text : String} {item : Item}
    (h : Machine.readItem verb text = .ok item) : Named item := by
  cases Machine.readAs_of_readItem h with
  | sync => trivial
  | key _ _ _ hitem => rcases hitem with rfl | rfl <;> trivial
  | absolute => exact ⟨_, rfl⟩
  | relative haxis hrelative =>
      have hnamed := mem_of_findAxis haxis
      rw [hrelative] at hnamed
      exact ⟨_, hnamed, rfl⟩

end Device

/-! ## Simple commands -/

theorem tapKeys (settings : Settings) (inv : Invocation) :
    Parallel settings.device (Machine.tapKeys settings inv : Act σ ω Unit)
      (Machine.tapKeys settings inv : Act σ ω' Unit) :=
  (ofExcept _ _).andThen fun _ => (lift _ _).andThen fun _ => (lift _ _).andThen fun _ =>
    (ofExcept _ _).andThen fun _ => (tap (Machine.controls settings) _ _ _ _).andThen fun _ => pure _

/-- A command without control flow does the same on both sinks. -/
theorem simple (settings : Settings) (inv : Invocation) :
    Parallel settings.device (Machine.simple settings inv : Act σ ω Unit)
      (Machine.simple settings inv : Act σ ω' Unit) := by
  unfold Machine.simple
  dsimp only
  split
  · exact openDevice
  · refine (lift _ _).bind fun items hitems => ?_
    refine (emitItems _ fun item hitem => ?_).andThen fun _ => sync
    obtain ⟨text, -, hread⟩ := Machine.mem_of_readAll hitems.of_lift item hitem
    exact named_of_readItem hread
  · exact (ofExcept _ _).andThen fun _ => keys _ _
  · exact (ofExcept _ _).andThen fun _ => keys _ _
  · exact tapKeys settings inv
  · refine (lift _ _).andThen fun deltas => ?_
    exact (moveAxes _ fun axis haxis => (Device.mem_mainAxes haxis).1).andThen fun _ => sync
  · refine (lift _ _).andThen fun delta => ?_
    exact relative (Device.wheel_mem_relativeAxes _) _ _ _
  · exact (lift _ _).andThen fun _ => (placeAxes _ _).andThen fun _ => sync
  · exact (lift _ _).andThen fun _ => (note _).andThen fun _ => wait _
  · exact execute _ _ _
  · exact echo _
  · exact assign _ _
  · exact pure _

end Act.Parallel

/-! ## Control flow -/

namespace Machine

/-- Takes the next line of a script, off the standard input if it is read from there. -/
def takeNext (a : Activation) : Act σ ω (Script.Next × Activation) := do
  let s ← get
  let (next, a, input) := a.fetch s.input
  set { s with input }
  return (next, a)

/-- A step of a script takes a line and deals with it. -/
theorem advance_eq [Host σ] [Sink ω] (settings : Settings) (inherited : Option Countdown)
    (a : Activation) :
    (advance settings inherited a : Act σ ω Move) =
      (takeNext a >>= fun (next, a) =>
        match next with
        | .line line =>
          located a.source (some line.number) <|
            match a.omission with
            | some o => omitLine a o line
            | none => executeLine settings inherited a line
        | .fault fault =>
          throw (.fault { fault := .undecodable fault.fault, line := some fault.number })
        | .finished =>
          match a.replays with
          | replay :: outer => endIteration inherited a replay outer
          | [] => finish a) := rfl

end Machine

namespace Act.Parallel

open Machine

variable [Host σ] [Sink ω] [Sink ω'] {p : Profile} {act : Act σ ω α} {act' : Act σ ω' α}
  (settings : Settings) (inherited : Option Countdown) (a : Activation) (inv : Invocation)

theorem located (h : Parallel p act act') (source : String) (line : Option Nat) :
    Parallel p (Machine.located source line act) (Machine.located source line act') :=
  relocate (fun f => f.locate source line) (fun _ => rfl) h

theorem commandOf (words : List String) (line : Option Nat) :
    Parallel p (Machine.commandOf words line : Act σ ω Invocation)
      (Machine.commandOf words line : Act σ ω' Invocation) :=
  (lift _ _).andThen fun _ => (note _).andThen fun _ => pure _

theorem loopLimits :
    Parallel p (Machine.loopLimits inv : Act σ ω _) (Machine.loopLimits inv : Act σ ω' _) := by
  have htime : Parallel p (loopTime inv : Act σ ω _) (loopTime inv : Act σ ω' _) := by
    unfold loopTime
    split
    · exact fail _
    · exact pure _
    · exact pure _
  refine (ofExcept _ _).andThen fun count => htime.andThen fun text =>
    (lift _ _).andThen fun time => ?_
  split
  · exact fail _
  · exact pure _

theorem checkDepth (depth : Nat) (verb : String) :
    Parallel p (Machine.checkDepth settings depth verb : Act σ ω Unit)
      (Machine.checkDepth settings depth verb : Act σ ω' Unit) := by
  unfold Machine.checkDepth
  split
  · exact fail _
  · exact pure _

theorem takeNext :
    Parallel p (Machine.takeNext a : Act σ ω _) (Machine.takeNext a : Act σ ω' _) :=
  aside (Machine.takeNext a) (fun _ => rfl) fun _ => rfl

/-- Collecting a body changes nothing but the standard input. -/
theorem collect :
    Parallel p (Machine.collect a : Act σ ω _) (Machine.collect a : Act σ ω' _) := by
  have hexec : ∀ {ω : Type}, (Machine.collect a : Act σ ω _).Aside (Machine.collect a) := by
    intro ω s
    unfold Machine.collect
    rw [exec_bind_of_ok (exec_get s), exec_bind_of_ok (exec_get s.bare)]
    have hinput : s.bare.input = s.input := rfl
    rw [hinput]
    rcases a.upcoming s.input with ⟨lines, fault⟩
    dsimp only
    rcases takeBody 0 lines with (⟨line, trouble⟩ | _) | body
    · rcases trouble with fault | crash <;> rfl
    · rcases fault with _ | fault <;> rfl
    · rfl
  exact aside (Machine.collect a) hexec hexec

theorem judge :
    Parallel p (Machine.judge settings inv : Act σ ω Bool)
      (Machine.judge settings inv : Act σ ω' Bool) :=
  (noteAll _).andThen fun _ => (lift _ _).andThen fun _ => (note _).andThen fun _ => pure _

theorem startCond :
    Parallel p (Machine.startCond settings a inv : Act σ ω Move)
      (Machine.startCond settings a inv : Act σ ω' Move) :=
  (judge settings inv).andThen fun _ => (checkDepth _ _ _).andThen fun _ => pure _

theorem startElse :
    Parallel p (Machine.startElse a inv : Act σ ω Move)
      (Machine.startElse a inv : Act σ ω' Move) := by
  unfold Machine.startElse
  split
  · exact pure _
  · exact fail _

theorem endCond :
    Parallel p (Machine.endCond a inv : Act σ ω Move) (Machine.endCond a inv : Act σ ω' Move) := by
  unfold Machine.endCond
  split
  · exact pure _
  · exact fail _

theorem omitLine (o : Omission) (line : Line) :
    Parallel p (Machine.omitLine a o line : Act σ ω Move)
      (Machine.omitLine a o line : Act σ ω' Move) := by
  refine (lift _ _).andThen fun word => ?_
  split
  · exact pure _
  · exact pure _
  · exact (note _).andThen fun _ => pure _
  · split
    · split
      · exact fail _
      · exact (note _).andThen fun _ => pure _
    · exact pure _
  · exact pure _

theorem finish :
    Parallel p (Machine.finish a : Act σ ω Move) (Machine.finish a : Act σ ω' Move) := by
  unfold Machine.finish
  split
  · exact throw _
  · split
    · exact (note _).andThen fun _ => pure _
    · exact pure _

/-! ### Loops -/

theorem publish (c : Option Countdown) :
    Parallel p (Machine.publish c : Act σ ω Unit) (Machine.publish c : Act σ ω' Unit) := by
  cases c with
  | none => exact environment fun e => (e.erase loopCountName).erase loopTimeName
  | some c =>
      have htime : Parallel p (timeText c.deadline : Act σ ω String)
          (timeText c.deadline : Act σ ω' String) := by
        cases c.deadline with
        | none => exact pure _
        | some deadline => exact readClock.andThen fun _ => pure _
      refine htime.andThen fun time => ?_
      exact environment fun e => (e.set loopCountName (countText c.remaining)).set loopTimeName time

theorem timeIsUp (deadline : Option Binary64) :
    Parallel p (Machine.timeIsUp deadline : Act σ ω Bool)
      (Machine.timeIsUp deadline : Act σ ω' Bool) := by
  cases deadline with
  | none => exact pure _
  | some deadline => exact readClock.andThen fun _ => pure _

theorem endIteration (replay : Replay) (outer : List Replay) :
    Parallel p (Machine.endIteration inherited a replay outer : Act σ ω Move)
      (Machine.endIteration inherited a replay outer : Act σ ω' Move) := by
  unfold Machine.endIteration
  cases a.loopAt? replay.base with
  | none => exact pure _
  | some frame =>
      refine (timeIsUp _).andThen fun timeDone => ?_
      dsimp only
      split
      · exact (publish _).andThen fun _ => (note _).andThen fun _ => pure _
      · exact (note _).andThen fun _ => (publish _).andThen fun _ => pure _

theorem startLoop :
    Parallel p (Machine.startLoop settings inherited a inv : Act σ ω Move)
      (Machine.startLoop settings inherited a inv : Act σ ω' Move) :=
  (loopLimits inv).andThen fun _ => readClock.andThen fun _ => (checkDepth _ _ _).andThen fun _ =>
    (collect _).andThen fun _ => (note _).andThen fun _ => (publish _).andThen fun _ => pure _

theorem leaveLoops (levels : Nat) (replays : List Replay) :
    Parallel p (Machine.leaveLoops inherited a levels replays : Act σ ω _)
      (Machine.leaveLoops inherited a levels replays : Act σ ω' _) := by
  induction replays generalizing a levels with
  | nil => cases levels <;> exact pure _
  | cons replay replays ih =>
      cases levels with
      | zero => exact pure _
      | succ levels => exact (publish _).andThen fun _ => (note _).andThen fun _ => ih _ _

theorem startBreak :
    Parallel p (Machine.startBreak inherited a inv : Act σ ω Move)
      (Machine.startBreak inherited a inv : Act σ ω' Move) := by
  have hlevels : Parallel p (breakLevels inv : Act σ ω Nat) (breakLevels inv : Act σ ω' Nat) := by
    unfold breakLevels
    split
    · exact pure _
    · exact ofExcept _ _
  refine hlevels.andThen fun levels => ?_
  dsimp only
  split
  · exact fail _
  · exact (note _).andThen fun _ => (leaveLoops _ _ _ _).andThen fun _ => pure _

theorem exitScript :
    Parallel p (Machine.exitScript inherited a : Act σ ω Move)
      (Machine.exitScript inherited a : Act σ ω' Move) :=
  (noteAll _).andThen fun _ => (publish _).andThen fun _ => finish _

theorem unwind (levels : Nat) (activations : List Activation) :
    Parallel p (Machine.unwind inherited levels activations : Act σ ω _)
      (Machine.unwind inherited levels activations : Act σ ω' _) := by
  induction activations generalizing levels with
  | nil => exact pure _
  | cons a callers ih =>
      refine (leaveLoops _ _ _ _).andThen fun r => ?_
      dsimp only
      split
      · exact pure _
      · exact ih _

theorem follow (callers : List Activation) (m : Move) :
    Parallel p (Machine.follow inherited callers m : Act σ ω _)
      (Machine.follow inherited callers m : Act σ ω' _) := by
  cases m with
  | next a => exact pure _
  | call callee a => exact pure _
  | leave => exact pure _
  | unwind levels => exact unwind inherited levels callers

theorem abandon (f : Failure) (activations : List Activation) :
    Parallel p (Machine.abandon inherited f activations : Act σ ω _)
      (Machine.abandon inherited f activations : Act σ ω' _) := by
  induction activations generalizing f with
  | nil => exact pure _
  | cons a callers ih =>
      refine (publish _).andThen fun _ => ?_
      cases callers with
      | nil => exact pure _
      | cons caller callers => exact ih _

/-! ### Lines -/

theorem executePlain (depth : Nat) (inv : Invocation) :
    Parallel settings.device (Machine.executePlain settings depth inv : Act σ ω _)
      (Machine.executePlain settings depth inv : Act σ ω' _) := by
  unfold Machine.executePlain
  split
  · exact (callScript _ _ _ _).andThen fun _ => pure _
  · exact (simple settings inv).andThen fun _ => pure _

theorem perform :
    Parallel settings.device (Machine.perform settings inherited a inv : Act σ ω Move)
      (Machine.perform settings inherited a inv : Act σ ω' Move) := by
  unfold Machine.perform
  split
  · exact startLoop settings inherited a inv
  · exact startBreak inherited a inv
  · exact startCond settings a inv
  · exact startElse a inv
  · exact endCond a inv
  · exact exitScript inherited a
  · exact (executePlain settings a.depth inv).andThen fun _ => pure _

theorem dispatch (words : List String) (line : Option Nat) :
    Parallel settings.device (Machine.dispatch settings inherited a words line : Act σ ω Move)
      (Machine.dispatch settings inherited a words line : Act σ ω' Move) :=
  (commandOf words line).andThen fun inv => perform settings inherited a inv

theorem executeLine (line : Line) :
    Parallel settings.device (Machine.executeLine settings inherited a line : Act σ ω Move)
      (Machine.executeLine settings inherited a line : Act σ ω' Move) := by
  refine (split _ _ _).andThen fun words => ?_
  split
  · exact pure _
  · exact dispatch settings inherited a words _

theorem advance :
    Parallel settings.device (Machine.advance settings inherited a : Act σ ω Move)
      (Machine.advance settings inherited a : Act σ ω' Move) := by
  rw [advance_eq, advance_eq]
  refine (takeNext a).andThen fun r => ?_
  obtain ⟨next, a⟩ := r
  dsimp only
  cases next with
  | line line =>
      refine located ?_ _ _
      cases a.omission with
      | some o => exact omitLine a o line
      | none => exact executeLine settings inherited a line
  | fault fault => exact throw _
  | finished =>
      cases a.replays with
      | cons replay outer => exact endIteration inherited a replay outer
      | nil => exact finish a

/-- A turn of the machine does the same on both sinks. -/
theorem turn (activations : List Activation) :
    Parallel settings.device (Machine.turn settings inherited activations : Act σ ω _)
      (Machine.turn settings inherited activations : Act σ ω' _) := by
  cases activations with
  | nil => exact pure _
  | cons a callers => exact (advance settings _ a).andThen fun m => follow inherited callers m

end Act.Parallel

end InputScript
