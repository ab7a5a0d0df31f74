import InputScript.Proofs.Crashes
import InputScript.Proofs.Handle
import InputScript.Proofs.Parallel

/-!
# What a command may do

Some questions about runs are answered by what actions do on the way, whatever becomes of them: which
crashes there can be, and what is written to the device.  `Rules` gathers such a bound: the crashes
that are allowed, the events that may be written, and how the device may change.  An action keeps the
rules (`Act.Keeps`) if it changes the device and crashes only as they allow.

The property is closed under all ways of building actions.  It is proved here for the commands that
are no control flow, under what the rules must admit of the command that is executed
(`Rules.Admits`): the keys that it names, the texts that it reads as numbers, and the words that it
hands to a process or to the file system.

## Main results

* `Act.Keeps.simple` — a command keeps the rules that admit it.
-/

namespace InputScript

open Device (Sink Event)
open Script (Line RawLine)

variable {σ ω α β : Type}

/-! ## What a command is about -/

namespace Invocation

/-- The words of a command that are read as numbers which may have a fraction. -/
def numerals (inv : Invocation) : List String :=
  match inv.verb with
  | .key => (inv.option .time).toList ++ (inv.option .delay).toList
  | .loop => (inv.option .time).toList ++ inv.args[1]?.toList
  | .packet => inv.args.filterMap (Machine.itemValue? false)
  | .move | .position | .cond => inv.args
  | .wheel | .sleep => inv.args.take 1
  | _ => []

/-- The keys that a command names. -/
def keyNames (inv : Invocation) : List String :=
  match inv.verb with
  | .keyDown | .keyUp | .key => inv.args
  | .packet => inv.args.filterMap (Machine.itemValue? true)
  | _ => []

end Invocation

/-- A time that some text asks for. -/
def Argument.Asked (x : Binary64) : Prop :=
  ∃ text verb what, duration text verb what = .ok x

/-! ## Rules -/

/-- What the runs with some settings may do. -/
structure Rules (σ ω : Type) [Host σ] [Sink ω] (settings : Settings) where
  /-- The crashes that may happen. -/
  crash : Crash → Prop
  /-- The events that may be written. -/
  event : Event → Prop
  /-- How the device may change. -/
  device : Bool × ω → Bool × ω → Prop
  /-- A wait that does not return is such a crash. -/
  endless : ∀ delay (host : σ), (waitFor delay host).1 = false → crash .endless
  /-- So is a number of taps that cannot be told. -/
  tap : ∀ count time delay c, Argument.Asked time →
    (Argument.Asked delay ∨ delay = settings.keyDelay) →
    Device.tapCount count (some time) delay = .error c → crash c
  sync : event .sync
  relative : ∀ axis ∈ Device.declaredRelativeAxes, ∀ value, event (.relative axis value)
  absolute : ∀ axis ∈ Device.declaredAbsoluteAxes, ∀ value, event (.absolute axis value)
  refl : ∀ d, device d d
  trans : ∀ {d₁ d₂ d₃}, device d₁ d₂ → device d₂ d₃ → device d₁ d₃
  create : ∀ w, (Sink.create (.ofProfile settings.device) (.ofProfile settings.device) w).result =
      .ok () →
    device (false, w)
      (true, (Sink.create (.ofProfile settings.device) (.ofProfile settings.device) w).sink)
  refuse : ∀ w e,
    (Sink.create (.ofProfile settings.device) (.ofProfile settings.device) w).result = .error e →
    device (false, w)
      (false, (Sink.create (.ofProfile settings.device) (.ofProfile settings.device) w).sink)
  write : ∀ {e}, event e → ∀ w, device (true, w) (true, (Sink.write e w).sink)

variable [Host σ] [Sink ω] {settings : Settings}

/-- Rules that bound the crashes only. -/
def Rules.ofCrashes (crash : Crash → Prop)
    (endless : ∀ delay (host : σ), (waitFor delay host).1 = false → crash .endless)
    (tap : ∀ count time delay c, Argument.Asked time →
      (Argument.Asked delay ∨ delay = settings.keyDelay) →
      Device.tapCount count (some time) delay = .error c → crash c) : Rules σ ω settings where
  crash := crash
  event _ := True
  device _ _ := True
  endless := endless
  tap := tap
  sync := trivial
  relative _ _ _ := trivial
  absolute _ _ _ := trivial
  refl _ := trivial
  trans _ _ := trivial
  create _ _ := trivial
  refuse _ _ _ := trivial
  write _ _ := trivial

/-- What the rules allow covers a command that is executed with some variables. -/
structure Rules.Admits (rules : Rules σ ω settings) (inv : Invocation) (env : Environment) :
    Prop where
  numeral : ∀ text ∈ inv.numerals, ∀ c, TooLarge text c → rules.crash c
  process : inv.verb = .exec → ∀ cause, passable inv.args env = .error cause →
    rules.crash (Machine.crashOf cause)
  path : inv.verb = .script → ∀ path ∈ inv.args.head?, hasNul path = true →
    rules.crash .embeddedNul
  value : inv.verb = .assign → Host.systemVariables σ = true → ∀ text ∈ inv.args.tail.head?,
    hasNul text = true → rules.crash .embeddedNul
  key : ∀ name ∈ inv.keyNames, ∀ code : Nat, Device.findKey? name = some code → ∀ pressed,
    rules.event (.key code pressed)

/-- The action changes the device and crashes only as the rules allow. -/
def Act.Keeps (rules : Rules σ ω settings) (act : Act σ ω α) (s : Session σ ω) : Prop :=
  rules.device s.device (act.exec s).2.device ∧
    ∀ c, (act.exec s).1 = .error (.crash c) → rules.crash c

variable {verb : Option String} {events : List Event} {codes : List Int}

namespace Act.Keeps

variable {rules : Rules σ ω settings} {act : Act σ ω α} {s : Session σ ω}

theorem of_eq (h : Keeps rules act s) {r : Except (Trouble Failure) α} {s' : Session σ ω}
    (heq : act.exec s = (r, s')) :
    rules.device s.device s'.device ∧ ∀ c, r = .error (.crash c) → rules.crash c := by
  have := h
  rwa [Keeps, heq] at this

/-- Only what an action does counts. -/
theorem congr {act' : Act σ ω α} {t : Session σ ω} (heq : act.exec s = act'.exec t)
    (hdevice : t.device = s.device) (h : Keeps rules act' t) : Keeps rules act s := by
  unfold Keeps at h ⊢
  rwa [heq, ← hdevice]

/-- An action that answers keeps the rules if it leaves the device alone. -/
theorem of_ok {a : α} {s' : Session σ ω} (h : act.exec s = (.ok a, s'))
    (hdevice : s'.device = s.device) : Keeps rules act s := by
  unfold Keeps
  rw [h, hdevice]
  exact ⟨rules.refl _, nofun⟩

theorem pure (a : α) : Keeps rules (Pure.pure a : Act σ ω α) s := of_ok rfl rfl

theorem fail (fault : Fault) : Keeps rules (Act.fail fault : Act σ ω α) s :=
  ⟨rules.refl _, nofun⟩

theorem throw_fault (f : Failure) : Keeps rules (throw (.fault f) : Act σ ω α) s :=
  ⟨rules.refl _, nofun⟩

theorem crash {c : Crash} (h : rules.crash c) : Keeps rules (Act.crash c : Act σ ω α) s := by
  refine ⟨rules.refl _, fun c' heq => ?_⟩
  cases heq
  exact h

theorem bind {next : α → Act σ ω β} (h : Keeps rules act s)
    (hnext : ∀ a s', act.exec s = (.ok a, s') → Keeps rules (next a) s') :
    Keeps rules (act >>= next) s := by
  unfold Keeps
  rw [exec_bind]
  rcases hact : act.exec s with ⟨e | a, s₁⟩
  · have hfirst := h.of_eq hact
    refine ⟨hfirst.1, fun c hc => hfirst.2 c ?_⟩
    cases hc
    rfl
  · have hrest := hnext a s₁ hact
    exact ⟨rules.trans (h.of_eq hact).1 hrest.1, hrest.2⟩

/-- What an action answers may be of no matter for what comes next. -/
theorem andThen {next : α → Act σ ω β} (h : Keeps rules act s)
    (hnext : ∀ a s', Keeps rules (next a) s') : Keeps rules (act >>= next) s :=
  h.bind fun a s' _ => hnext a s'

theorem get_bind {next : Session σ ω → Act σ ω β} (h : Keeps rules (next s) s) :
    Keeps rules (get >>= next) s :=
  h.congr (exec_bind_of_ok (exec_get s)) rfl

theorem lift {ε : Type} (wrap : ε → Fault) {r : Except (Trouble ε) α}
    (h : CrashesOnly rules.crash r) : Keeps rules (Act.lift wrap r : Act σ ω α) s := by
  rcases r with (e | c) | a
  · exact fail _
  · exact crash (h c rfl)
  · exact pure _

theorem ofExcept {ε : Type} (wrap : ε → Fault) (r : Except ε α) :
    Keeps rules (Act.ofExcept wrap r : Act σ ω α) s := by
  rcases r with e | a
  · exact fail _
  · exact pure _

theorem note (n : Note) : Keeps rules (Act.note n : Act σ ω Unit) s := of_ok rfl rfl

theorem noteAll (ns : List Note) : Keeps rules (Act.noteAll ns : Act σ ω Unit) s := of_ok rfl rfl

/-- What is done about a fault may be anything that keeps the rules; a crash is passed on. -/
theorem tryCatch {handler : Trouble Failure → Act σ ω α} (h : Keeps rules act s)
    (hfault : ∀ f s', Keeps rules (handler (.fault f)) s')
    (hcrash : ∀ c, handler (.crash c) = throw (.crash c)) :
    Keeps rules (MonadExcept.tryCatch act handler) s := by
  unfold Keeps
  rw [exec_tryCatch]
  rcases hact : act.exec s with ⟨(f | c) | a, s₁⟩
  · have hrest := hfault f s₁
    exact ⟨rules.trans (h.of_eq hact).1 hrest.1, hrest.2⟩
  · dsimp only
    rw [hcrash]
    exact ⟨(h.of_eq hact).1, fun c' hc => (h.of_eq hact).2 c' hc⟩
  · exact ⟨(h.of_eq hact).1, nofun⟩

/-! ## The host -/

theorem readClock : Keeps rules (Act.readClock : Act σ ω Binary64) s := of_ok rfl rfl

theorem spawn (argv : List String) : Keeps rules (Act.spawn argv : Act σ ω _) s := of_ok rfl rfl

theorem wait (delay : Binary64) : Keeps rules (Act.wait delay : Act σ ω Unit) s := by
  unfold Keeps
  rw [exec_wait]
  refine ⟨rules.refl _, fun c hc => ?_⟩
  cases hended : (waitFor delay s.host).1 with
  | true => simp [hended] at hc
  | false =>
      simp only [hended, Bool.false_eq_true, if_false, Except.error.injEq, Trouble.crash.injEq] at hc
      subst hc
      exact rules.endless delay s.host hended

theorem words (shell text : String) : Keeps rules (Expansion.words shell text : Act σ ω _) s := by
  unfold Expansion.words
  split
  · exact fail _
  · split
    · refine (note _).andThen fun _ s₁ => get_bind ?_
      dsimp only
      split
      · exact fail _
      · refine (spawn _).andThen fun result s₂ => ?_
        split
        · exact fail _
        · exact ofExcept _ _
    · split
      · exact fail _
      · exact pure _

theorem split (shell text : String) (line : Option Nat) :
    Keeps rules (Expansion.split shell text line : Act σ ω _) s :=
  (words shell text).tryCatch (fun _ _ => throw_fault _) fun _ => rfl

/-- A process that is run crashes only for the words and variables that it is given. -/
theorem execute (command : String) (args : List String) (detach : Bool)
    (h : ∀ cause, passable (command :: args) s.environment = .error cause →
      rules.crash (Machine.crashOf cause)) :
    Keeps rules (Machine.execute command args detach : Act σ ω Unit) s := by
  refine congr (exec_bind_of_ok (exec_note _ _)) rfl (get_bind ?_)
  dsimp only
  split
  · next cause hcause => exact crash (h cause hcause)
  · refine (spawn _).andThen fun result s₁ => ?_
    split
    · exact fail _
    · refine (note _).andThen fun _ s₂ => ?_
      split
      · exact pure _
      · refine (note _).andThen fun _ s₃ => ?_
        split
        · exact fail _
        · exact pure _

theorem openFeed (path : String) (h : hasNul path = true → rules.crash .embeddedNul) :
    Keeps rules (Machine.openFeed path : Act σ ω _) s := by
  unfold Machine.openFeed
  split
  · exact pure _
  · split
    · next hnul => exact crash (h hnul)
    · refine get_bind ?_
      split
      · exact fail _
      · exact pure _

theorem callScript (depth : Nat) (inv : Invocation) (path : String)
    (h : hasNul path = true → rules.crash .embeddedNul) :
    Keeps rules (Machine.callScript settings depth inv path : Act σ ω _) s := by
  unfold Machine.callScript
  split
  · exact fail _
  · exact (openFeed path h).andThen fun _ _ => (note _).andThen fun _ _ => pure _

theorem assign (name : String) (value : Option String) (h : Host.systemVariables σ = true →
      ∀ text ∈ value, hasNul text = true → rules.crash .embeddedNul) :
    Keeps rules (Machine.assign name value : Act σ ω Unit) s := by
  unfold Machine.assign
  split
  · cases value with
    | none => exact of_ok rfl rfl
    | some text =>
        dsimp only
        split
        · next hrefused =>
            rw [Bool.and_eq_true] at hrefused
            exact crash (h hrefused.1 text rfl hrefused.2)
        · exact of_ok rfl rfl
  · exact fail _

/-! ## The device -/

section Device

open Device

/-- The device as it is made. -/
abbrev made (settings : Settings) (w : ω) : Reply ω :=
  Sink.create (.ofProfile settings.device) (.ofProfile settings.device) w

theorem openDevice : Keeps rules (Device.openDevice settings.device : Act σ ω Unit) s := by
  unfold Keeps
  rcases exec_openDevice_cases settings.device s with
    ⟨-, hexec⟩ | ⟨hopen, e, hrefused, hexec⟩ | ⟨hopen, hmade, hexec⟩
  · exact of_ok hexec rfl
  · have hbefore : s.device = (false, s.sink) := congrArg (Prod.mk · s.sink) hopen
    have hafter : (s.refused settings.device e).device = (false, (made settings s.sink).sink) :=
      congrArg (Prod.mk · _) hopen
    rw [hexec, hbefore, hafter]
    exact ⟨rules.refuse s.sink e hrefused, nofun⟩
  · have hbefore : s.device = (false, s.sink) := congrArg (Prod.mk · s.sink) hopen
    have hafter : (s.created settings.device).device = (true, (made settings s.sink).sink) := rfl
    have hwait : Keeps rules (Act.wait settings.device.settleTime) (s.created settings.device) :=
      wait _
    rw [Keeps, hafter] at hwait
    rw [hexec, hbefore]
    exact ⟨rules.trans (rules.create s.sink hmade) hwait.1, hwait.2⟩

omit [Host σ] in
theorem isOpen_emit (e : Event) : (Device.emit e : Act σ ω Unit).Preserves Session.isOpen := by
  intro s
  rw [exec_emit]
  rfl

/-- Writing to a device that is there. -/
theorem emitAll (h : ∀ e ∈ events, rules.event e) (hopen : s.isOpen = true) :
    Keeps rules (Device.emitAll events : Act σ ω Unit) s := by
  induction events generalizing s with
  | nil => exact pure _
  | cons e events ih =>
      obtain ⟨he, hevents⟩ := List.forall_mem_cons.mp h
      have hemit : Keeps rules (Device.emit e : Act σ ω Unit) s := by
        unfold Keeps
        rw [exec_emit]
        refine ⟨?_, fun c hc => ?_⟩
        · have hwrite := rules.write he s.sink
          rw [← hopen] at hwrite
          exact hwrite
        · cases hresult : (Sink.write e s.sink).result with
          | error error =>
              rw [hresult] at hc
              cases hc
          | ok _ =>
              rw [hresult] at hc
              cases hc
      exact hemit.bind fun _ s₁ hexec => ih hevents (((isOpen_emit e).of_eq hexec).trans hopen)

theorem deliver (h : ∀ e ∈ events, rules.event e) :
    Keeps rules (Device.deliver settings.device events : Act σ ω Unit) s :=
  openDevice.bind fun _ _ hopen => emitAll h (isOpen_of_openDevice hopen)

theorem sync : Keeps rules (Device.sync settings.device : Act σ ω Unit) s :=
  deliver (List.forall_mem_singleton.mpr rules.sync)

/-- A frame may be ended. -/
theorem deliver_framed (h : ∀ e ∈ events, rules.event e) (sync : Bool) :
    Keeps rules (Device.deliver settings.device (framed events sync) : Act σ ω Unit) s := by
  refine deliver fun e he => ?_
  cases sync with
  | false => exact h e he
  | true =>
      rcases List.mem_append.mp he with he | he
      · exact h e he
      · rw [List.mem_singleton.mp he]
        exact rules.sync

theorem key {code : Int} {pressed : Bool} (h : rules.event (.key code pressed)) (sync : Bool) :
    Keeps rules (Device.key settings.device code pressed sync : Act σ ω Unit) s :=
  deliver_framed (List.forall_mem_singleton.mpr h) sync

theorem keys (pressed : Bool) (h : ∀ code ∈ codes, rules.event (.key code pressed)) :
    Keeps rules (Device.keys settings.device pressed codes : Act σ ω Unit) s := by
  induction codes generalizing s with
  | nil => exact pure _
  | cons code codes ih =>
      obtain ⟨hcode, hcodes⟩ := List.forall_mem_cons.mp h
      exact (key hcode true).andThen fun _ _ => ih hcodes

theorem tapCycles (h : ∀ code ∈ codes, ∀ pressed, rules.event (.key code pressed))
    (delay : Binary64) (n : Nat) :
    Keeps rules (Device.tapCycles settings.device codes delay n : Act σ ω Unit) s := by
  induction n generalizing s with
  | zero => exact pure _
  | succ n ih =>
      refine (keys true fun code hcode => h code hcode true).andThen fun _ _ => ?_
      refine (keys false fun code hcode => ?_).andThen fun _ _ => (wait _).andThen fun _ _ => ih
      exact h code (List.mem_reverse.mp hcode) false

/-- A number of taps needs to be told only within a run time. -/
theorem tap {count : Option Int} {time delay : Option Binary64}
    (h : ∀ code ∈ codes, ∀ pressed, rules.event (.key code pressed))
    (htime : ∀ t ∈ time, Argument.Asked t) (hdelay : ∀ d ∈ delay, Argument.Asked d) :
    Keeps rules (Device.tap (Machine.controls settings) codes count time delay : Act σ ω Nat) s := by
  unfold Device.tap
  dsimp only
  split
  · next c hc =>
      refine crash ?_
      cases time with
      | none => cases hc
      | some time =>
          refine rules.tap count time _ c (htime time rfl) ?_ hc
          cases delay with
          | none => exact .inr rfl
          | some delay => exact .inl (hdelay delay rfl)
  · exact (note _).andThen fun _ _ => (tapCycles h _ _).andThen fun _ _ => pure _

omit [Host σ] [Sink ω] in
/-- The axes that a relative motion reports are declared. -/
theorem mem_relativeEvents {axis : Nat} (haxis : axis ∈ relativeAxes.map (·.2)) {delta : Binary64}
    (h : relativeEvents axis delta verb = .ok events) :
    ∀ e ∈ events, ∃ code ∈ declaredRelativeAxes, ∃ value, e = .relative code value := by
  unfold relativeEvents at h
  dsimp only at h
  split at h
  · cases h
    intro e he
    obtain ⟨⟨code, x⟩, hvalue, rfl⟩ := List.mem_map.mp he
    have hself : axis ∈ declaredRelativeAxes := List.mem_append_left _ haxis
    unfold relativeValues at hvalue
    cases hfine : companion? axis with
    | none =>
        rw [hfine] at hvalue
        cases List.mem_singleton.mp hvalue
        exact ⟨axis, hself, _, rfl⟩
    | some fine =>
        rw [hfine] at hvalue
        rcases List.mem_cons.mp hvalue with heq | hvalue
        · cases heq
          exact ⟨axis, hself, _, rfl⟩
        · cases List.mem_singleton.mp hvalue
          refine ⟨fine, List.mem_append_right _ ?_, _, rfl⟩
          have haxis : fineAxis? axis = some fine := hfine
          unfold fineAxis? at haxis
          split at haxis
          · cases haxis
            decide
          · split at haxis
            · cases haxis
              decide
            · cases haxis
  · cases h

theorem relative {axis : Nat} (h : axis ∈ relativeAxes.map (·.2)) (delta : Binary64) (sync : Bool)
    (verb : Option String) :
    Keeps rules (Device.relative settings.device axis delta sync verb : Act σ ω Unit) s := by
  refine (ofExcept _ _).bind fun events s' hexec => deliver_framed (fun e he => ?_) sync
  cases hevents : relativeEvents axis delta verb with
  | error f =>
      rw [hevents] at hexec
      cases hexec
  | ok events' =>
      rw [hevents] at hexec
      cases hexec
      obtain ⟨code, hcode, value, rfl⟩ := mem_relativeEvents h hevents e he
      exact rules.relative code hcode value

theorem absolute {axis : Nat} (h : axis ∈ declaredAbsoluteAxes) (percent : Binary64) (sync : Bool)
    (verb : Option String) :
    Keeps rules (Device.absolute settings.device axis percent sync verb : Act σ ω Unit) s :=
  (ofExcept _ _).andThen fun value _ =>
    deliver_framed (List.forall_mem_singleton.mpr (rules.absolute axis h value)) sync

theorem moveAxes (verb : String) {axes : List (Nat × Binary64)}
    (h : ∀ axis ∈ axes, axis.1 ∈ relativeAxes.map (·.2)) :
    Keeps rules (Device.moveAxes settings.device verb axes : Act σ ω Unit) s := by
  induction axes generalizing s with
  | nil => exact pure _
  | cons axis axes ih =>
      obtain ⟨haxis, haxes⟩ := List.forall_mem_cons.mp h
      exact (relative haxis _ _ _).andThen fun _ _ => ih haxes

theorem placeAxes (verb : String) {axes : List (Nat × Binary64)}
    (h : ∀ axis ∈ axes, axis.1 ∈ declaredAbsoluteAxes) :
    Keeps rules (Device.placeAxes settings.device verb axes : Act σ ω Unit) s := by
  induction axes generalizing s with
  | nil => exact pure _
  | cons axis axes ih =>
      obtain ⟨haxis, haxes⟩ := List.forall_mem_cons.mp h
      exact (absolute haxis _ _ _).andThen fun _ _ => ih haxes

/-- The rules allow an item of a packet. -/
def Allowed (rules : Rules σ ω settings) : Item → Prop
  | .keyDown code => rules.event (.key code true)
  | .keyUp code => rules.event (.key code false)
  | .relative axis _ => ∃ code ∈ relativeAxes.map (·.2), axis = (code : Nat)
  | .absolute axis _ => ∃ code ∈ declaredAbsoluteAxes, axis = (code : Nat)
  | .sync => True
  | .unknown => False

theorem emitItem (verb : String) {item : Item} (h : Allowed rules item) :
    Keeps rules (Device.emitItem settings.device verb item : Act σ ω Unit) s := by
  cases item with
  | keyDown code => exact key h false
  | keyUp code => exact key h false
  | relative axis delta =>
      obtain ⟨code, hcode, rfl⟩ := h
      exact relative hcode _ _ _
  | absolute axis percent =>
      obtain ⟨code, hcode, rfl⟩ := h
      exact absolute hcode _ _ _
  | sync => exact sync
  | unknown => exact h.elim

theorem emitItems (verb : String) {items : List Item} (h : ∀ item ∈ items, Allowed rules item) :
    Keeps rules (Device.emitItems settings.device verb items : Act σ ω Unit) s := by
  induction items generalizing s with
  | nil => exact pure _
  | cons item items ih =>
      obtain ⟨hitem, hitems⟩ := List.forall_mem_cons.mp h
      exact (emitItem verb hitem).andThen fun _ _ => ih hitems

omit [Host σ] [Sink ω] in
theorem findKey?_of_findKey {name : String} {code : Nat} (h : findKey name verb = .ok code) :
    findKey? name = some code := by
  unfold findKey at h
  split at h
  · next hcode =>
      cases h
      exact hcode
  · cases h

/-- An item that was read is allowed if its key is. -/
theorem allowed_of_readItem {verb text : String} {item : Item}
    (h : Machine.readItem verb text = .ok item)
    (hkey : ∀ name ∈ Machine.itemValue? true text, ∀ code : Nat, findKey? name = some code →
      ∀ pressed, rules.event (.key code pressed)) : Allowed rules item := by
  cases Machine.readAs_of_readItem h with
  | sync => trivial
  | @key _ value _ _ htext hname hcode hitem =>
      have hvalue : Machine.itemValue? true text = some value := by
        rcases hname with hname | hname <;> simp [Machine.itemValue?, htext, hname]
      have hevent := hkey _ hvalue _ (findKey?_of_findKey hcode)
      rcases hitem with rfl | rfl
      · exact hevent true
      · exact hevent false
  | absolute haxis habsolute =>
      have hdeclared := mem_of_findAxis haxis
      rw [habsolute] at hdeclared
      exact ⟨_, hdeclared, rfl⟩
  | relative haxis hrelative =>
      have hdeclared := mem_of_findAxis haxis
      rw [hrelative] at hdeclared
      exact ⟨_, hdeclared, rfl⟩

end Device

/-! ## Commands -/

omit [Host σ] [Sink ω] in
/-- The codes of keys are those of their names. -/
theorem mem_of_keyCodes {verb : String} {args : List String}
    (h : Machine.keyCodes verb args = .ok codes) :
    ∀ code ∈ codes, ∃ name ∈ args, ∃ n : Nat, code = n ∧ Device.findKey? name = some n := by
  unfold Machine.keyCodes at h
  split at h
  · cases h
  · next found hfound =>
      cases h
      intro code hcode
      obtain ⟨n, hn, rfl⟩ := List.mem_map.mp hcode
      obtain ⟨name, hname, hkey⟩ := Machine.mem_of_readAll hfound n hn
      exact ⟨name, hname, n, rfl, findKey?_of_findKey hkey⟩

variable {inv : Invocation}

/-- The keys of a command that the rules admit. -/
theorem keyCodes_bind {args : List String} {next : List Int → Act σ ω β}
    (hkey : ∀ name ∈ args, ∀ code : Nat, Device.findKey? name = some code → ∀ pressed,
      rules.event (.key code pressed))
    (hnext : ∀ codes s', (∀ code ∈ codes, ∀ pressed, rules.event (.key code pressed)) →
      Keeps rules (next codes) s') :
    Keeps rules (Act.ofExcept id (Machine.keyCodes inv.name args) >>= next) s := by
  refine (ofExcept _ _).bind fun codes s' hexec => hnext codes s' fun code hcode pressed => ?_
  cases hcodes : Machine.keyCodes inv.name args with
  | error f =>
      rw [hcodes] at hexec
      cases hexec
  | ok found =>
      rw [hcodes] at hexec
      cases hexec
      obtain ⟨name, hname, n, rfl, hfound⟩ := mem_of_keyCodes hcodes code hcode
      exact hkey name hname n hfound pressed

omit [Host σ] [Sink ω] in
/-- Reading an optional time. -/
theorem asked_of_readOptional {what : String} {text : Option String} {time : Option Binary64}
    (h : Machine.readOptional (Argument.duration · verb what) text = .ok time) :
    ∀ t ∈ time, Argument.Asked t := by
  intro t ht
  cases text with
  | none =>
      cases h
      cases ht
  | some text =>
      rw [Machine.readOptional] at h
      split at h
      · cases h
      · next x hx =>
          cases h
          cases ht
          exact ⟨text, verb, what, hx⟩

theorem duration_bind {what : String} {text : Option String} {next : Option Binary64 → Act σ ω β}
    (hlarge : ∀ t ∈ text, ∀ c, TooLarge t c → rules.crash c)
    (hnext : ∀ time s', (∀ t ∈ time, Argument.Asked t) → Keeps rules (next time) s') :
    Keeps rules (Act.lift .argument
      (Machine.readOptional (Argument.duration · verb what) text) >>= next) s := by
  refine (lift _ (Machine.crashes_readOptional fun t ht =>
    (Argument.crashes_duration t verb what).mono (hlarge t ht))).bind fun time s' hexec => ?_
  exact hnext time s' (asked_of_readOptional (exec_lift_eq_ok hexec).1)

theorem tapKeys (h : rules.Admits inv s.environment) (hverb : inv.verb = .key) :
    Keeps rules (Machine.tapKeys settings inv : Act σ ω Unit) s := by
  have hnumeral : ∀ text ∈ (inv.option .time).toList ++ (inv.option .delay).toList, ∀ c,
      TooLarge text c → rules.crash c := by
    have := h.numeral
    rwa [Invocation.numerals, hverb] at this
  have hkey := h.key
  rw [Invocation.keyNames, hverb] at hkey
  refine (ofExcept _ _).andThen fun count _ => duration_bind (fun t ht => ?_) fun time _ htime =>
    duration_bind (fun t ht => ?_) fun delay _ hdelay => keyCodes_bind hkey fun codes _ hcodes =>
      (tap hcodes htime hdelay).andThen fun _ _ => pure _
  · exact hnumeral t (List.mem_append_left _ (Option.mem_toList.mpr ht))
  · exact hnumeral t (List.mem_append_right _ (Option.mem_toList.mpr ht))

/-- A command without control flow keeps the rules that admit it. -/
theorem simple (h : rules.Admits inv s.environment) :
    Keeps rules (Machine.simple settings inv : Act σ ω Unit) s := by
  have hnumeral := h.numeral
  have hkey := h.key
  unfold Machine.simple
  dsimp only
  split
  · exact openDevice
  · next args hverb =>
      rw [Invocation.numerals, hverb] at hnumeral
      rw [Invocation.keyNames, hverb] at hkey
      refine (lift _ (Machine.crashes_readAll fun t ht => ?_)).bind fun items _ hexec => ?_
      · refine (Machine.crashes_readItem inv.name t).mono ?_
        rintro c ⟨value, hvalue, hlarge⟩
        exact hnumeral value (List.mem_filterMap.mpr ⟨t, ht, hvalue⟩) c hlarge
      · refine (emitItems _ fun item hitem => ?_).andThen fun _ _ => sync
        obtain ⟨t, ht, hread⟩ := Machine.mem_of_readAll (exec_lift_eq_ok hexec).1 item hitem
        exact allowed_of_readItem hread fun name hname =>
          hkey name (List.mem_filterMap.mpr ⟨t, ht, hname⟩)
  · next args hverb =>
      rw [Invocation.keyNames, hverb] at hkey
      exact keyCodes_bind hkey fun codes _ hcodes =>
        keys true fun code hcode => hcodes code hcode true
  · next args hverb =>
      rw [Invocation.keyNames, hverb] at hkey
      exact keyCodes_bind hkey fun codes _ hcodes =>
        keys false fun code hcode => hcodes code hcode false
  · next hverb => exact tapKeys h hverb
  · next args hverb =>
      rw [Invocation.numerals, hverb] at hnumeral
      refine (lift _ (Machine.crashes_readAll fun t ht =>
        (Argument.crashes_relative t _).mono (hnumeral t ht))).andThen fun deltas _ => ?_
      exact (moveAxes _ fun axis haxis => (Device.mem_mainAxes haxis).1).andThen fun _ _ => sync
  · next arg args hverb hargs =>
      rw [Invocation.numerals, hverb, hargs] at hnumeral
      refine (lift _ ((Argument.crashes_relative arg _).mono
        (hnumeral arg List.mem_cons_self))).andThen fun delta _ => ?_
      exact relative (Device.wheel_mem_relativeAxes _) _ _ _
  · next args hverb =>
      rw [Invocation.numerals, hverb] at hnumeral
      refine (lift _ (Machine.crashes_readAll fun t ht =>
        (Argument.crashes_absolute t _).mono (hnumeral t ht))).andThen fun percents _ => ?_
      exact (placeAxes _ fun axis haxis => (Device.mem_mainAxes haxis).2).andThen fun _ _ => sync
  · next arg args hverb hargs =>
      rw [Invocation.numerals, hverb, hargs] at hnumeral
      refine (lift _ ((Argument.crashes_duration arg _ _).mono
        (hnumeral arg List.mem_cons_self))).andThen fun seconds _ => ?_
      exact (note _).andThen fun _ _ => wait _
  · next command args hverb hargs =>
      refine execute command args _ fun cause hcause => h.process hverb cause ?_
      rw [hargs]
      exact hcause
  · exact of_ok rfl rfl
  · next name rest hverb hargs =>
      have hvalue := h.value hverb
      rw [hargs] at hvalue
      exact assign name _ hvalue
  · exact pure _

end Act.Keeps

end InputScript
