import InputScript.Proofs.RunRules
import InputScript.Proofs.Task

/-!
# What is emitted is declared

A device declares its keys and axes before it exists, and the system drops what it did not declare
without a word.  What scripts may emit is decided elsewhere: by the names and numbers that are looked
up.  This module compares the two, over whole runs.

What a sink was told is kept in a `Ledger`: the capabilities that the device was created with, and the
events that were written.  Both sinks have one.

The two agree but for one key.  The greatest code may be asked for by number and is not declared; no
key of the table has it.

## Main results

* `Device.lt_keyMax_of_findKey?` — the codes that the lookup of a key accepts.
* `emitted_events_are_declared` — every event that a run writes is declared, or it is that key.
-/

namespace InputScript

namespace Device

/-! ## Declarations -/

/-- A device with these capabilities may emit the event. -/
def Capabilities.Declares (caps : Capabilities) (e : Event) : Prop :=
  e.type ∈ caps.eventTypes ∧
    ((e.type = EventType.key.code ∧ e.code ∈ caps.keys) ∨
      (e.type = EventType.relative.code ∧ e.code ∈ caps.relativeAxes) ∨
      (e.type = EventType.absolute.code ∧ e.code ∈ caps.absoluteAxes.map (·.1)))

instance (caps : Capabilities) (e : Event) : Decidable (caps.Declares e) :=
  inferInstanceAs (Decidable (_ ∧ _))

namespace Capabilities

variable (p : Profile)

theorem declares_relative {axis : Nat} (h : axis ∈ declaredRelativeAxes) (value : Int) :
    (ofProfile p).Declares (.relative axis value) := by
  refine ⟨by simp [ofProfile, Event.relative], .inr (.inl ⟨rfl, ?_⟩)⟩
  exact List.mem_map.mpr ⟨axis, h, rfl⟩

theorem declares_absolute {axis : Nat} (h : axis ∈ declaredAbsoluteAxes) (value : Int) :
    (ofProfile p).Declares (.absolute axis value) := by
  refine ⟨by simp [ofProfile, Event.absolute], .inr (.inr ⟨rfl, ?_⟩)⟩
  simp only [ofProfile, List.map_map]
  exact List.mem_map.mpr ⟨axis, h, rfl⟩

/-- Without an accommodation all keys below the greatest are declared. -/
theorem declares_key {p : Profile} (htrait : p.hasTrait libinputTrait = false) {code : Nat}
    (h : code < keyMax) (pressed : Bool) : (ofProfile p).Declares (.key code pressed) := by
  refine ⟨by simp [ofProfile, Event.key], .inl ⟨rfl, ?_⟩⟩
  have hskips : skipsKey p code = false := by rw [skipsKey, htrait]; rfl
  have hkey : code ∈ declaredKeys p :=
    List.mem_filter.mpr ⟨List.mem_range.mpr h, by rw [hskips]; rfl⟩
  simp only [ofProfile, Event.key]
  exact List.mem_map.mpr ⟨code, hkey, rfl⟩

end Capabilities

/-- No key of the table has the greatest code. -/
theorem lt_keyMax_of_mem_keyTable : ∀ entry ∈ keyTable, entry.2 < keyMax := by
  have hall : (keyTable.all fun entry => decide (entry.2 < keyMax)) = true := by decide +kernel
  intro entry hentry
  exact of_decide_eq_true (List.all_eq_true.mp hall entry hentry)

/-- The code that is found for a key is below the greatest, unless that one is asked for by
number. -/
theorem lt_keyMax_of_findKey? {name : String} {code : Nat} (h : findKey? name = some code) :
    code < keyMax ∨ (code = keyMax ∧ readCode? name = some (keyMax : Int)) := by
  unfold findKey? at h
  split at h
  · split at h
    · next n hread =>
        split at h
        · next hrange =>
            cases h
            by_cases hlast : n = keyMax
            · subst hlast
              exact .inr ⟨rfl, hread⟩
            · refine .inl ?_
              omega
        · cases h
    · cases h
  · obtain ⟨before, after, htable, -⟩ := List.lookup_eq_some_iff.mp h
    refine .inl (lt_keyMax_of_mem_keyTable (Text.upper name, code) ?_)
    rw [htable]
    exact List.mem_append_right _ List.mem_cons_self

/-! ## Ledgers -/

/-- What a sink was told. -/
structure Ledger (ω : Type) [Sink ω] where
  /-- The capabilities that the device was created with. -/
  declared : ω → Option Capabilities
  /-- The events that were written, those that end a frame apart. -/
  events : ω → List Event
  created : ∀ {p : Profile} {w : ω}, (Sink.create (.ofProfile p) (.ofProfile p) w).result = .ok () →
    declared (Sink.create (.ofProfile p) (.ofProfile p) w).sink = some (.ofProfile p) ∧
      events (Sink.create (.ofProfile p) (.ofProfile p) w).sink = events w
  refused : ∀ {p : Profile} {w : ω} {e : SystemError},
    (Sink.create (.ofProfile p) (.ofProfile p) w).result = .error e →
    declared (Sink.create (.ofProfile p) (.ofProfile p) w).sink = declared w ∧
      events (Sink.create (.ofProfile p) (.ofProfile p) w).sink = events w
  written : ∀ (e : Event) (w : ω),
    declared (Sink.write e w).sink = declared w ∧
      (events (Sink.write e w).sink = events w ∨
        e.isSync = false ∧ events (Sink.write e w).sink = events w ++ [e])

/-- The recorder keeps both itself. -/
def Recorder.ledger : Ledger Recorder where
  declared r := r.declared.map (·.1)
  events r := r.events.filter fun e => !e.isSync
  created {p w} h := by
    simp only [Sink.create, Recorder.create] at h ⊢
    split at h
    · cases h
    · exact ⟨rfl, rfl⟩
  refused {p w e} h := by
    simp only [Sink.create, Recorder.create] at h ⊢
    split at h
    · exact ⟨rfl, rfl⟩
    · cases h
  written e w := by
    cases hfull : w.isFull with
    | true =>
        refine ⟨?_, .inl ?_⟩
        · simp [Sink.write, Recorder.write, hfull]
        · simp [Sink.write, hfull]
    | false =>
        refine ⟨?_, ?_⟩
        · simp [Sink.write, Recorder.write, hfull]
        · cases hsync : e.isSync with
          | true => exact .inl (by simp [Sink.write, hfull, hsync])
          | false => exact .inr ⟨rfl, by simp [Sink.write, hfull, hsync]⟩

/-- The events that were written to a virtual device. -/
def VirtualDevice.events (d : VirtualDevice) : List Event :=
  d.calls.reverse.filterMap fun
    | .write e => some e
    | .sync => none
    | .close => none

/-- The capabilities that a virtual device was made with. -/
def Construction.capabilities (c : Construction) : Capabilities :=
  { eventTypes := (c.keys.map fun _ => (EventType.key.code : Int)).toList ++
      (c.relativeAxes.map fun _ => (EventType.relative.code : Int)).toList ++
      (c.absoluteAxes.map fun _ => (EventType.absolute.code : Int)).toList
    properties := c.properties
    keys := c.keys.getD []
    relativeAxes := c.relativeAxes.getD []
    absoluteAxes := c.absoluteAxes.getD [] }

theorem VirtualDevice.events_call (d : VirtualDevice) (e : Event) :
    (d.call (Kernel.callOf e)).events = if e.isSync then d.events else d.events ++ [e] := by
  unfold Kernel.callOf
  split <;> simp [VirtualDevice.events, VirtualDevice.call]

theorem Kernel.capabilities_construction (k : Kernel) (p : Profile) :
    (k.construction (.ofProfile p) (.ofProfile p)).capabilities = .ofProfile p := by
  simp [Construction.capabilities, construction, ifDeclared, Capabilities.ofProfile, EventType.code]

/-- The kernel sink keeps them in the devices that it made. -/
def Kernel.ledger : Ledger Kernel where
  declared k := k.device.map (·.construction.capabilities)
  events k := (k.retired.reverse ++ k.device.toList).flatMap VirtualDevice.events
  created {p w} h := by
    simp only [Sink.create, Kernel.create] at h ⊢
    split at h
    · cases h
    · cases h
    · refine ⟨congrArg some (w.capabilities_construction p), ?_⟩
      cases w.device <;> simp [VirtualDevice.events]
  refused {p w e} h := by
    simp only [Sink.create, Kernel.create] at h ⊢
    split at h
    · exact ⟨rfl, rfl⟩
    · exact ⟨rfl, rfl⟩
    · cases h
  written e w := by
    simp only [Sink.write, Kernel.write]
    split
    · exact ⟨rfl, .inl rfl⟩
    · next d hdevice =>
        split
        · exact ⟨rfl, .inl rfl⟩
        · refine ⟨by rw [hdevice]; rfl, ?_⟩
          cases hsync : e.isSync with
          | true => exact .inl (by simp [hdevice, VirtualDevice.events_call, hsync])
          | false => exact .inr ⟨rfl, by simp [hdevice, VirtualDevice.events_call, hsync]⟩

namespace Ledger

variable {ω : Type} [Sink ω] (L : Ledger ω)

/-- A device that is there was created with these capabilities. -/
def Sane (caps : Capabilities) (d : Bool × ω) : Prop :=
  d.1 = true → L.declared d.2 = some caps

/-- The ledger goes on with events of a kind, for a device that has these capabilities. -/
structure Grows (caps : Capabilities) (P : Event → Prop) (d d' : Bool × ω) : Prop where
  sane : L.Sane caps d'
  declared : L.declared d.2 = some caps → L.declared d'.2 = some caps
  events : ∃ events, L.events d'.2 = L.events d.2 ++ events ∧ (∀ e ∈ events, P e) ∧
    (events ≠ [] → L.declared d'.2 = some caps)

variable {L} {caps : Capabilities} {P : Event → Prop}

theorem Grows.of_events_eq {d d' : Bool × ω} (hsane : L.Sane caps d')
    (hdeclared : L.declared d.2 = some caps → L.declared d'.2 = some caps)
    (hevents : L.events d'.2 = L.events d.2) : L.Grows caps P d d' :=
  ⟨hsane, hdeclared, [], by rw [hevents, List.append_nil], nofun, fun hne => absurd rfl hne⟩

theorem Grows.trans {d₁ d₂ d₃ : Bool × ω} (h : L.Grows caps P d₁ d₂) (h' : L.Grows caps P d₂ d₃) :
    L.Grows caps P d₁ d₃ := by
  obtain ⟨xs, hxs, hallowed, hdeclared⟩ := h.events
  obtain ⟨ys, hys, hallowed', hdeclared'⟩ := h'.events
  refine ⟨h'.sane, fun hcaps => h'.declared (h.declared hcaps), xs ++ ys, ?_, ?_, fun hne => ?_⟩
  · rw [hys, hxs, List.append_assoc]
  · intro e he
    rcases List.mem_append.mp he with hx | hy
    · exact hallowed e hx
    · exact hallowed' e hy
  · by_cases hnil : ys = []
    · have hfirst : xs ≠ [] := by
        rintro rfl
        exact hne (by rw [hnil]; rfl)
      exact h'.declared (hdeclared hfirst)
    · exact hdeclared' hnil

theorem Grows.mono {Q : Event → Prop} {d d' : Bool × ω} (h : L.Grows caps P d d')
    (himp : ∀ e, P e → Q e) : L.Grows caps Q d d' := by
  obtain ⟨events, hevents, hallowed, hdeclared⟩ := h.events
  exact ⟨h.sane, h.declared, events, hevents, fun e he => himp e (hallowed e he), hdeclared⟩

end Ledger

end Device

open Device (Sink Event Capabilities Ledger keyMax)

variable {σ ω : Type} [Host σ] [Sink ω] {settings : Settings}

/-! ## Runs -/

namespace Machine

/-- A command that is executed in a run names a key by the greatest number. -/
def NamesLastKey (settings : Settings) (launch : Launch) (s₀ : Session σ ω) : Prop :=
  ∃ words activations s line inv, Dispatches settings launch s₀ words activations s ∧
    Invocation.bind words line = .ok inv ∧
    ∃ name ∈ inv.keyNames, Device.readCode? name = some (keyMax : Int)

/-- What a run may write that does not end a frame: what is declared, and the last key if some
command names it. -/
def Writable (settings : Settings) (launch : Launch) (s₀ : Session σ ω) (e : Event) : Prop :=
  (Capabilities.ofProfile settings.device).Declares e ∨
    (∃ pressed, e = .key keyMax pressed) ∧ NamesLastKey settings launch s₀

/-- A run writes what is writable, to a device that was created with the capabilities of its
profile. -/
def ledgerRules (L : Ledger ω) (settings : Settings) (launch : Launch) (s₀ : Session σ ω) :
    Rules σ ω settings where
  crash _ := True
  event e := e.isSync = true ∨ Writable settings launch s₀ e
  device d d' :=
    L.Sane (.ofProfile settings.device) d →
      L.Grows (.ofProfile settings.device) (Writable settings launch s₀) d d'
  endless _ _ _ := trivial
  tap _ _ _ _ _ _ _ := trivial
  sync := .inl rfl
  relative _ haxis value := .inr (.inl (Capabilities.declares_relative _ haxis value))
  absolute _ haxis value := .inr (.inl (Capabilities.declares_absolute _ haxis value))
  refl _ hsane := .of_events_eq hsane id rfl
  trans h h' hsane := (h hsane).trans (h' (h hsane).sane)
  create _ hcreated _ :=
    .of_events_eq (fun _ => (L.created hcreated).1) (fun _ => (L.created hcreated).1)
      (L.created hcreated).2
  refuse _ _ hrefused _ :=
    .of_events_eq nofun (fun hcaps => (L.refused hrefused).1.trans hcaps) (L.refused hrefused).2
  write {e} he w hsane := by
    have hcaps := (L.written e w).1.trans (hsane rfl)
    rcases (L.written e w).2 with hsame | ⟨hsync, hmore⟩
    · exact .of_events_eq (fun _ => hcaps) (fun _ => hcaps) hsame
    · refine ⟨fun _ => hcaps, fun _ => hcaps, [e], hmore, ?_, fun _ => hcaps⟩
      rcases he with hend | hwritable
      · rw [hsync] at hend
        cases hend
      · exact List.forall_mem_singleton.mpr hwritable

variable {launch : Launch} {s₀ : Session σ ω}

theorem ledgerRules_admits (L : Ledger ω)
    (htrait : settings.device.hasTrait libinputTrait = false) {words : List String}
    {activations : List Activation} {s : Session σ ω}
    (hwords : Dispatches settings launch s₀ words activations s) :
    (ledgerRules L settings launch s₀).AdmitsWords words s.environment where
  option _ _ _ _ _ _ _ _ := trivial
  command line inv hbind :=
    { numeral := fun _ _ _ _ => trivial
      process := fun _ _ _ => trivial
      path := fun _ _ _ _ => trivial
      value := fun _ _ _ _ _ => trivial
      key := by
        intro name hname code hcode pressed
        rcases Device.lt_keyMax_of_findKey? hcode with hless | ⟨rfl, hnumber⟩
        · exact .inr (.inl (Capabilities.declares_key htrait hless pressed))
        · exact .inr (.inr ⟨⟨pressed, rfl⟩,
            words, activations, s, line, inv, hwords, hbind, name, hname, hnumber⟩) }

/-- What a run writes is writable, however far it gets. -/
theorem grows_of_run (L : Ledger ω) (htrait : settings.device.hasTrait libinputTrait = false)
    (hsane : L.Sane (.ofProfile settings.device) s₀.device) (fuel : Nat) :
    L.Grows (.ofProfile settings.device) (Writable settings launch s₀) s₀.device
      (launch.run settings fuel s₀).2.device := by
  have hcomplies : Complies (ledgerRules L settings launch s₀) s₀
      (proceed settings fuel (launch.start settings s₀)) :=
    keeps_of_leads (fun _ _ _ hwords => ledgerRules_admits L htrait hwords) ⟨fuel, rfl⟩
  rw [Launch.run_eq, Conf.answer_session]
  exact hcomplies.device hsane

end Machine

/-- **What is emitted is declared.**  Let a runner have a device profile that accommodates no
consumer.  Whatever it runs, on whatever sink, each event that the run writes and that does not end a
frame has a code that is declared in the capabilities that the device was created with: a key, a
relative axis or an absolute one.  The one exception is the key of the greatest code, and only if a
command that was executed names it by number.

If the device is there already, it must have been created with the capabilities of the profile; so it
was if the runner created it, since the run leaves it so. -/
theorem emitted_events_are_declared (L : Ledger ω) (task : Task) (fuel : Nat) (r : Runner σ ω)
    (htrait : r.settings.device.hasTrait libinputTrait = false)
    (hdevice : r.session.isOpen = true →
      L.declared r.session.sink = some (.ofProfile r.settings.device)) :
    ((task.run fuel r).2.session.isOpen = true →
      L.declared (task.run fuel r).2.session.sink = some (.ofProfile r.settings.device)) ∧
    ∃ events,
      L.events (task.run fuel r).2.session.sink = L.events r.session.sink ++ events ∧
      (events ≠ [] →
        L.declared (task.run fuel r).2.session.sink = some (.ofProfile r.settings.device)) ∧
      ∀ e ∈ events, (Capabilities.ofProfile r.settings.device).Declares e ∨
        (∃ pressed, e = .key keyMax pressed) ∧
          ∃ launch, task.Launches r.session launch ∧
            Machine.NamesLastKey r.settings launch r.session := by
  have hsession : (task.run fuel r).2.session.device =
      (task.outcome r.settings fuel r.session).2.device := by
    rw [Task.run_eq]
    rcases task.outcome r.settings fuel r.session with ⟨_ | _ | _, s⟩ <;> rfl
  have hgrows : Ledger.Grows L (.ofProfile r.settings.device) (fun e =>
      (Capabilities.ofProfile r.settings.device).Declares e ∨ (∃ pressed, e = .key keyMax pressed) ∧
        ∃ launch, task.Launches r.session launch ∧
          Machine.NamesLastKey r.settings launch r.session)
      r.session.device (task.run fuel r).2.session.device := by
    rw [hsession]
    rcases task.outcome_cases r.settings fuel r.session with
      ⟨launch, hlaunch, hrun⟩ | ⟨f, hfailed⟩ | ⟨file, name, rfl, hnul, hcrash⟩
    · rw [hrun]
      refine (Machine.grows_of_run L htrait hdevice fuel).mono fun e he => ?_
      exact he.imp_right (And.imp_right fun hnames => ⟨launch, hlaunch, hnames⟩)
    · rw [hfailed]
      exact .of_events_eq hdevice id rfl
    · rw [hcrash]
      exact .of_events_eq hdevice id rfl
  obtain ⟨events, hevents, hdeclared, hcreated⟩ := hgrows.events
  exact ⟨hgrows.sane, events, hevents, hcreated, hdeclared⟩

/-- A runner whose device accommodates no consumer and is not there yet. -/
def plainRunner : Runner Sandbox Device.Recorder :=
  { settings := { device := { traits := [] } }, session := Machine.idle }

/-- The last key is pressed on a device that does not declare it. -/
theorem last_key_is_not_declared :
    ((Task.command ["keydown", "767"]).run 1 plainRunner).1 = .success ∧
      ((Task.command ["keydown", "767"]).run 1 plainRunner).2.session.sink.events =
        [.key 767 true, .sync] ∧
      Device.Recorder.ledger.declared
        ((Task.command ["keydown", "767"]).run 1 plainRunner).2.session.sink =
          some (.ofProfile plainRunner.settings.device) ∧
      ¬ (Capabilities.ofProfile plainRunner.settings.device).Declares (.key 767 true) := by
  decide +kernel

/-- A wheel is turned in both units, a key and an axis share a frame, and the last key is released. -/
def turnAndPress : Task :=
  .lines [.text "wheel 2\n", .text "input KEYDOWN=KEY_A ABS_X=50\n", .text "keyup 767\n"] none

theorem emitted_events_are_declared_turnAndPress :
    plainRunner.settings.device.hasTrait libinputTrait = false ∧ plainRunner.session.isOpen = false ∧
      ∀ e ∈ [.relative 8 2, .relative 11 240, .key 30 true, .absolute 0 500000, .key 767 false],
        (Capabilities.ofProfile plainRunner.settings.device).Declares e ∨
          (∃ pressed, e = .key keyMax pressed) ∧
            ∃ launch, turnAndPress.Launches plainRunner.session launch ∧
              Machine.NamesLastKey plainRunner.settings launch plainRunner.session := by
  refine ⟨rfl, rfl, ?_⟩
  obtain ⟨-, events, hevents, -, hdeclared⟩ := emitted_events_are_declared Device.Recorder.ledger
    turnAndPress 10 plainRunner rfl nofun
  have hwritten : Device.Recorder.ledger.events (turnAndPress.run 10 plainRunner).2.session.sink =
      [.relative 8 2, .relative 11 240, .key 30 true, .absolute 0 500000, .key 767 false] := by
    decide +kernel
  rw [hwritten] at hevents
  have hall : events =
      [.relative 8 2, .relative 11 240, .key 30 true, .absolute 0 500000, .key 767 false] :=
    hevents.symm
  rw [hall] at hdeclared
  exact hdeclared

end InputScript
