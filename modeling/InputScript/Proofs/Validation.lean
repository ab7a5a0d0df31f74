import InputScript.Proofs.Commands
import InputScript.Proofs.Transition

/-!
# Device verbs check before they write

A device verb reads all its arguments before it touches the device, so that a fault leaves the device
as it was.  The primitives check values once more.  For most verbs this second check never fails:
what the first let through passes the second as well.  The exception is a wheel, whose motion is
also reported in fine units: a delta that fits its axis may be too large in fine units, and this
is found out when the motion is emitted.  A packet has then emitted the items before it.

Sinks may fail on their own; here they do not.  `Unfailing` says so of a set of states of the sink,
so that it applies to a sink that fails in other states.

## Main results

* `Device.emitItems_fault` — a packet that fails has written the items before the one that is refused.
* `device_verb_fault` — what a device verb that fails has written, and when this is nothing.
-/

namespace InputScript

open Device (Sink)

variable {σ ω : Type}

/-- The device of a session: whether it exists, and its sink. -/
def Session.device (s : Session σ ω) : Bool × ω := (s.isOpen, s.sink)

/-- Whether a verb writes to the device. -/
def Verb.isDevice : Verb → Bool
  | .packet | .keyDown | .keyUp | .key | .move | .wheel | .position => true
  | _ => false

theorem Verb.not_isControl_of_isDevice {verb : Verb} (h : verb.isDevice = true) :
    verb.isControl = false := by
  cases verb <;> first | rfl | cases h

namespace Device

variable [Sink ω]

/-! ## Sinks that do not fail -/

/-- A set of devices on which nothing fails. -/
structure Unfailing (P : Bool → ω → Prop) : Prop where
  create : ∀ {w}, P false w → ∀ caps identity,
    (Sink.create caps identity w).result = .ok () ∧ P true (Sink.create caps identity w).sink
  write : ∀ {w}, P true w → ∀ e,
    (Sink.write e w).result = .ok () ∧ P true (Sink.write e w).sink

/-- A recorder without planned faults does not fail. -/
theorem Recorder.unfailing : Unfailing fun _ (r : Recorder) => r.faults = {} where
  create {w} hw caps identity := by
    have hnone : w.faults.refusedCreations = 0 := by rw [hw]
    simp only [Sink.create, Recorder.create, hnone]
    exact ⟨trivial, hw⟩
  write {w} hw e := by
    have hroom : w.isFull = false := by rw [Recorder.isFull, hw]
    simp only [Sink.write, Recorder.write, hroom, Bool.false_eq_true, if_false]
    exact ⟨trivial, hw⟩

/-- The sink after events were written. -/
def writeAll (events : List Event) (w : ω) : ω :=
  events.foldl (fun w e => (Sink.write e w).sink) w

/-- The sink of a device that exists, or that is made. -/
def opened (p : Profile) (d : Bool × ω) : ω :=
  if d.1 then d.2 else (Sink.create (.ofProfile p) (.ofProfile p) d.2).sink

/-- The device after events were written to it; it is made for the first event if it does not
exist. -/
def store (p : Profile) (events : List Event) (d : Bool × ω) : Bool × ω :=
  match events with
  | [] => d
  | _ :: _ => (true, writeAll events (opened p d))

theorem store_append (p : Profile) (xs ys : List Event) (d : Bool × ω) :
    store p (xs ++ ys) d = store p ys (store p xs d) := by
  cases xs with
  | nil => rfl
  | cons x xs =>
      cases ys with
      | nil => rw [List.append_nil]; rfl
      | cons y ys =>
          have hwrites : writeAll (x :: xs ++ y :: ys) (opened p d) =
              writeAll (y :: ys) (writeAll (x :: xs) (opened p d)) := List.foldl_append
          exact congrArg (Prod.mk true) hwrites

/-! ## Actions on the device -/

section Actions

variable {P : Bool → ω → Prop} {α β : Type}

/-- The action has no fault, and if it answers, the session it leaves is one of `Q`. -/
def Ensures (act : Act σ ω α) (s : Session σ ω) (Q : Session σ ω → Prop) : Prop :=
  match act.exec s with
  | (.ok _, s') => Q s'
  | (.error (.fault _), _) => False
  | (.error (.crash _), _) => True

/-- The action has no fault, and if it answers, events were written. -/
def Writes (P : Bool → ω → Prop) (p : Profile) (events : List Event) (act : Act σ ω α) : Prop :=
  ∀ s, P s.isOpen s.sink → Ensures act s fun s' =>
    s'.device = store p events s.device ∧ P s'.isOpen s'.sink

/-- The action has no fault. -/
def Faultless (P : Bool → ω → Prop) (act : Act σ ω α) : Prop :=
  ∀ s, P s.isOpen s.sink → Ensures act s fun s' => P s'.isOpen s'.sink

/-- A fault of the action leaves the device as it was. -/
def Atomic (P : Bool → ω → Prop) (act : Act σ ω α) : Prop :=
  ∀ s f s', P s.isOpen s.sink → act.exec s = (.error (.fault f), s') → s'.device = s.device

variable {s' : Session σ ω} {next : α → Act σ ω β}

section Ensures

omit [Sink ω]

variable {act : Act σ ω α} {s : Session σ ω} {Q R : Session σ ω → Prop}

/-- Only what an action does counts. -/
theorem Ensures.congr {act' : Act σ ω α} {t : Session σ ω} (heq : act.exec s = act'.exec t)
    (h : Ensures act' t Q) : Ensures act s Q := by
  unfold Ensures at h ⊢
  rw [heq]
  exact h

theorem Ensures.of_ok {a : α} (h : act.exec s = (.ok a, s')) (hq : Q s') :
    Ensures act s Q := by
  unfold Ensures
  rw [h]
  exact hq

theorem Ensures.bind (h : Ensures act s Q) (hnext : ∀ a s', Q s' → Ensures (next a) s' R) :
    Ensures (act >>= next) s R := by
  unfold Ensures at h ⊢
  rw [Act.exec_bind]
  rcases hexec : act.exec s with ⟨(f | c) | a, s'⟩
  · rw [hexec] at h
    exact h
  · trivial
  · rw [hexec] at h
    exact hnext a s' h

theorem Ensures.mono (h : Ensures act s Q) (himp : ∀ s', Q s' → R s') : Ensures act s R := by
  unfold Ensures at h ⊢
  rcases hexec : act.exec s with ⟨(f | c) | a, s'⟩
  · rw [hexec] at h
    exact h
  · trivial
  · rw [hexec] at h
    exact himp s' h

theorem Ensures.of_exec (h : Ensures act s Q) {a : α} (hexec : act.exec s = (.ok a, s')) :
    Q s' := by
  unfold Ensures at h
  rw [hexec] at h
  exact h

theorem Ensures.no_fault (h : Ensures act s Q) {f : Failure}
    (hexec : act.exec s = (.error (.fault f), s')) : False := by
  unfold Ensures at h
  rw [hexec] at h
  exact h

theorem Faultless.bind (h : Faultless P act) (hnext : ∀ a, Faultless P (next a)) :
    Faultless P (act >>= next) :=
  fun s hs => (h s hs).bind fun a s' hs' => hnext a s' hs'

theorem Faultless.pure (a : α) : Faultless P (Pure.pure a : Act σ ω α) :=
  fun _ hs => .of_ok rfl hs

end Ensures

variable {act : Act σ ω α}

theorem Writes.faultless {p : Profile} {events : List Event} (h : Writes P p events act) :
    Faultless P act :=
  fun s hs => (h s hs).mono fun _ hs' => hs'.2

omit [Sink ω] in
theorem Faultless.atomic (h : Faultless P act) : Atomic P act := by
  intro s f s' hs hexec
  exact ((h s hs).no_fault hexec).elim

omit [Sink ω] in
/-- What comes before may fail as long as it leaves the device alone. -/
theorem Atomic.bind (hact : act.Preserves Session.device)
    (hnext : ∀ a s s', act.exec s = (.ok a, s') → Atomic P (next a)) :
    Atomic P (act >>= next) := by
  intro s f s' hs hexec
  rcases Act.exec_bind_eq_error.mp hexec with hfault | ⟨a, s₁, hok, hrest⟩
  · exact hact.of_eq hfault
  · have hdevice := hact.of_eq hok
    have hs₁ : P s₁.isOpen s₁.sink := by
      obtain ⟨hopen, hsink⟩ := Prod.mk.inj hdevice
      rw [hopen, hsink]
      exact hs
    exact (hnext a s s₁ hok s₁ f s' hs₁ hrest).trans hdevice

variable [Host σ] {s : Session σ ω}

omit [Sink ω] in
theorem ensures_wait (delay : Binary64) {Q : Session σ ω → Prop} (hq : ∀ host, Q { s with host }) :
    Ensures (Act.wait delay) s Q := by
  unfold Ensures
  rw [Act.exec_wait]
  cases (waitFor delay s.host).1 with
  | true => exact hq _
  | false => trivial

/-- Opening a device that does not fail. -/
theorem ensures_openDevice (hP : Unfailing P) (p : Profile) (hs : P s.isOpen s.sink) :
    Ensures (openDevice p) s fun s' =>
      s'.isOpen = true ∧ s'.sink = opened p s.device ∧ P true s'.sink := by
  refine .congr (Act.exec_bind_of_ok (Act.exec_get s)) ?_
  cases hopen : s.isOpen with
  | true =>
      rw [hopen] at hs
      refine .of_ok (Act.exec_pure _ _) ⟨hopen, ?_, hs⟩
      simp [opened, Session.device, hopen]
  | false =>
      rw [hopen] at hs
      obtain ⟨hresult, hkept⟩ := hP.create hs (.ofProfile p) (.ofProfile p)
      have hopened : (Sink.create (.ofProfile p) (.ofProfile p) s.sink).sink =
          opened p s.device := by
        simp [opened, Session.device, hopen]
      have hcall : (callSink (Sink.create (.ofProfile p) (.ofProfile p)) : Act σ ω _).exec s =
          (.ok (.ok ()),
            { s with
              sink := (Sink.create (.ofProfile p) (.ofProfile p) s.sink).sink
              journal := (Sink.create (.ofProfile p) (.ofProfile p) s.sink).notes.reverse ++
                s.journal }) := by
        rw [← hresult]
        rfl
      refine .congr (Act.exec_bind_of_ok hcall) ?_
      refine .congr (Act.exec_bind_of_ok (Act.exec_modify _ _)) ?_
      refine .congr (Act.exec_bind_of_ok (Act.exec_get _)) ?_
      refine .congr (Act.exec_bind_of_ok (Act.exec_note _ _)) ?_
      refine .congr (Act.exec_bind_of_ok (Act.exec_note _ _)) ?_
      exact ensures_wait _ fun _ => ⟨rfl, hopened, hkept⟩

omit [Host σ] in
/-- Writing to a device that exists. -/
theorem exec_emitAll (hP : Unfailing P) (events : List Event) (hopen : s.isOpen = true)
    (hs : P true s.sink) :
    ∃ s', (emitAll events).exec s = (.ok (), s') ∧ s'.isOpen = true ∧
      s'.sink = writeAll events s.sink ∧ P true s'.sink := by
  induction events generalizing s with
  | nil => exact ⟨s, rfl, hopen, rfl, hs⟩
  | cons e events ih =>
      obtain ⟨hresult, hkept⟩ := hP.write hs e
      have hemit : ∃ s₁, (emit e : Act σ ω Unit).exec s = (.ok (), s₁) ∧ s₁.isOpen = s.isOpen ∧
          s₁.sink = (Sink.write e s.sink).sink := by
        unfold emit
        rw [Act.exec_bind_of_ok (Act.exec_note _ _)]
        rw [Act.exec_bind, callSink]
        simp only [Act.exec_bind, Act.exec_get, Act.exec_set, Act.exec_pure, hresult]
        exact ⟨_, rfl, rfl, rfl⟩
      obtain ⟨s₁, hexec, hopen₁, hsink₁⟩ := hemit
      rw [emitAll, Act.exec_bind_of_ok hexec]
      obtain ⟨s', hrest, hopen', hsink', hkept'⟩ :=
        ih (hopen₁.trans hopen) (by rw [hsink₁]; exact hkept)
      refine ⟨s', hrest, hopen', ?_, hkept'⟩
      rw [hsink', hsink₁]
      rfl

/-- The primitives write what they are given. -/
theorem writes_deliver (hP : Unfailing P) (p : Profile) {events : List Event}
    (hevents : events ≠ []) : Writes P p events (deliver p events : Act σ ω Unit) := by
  intro s hs
  refine (ensures_openDevice hP p hs).bind fun _ s₁ ⟨hopen, hsink, hkept⟩ => ?_
  obtain ⟨s', hwritten, hopen', hsink', hkept'⟩ := exec_emitAll hP events hopen hkept
  refine .of_ok hwritten ⟨?_, hopen' ▸ hkept'⟩
  rw [Session.device, hopen', hsink', hsink]
  cases events with
  | nil => exact absurd rfl hevents
  | cons e events => rfl

/-! ## Verbs that write nothing but what was checked -/

omit [Sink ω] in
theorem Faultless.wait (delay : Binary64) : Faultless P (Act.wait delay : Act σ ω Unit) :=
  fun _ hs => ensures_wait delay fun _ => hs

omit [Sink ω] [Host σ] in
theorem Faultless.note (n : Note) : Faultless P (Act.note n : Act σ ω Unit) :=
  fun _ hs => .of_ok (Act.exec_note _ _) hs

theorem faultless_sync (hP : Unfailing P) (p : Profile) :
    Faultless P (sync p : Act σ ω Unit) :=
  (writes_deliver hP p (List.cons_ne_nil _ _)).faultless

theorem faultless_keys (hP : Unfailing P) (p : Profile) (pressed : Bool) (codes : List Int) :
    Faultless P (keys p pressed codes : Act σ ω Unit) := by
  induction codes with
  | nil => exact .pure _
  | cons code codes ih =>
      exact (writes_deliver hP p (List.cons_ne_nil _ _)).faultless.bind fun _ => ih

theorem faultless_tapCycles (hP : Unfailing P) (p : Profile) (codes : List Int)
    (delay : Binary64) (n : Nat) : Faultless P (tapCycles p codes delay n : Act σ ω Unit) := by
  induction n with
  | zero => exact .pure _
  | succ n ih =>
      exact (faultless_keys hP p true codes).bind fun _ =>
        (faultless_keys hP p false codes.reverse).bind fun _ => (Faultless.wait delay).bind fun _ => ih

theorem faultless_tap (hP : Unfailing P) (c : Controls) (codes : List Int) (count : Option Int)
    (runTime delay : Option Binary64) :
    Faultless P (tap c codes count runTime delay : Act σ ω Nat) := by
  unfold tap
  dsimp only
  split
  · exact fun _ _ => trivial
  · exact (Faultless.note _).bind fun _ => (faultless_tapCycles hP _ _ _ _).bind fun _ => .pure _

/-! ## Packets -/

/-- The events of one part of a packet. -/
def Item.events (verb : String) : Item → Except (Trouble Fault) (List Event)
  | .keyDown code => .ok [.key code true]
  | .keyUp code => .ok [.key code false]
  | .relative axis delta => (relativeEvents axis delta (some verb)).mapError .fault
  | .absolute axis percent =>
    ((scaleAbsolute percent (some verb)).mapError .fault).map fun value => [.absolute axis value]
  | .sync => .ok [.sync]
  | .unknown => .error (.crash .unknownItem)

/-- The part of a packet can be written. -/
def Item.Accepted (verb : String) (item : Item) : Prop :=
  ∃ events, item.events verb = .ok events

/-- The events of the items of a packet before the first that is refused. -/
def accepted (verb : String) : List Item → List Event
  | [] => []
  | item :: items =>
    match item.events verb with
    | .ok events => events ++ accepted verb items
    | .error _ => []

theorem emitItem_eq (p : Profile) (verb : String) (item : Item) :
    (emitItem p verb item : Act σ ω Unit) = Act.lift id (item.events verb) >>= deliver p := by
  cases item with
  | relative axis delta =>
      rw [emitItem, relative, Item.events]
      cases relativeEvents axis delta (some verb) <;> rfl
  | absolute axis percent =>
      rw [emitItem, absolute, Item.events]
      cases scaleAbsolute percent (some verb) <;> rfl
  | keyDown code => rfl
  | keyUp code => rfl
  | sync => rfl
  | unknown => rfl

theorem relativeValues_ne_nil (axis : Int) (delta : Binary64) : relativeValues axis delta ≠ [] := by
  unfold relativeValues
  split <;> exact List.cons_ne_nil _ _

variable {verb : String} {item : Item} {events : List Event}

/-- An item has events, unless it is refused. -/
theorem Item.events_ne_nil (h : item.events verb = .ok events) :
    events ≠ [] := by
  rintro rfl
  cases item with
  | relative axis delta =>
      rw [Item.events, relativeEvents] at h
      dsimp only at h
      split at h
      · exact relativeValues_ne_nil axis delta (List.map_eq_nil_iff.mp (Except.ok.inj h))
      · cases h
  | absolute axis percent =>
      rw [Item.events] at h
      cases hscale : scaleAbsolute percent (some verb) with
      | error e =>
          rw [hscale] at h
          cases h
      | ok value =>
          rw [hscale] at h
          cases h
  | keyDown code => cases h
  | keyUp code => cases h
  | sync => cases h
  | unknown => cases h

theorem writes_emitItem (hP : Unfailing P) (p : Profile)
    (h : item.events verb = .ok events) :
    Writes P p events (emitItem p verb item : Act σ ω Unit) := by
  rw [emitItem_eq, h]
  exact writes_deliver hP p (Item.events_ne_nil h)

variable {items : List Item}

/-- A packet of items that are not refused is written. -/
theorem writes_emitItems (hP : Unfailing P) (p : Profile) (h : ∀ item ∈ items, item.Accepted verb) :
    Writes P p (accepted verb items) (emitItems p verb items : Act σ ω Unit) := by
  induction items with
  | nil => exact fun _ hs => .of_ok rfl ⟨rfl, hs⟩
  | cons item items ih =>
      obtain ⟨⟨events, hevents⟩, hrest⟩ := List.forall_mem_cons.mp h
      intro s hs
      rw [accepted, hevents]
      refine (writes_emitItem hP p hevents s hs).bind fun _ s₁ ⟨hdevice, hs₁⟩ => ?_
      refine (ih hrest s₁ hs₁).mono fun s₂ ⟨hdevice₂, hs₂⟩ => ⟨?_, hs₂⟩
      rw [hdevice₂, hdevice, ← store_append]

/-- A packet that starts with an item that can be written writes something. -/
theorem accepted_ne_nil (h : item.Accepted verb) (items : List Item) :
    accepted verb (item :: items) ≠ [] := by
  obtain ⟨events, hevents⟩ := h
  rw [accepted, hevents]
  exact List.append_ne_nil_of_left_ne_nil (Item.events_ne_nil hevents) _

/-- A packet that answers has no item that is refused. -/
theorem accepted_of_emitItems {p : Profile} (h : (emitItems p verb items).exec s = (.ok (), s')) :
    ∀ item ∈ items, item.Accepted verb := by
  induction items generalizing s with
  | nil => exact fun _ h => (nomatch h)
  | cons item items ih =>
      rw [emitItems, emitItem_eq] at h
      obtain ⟨⟨⟩, s₁, hitem, hrest⟩ := Act.exec_bind_eq_ok.mp h
      obtain ⟨events, s₂, hevents, -⟩ := Act.exec_bind_eq_ok.mp hitem
      exact List.forall_mem_cons.mpr ⟨⟨events, (Act.exec_lift_eq_ok hevents).1⟩, ih hrest⟩

/-- A packet that fails has written the items before the one that is refused. -/
theorem emitItems_fault (hP : Unfailing P) (p : Profile) {f : Failure} (hs : P s.isOpen s.sink)
    (h : (emitItems p verb items).exec s = (.error (.fault f), s')) :
    s'.device = store p (accepted verb items) s.device ∧
      ∃ before item after fault, items = before ++ item :: after ∧
        (∀ item ∈ before, item.Accepted verb) ∧
        item.events verb = .error (.fault fault) := by
  induction items generalizing s with
  | nil => cases h
  | cons item items ih =>
      cases hevents : item.events verb with
      | error e =>
          have hrefused : (emitItem p verb item : Act σ ω Unit) = Act.lift id (.error e) >>=
              deliver p := by
            rw [emitItem_eq, hevents]
          rw [emitItems, hrefused] at h
          cases e with
          | fault fault =>
              cases h
              rw [accepted, hevents]
              exact ⟨rfl, [], item, items, fault, rfl, fun _ h => (nomatch h), hevents⟩
          | crash c => cases h
      | ok events =>
          have hitem := writes_emitItem hP p hevents s hs
          rw [emitItems] at h
          rcases Act.exec_bind_eq_error.mp h with hfault | ⟨⟨⟩, s₁, hok, hrest⟩
          · exact (hitem.no_fault hfault).elim
          · obtain ⟨hdevice, hs₁⟩ := hitem.of_exec hok
            obtain ⟨hdevice', before, refused, after, fault, rfl, hbefore, hrefused⟩ := ih hs₁ hrest
            rw [accepted, hevents, hdevice', hdevice, ← store_append]
            exact ⟨rfl, item :: before, refused, after, fault, rfl,
              List.forall_mem_cons.mpr ⟨⟨events, hevents⟩, hbefore⟩, hrefused⟩

end Actions

/-! ## Values that were checked -/

/-- A delta that fits its axis, but not in the fine units in which the axis is reported as well. -/
def TooFine (axis : Int) (delta : Binary64) : Prop :=
  (companion? axis).isSome = true ∧ Argument.fitsInt32 delta = true ∧
    Argument.fitsInt32 (delta * .ofNat fineUnits) = false

theorem events_of_tooFine {axis : Int} {delta : Binary64} (h : TooFine axis delta)
    (verb : String) :
    (Item.relative axis delta).events verb = .error (.fault (.axisRange (some verb) delta)) := by
  obtain ⟨hcompanion, -, htoo⟩ := h
  obtain ⟨fine, hfine⟩ := Option.isSome_iff_exists.mp hcompanion
  rw [Item.events, relativeEvents, relativeValues, hfine]
  simp only [List.all_cons, htoo, Bool.false_and, Bool.and_false, Bool.false_eq_true, if_false]
  rfl

/-- A delta that fits its axis is refused for its fine units only. -/
theorem accepted_relative {axis : Int} {delta : Binary64}
    (hfits : Argument.fitsInt32 delta = true) (h : ¬ TooFine axis delta) (verb : String) :
    (Item.relative axis delta).Accepted verb := by
  rw [Item.Accepted, Item.events, relativeEvents, relativeValues]
  cases hfine : companion? axis with
  | none =>
      simp only [List.all_cons, hfits, List.all_nil, Bool.and_self, if_true]
      exact ⟨_, rfl⟩
  | some fine =>
      have hfits' : Argument.fitsInt32 (delta * .ofNat fineUnits) = true := by
        refine Decidable.byContradiction fun htoo => h ⟨?_, hfits, eq_false_of_ne_true htoo⟩
        rw [hfine]
        rfl
      simp only [List.all_cons, hfits, hfits', List.all_nil, Bool.and_self, if_true]
      exact ⟨_, rfl⟩

theorem events_absolute {percent : Binary64} (h : Argument.isPercent percent = true) (axis : Int)
    (verb : String) : (Item.absolute axis percent).Accepted verb := by
  rw [Item.Accepted, Item.events, scaleAbsolute, if_pos h]
  exact ⟨_, rfl⟩

end Device

theorem Argument.fits_of_relative {text : String} {verb : Option String} {x : Binary64}
    (h : relative text verb = .ok x) : fitsInt32 x = true := by
  unfold relative at h
  cases hnumber : number text verb with
  | error e =>
      rw [hnumber] at h
      cases h
  | ok y =>
      rw [hnumber] at h
      dsimp only [bind, Except.bind] at h
      split at h
      · next hfits =>
          cases h
          exact hfits
      · cases h

theorem Argument.isPercent_of_absolute {text : String} {verb : Option String} {x : Binary64}
    (h : absolute text verb = .ok x) : isPercent x = true := by
  unfold absolute at h
  cases hnumber : number text verb with
  | error e =>
      rw [hnumber] at h
      cases h
  | ok y =>
      rw [hnumber] at h
      dsimp only [bind, Except.bind] at h
      split at h
      · next hpercent =>
          cases h
          exact hpercent
      · cases h

namespace Machine

open Device (Item TooFine Unfailing Atomic Faultless)

theorem mem_of_readAll {ε α : Type} {read : String → Except ε α} {args : List String} {as : List α}
    (h : readAll read args = .ok as) : ∀ a ∈ as, ∃ arg ∈ args, read arg = .ok a := by
  induction args generalizing as with
  | nil =>
      cases h
      exact fun _ h => (nomatch h)
  | cons arg args ih =>
      rw [readAll] at h
      split at h
      · cases h
      · next a hread =>
          split at h
          · cases h
          · next rest hrest =>
              cases h
              refine List.forall_mem_cons.mpr ⟨⟨arg, List.mem_cons_self, hread⟩, fun b hb => ?_⟩
              obtain ⟨later, hlater, hb⟩ := ih hrest b hb
              exact ⟨later, List.mem_cons_of_mem arg hlater, hb⟩

/-- How an item of a packet was read. -/
inductive ReadAs (verb text : String) : Item → Prop
  | sync : ReadAs verb text .sync
  | key {name value : String} {code : Nat} {item : Item}
      (htext : splitAssignment text = (name, some value))
      (hname : Text.upper name = "KEYDOWN" ∨ Text.upper name = "KEYUP")
      (hcode : Device.findKey value (some verb) = .ok code)
      (hitem : item = .keyDown code ∨ item = .keyUp code) : ReadAs verb text item
  | absolute {name value : String} {axis : Device.Axis} {percent : Binary64}
      (haxis : Device.findAxis name (some verb) = .ok axis) (habsolute : axis.absolute = true)
      (hpercent : Argument.absolute value (some verb) = .ok percent) :
      ReadAs verb text (.absolute axis.code percent)
  | relative {name value : String} {axis : Device.Axis} {delta : Binary64}
      (haxis : Device.findAxis name (some verb) = .ok axis) (hrelative : axis.absolute = false)
      (hdelta : Argument.relative value (some verb) = .ok delta) :
      ReadAs verb text (.relative axis.code delta)

theorem readAs_of_readItem {verb text : String} {item : Item} (h : readItem verb text = .ok item) :
    ReadAs verb text item := by
  rcases htext : splitAssignment text with ⟨name, value?⟩
  simp only [readItem, htext] at h
  split at h
  · cases h
    exact .sync
  · split at h
    · cases h
    · split at h
      · next hname =>
          simp only [Bool.or_eq_true, beq_iff_eq] at hname
          split at h
          · cases h
          · next hcode =>
              split at h <;> cases h
              · exact .key htext hname hcode (.inl rfl)
              · exact .key htext hname hcode (.inr rfl)
      · split at h
        · cases h
        · next haxis =>
            split at h
            · next habsolute =>
                split at h
                · cases h
                · next hpercent =>
                    cases h
                    exact .absolute haxis habsolute hpercent
            · next hrelative =>
                split at h
                · cases h
                · next hdelta =>
                    cases h
                    exact .relative haxis (eq_false_of_ne_true hrelative) hdelta

/-- An item that was read is refused for the fine units of a wheel only. -/
theorem events_of_readItem {verb text : String} {item : Item} (h : readItem verb text = .ok item) :
    item.Accepted verb ∨ ∃ axis delta, item = .relative axis delta ∧ TooFine axis delta := by
  cases readAs_of_readItem h with
  | sync => exact .inl ⟨_, rfl⟩
  | key _ _ _ hitem => rcases hitem with rfl | rfl <;> exact .inl ⟨_, rfl⟩
  | absolute _ _ hpercent =>
      exact .inl (Device.events_absolute (Argument.isPercent_of_absolute hpercent) _ _)
  | @relative _ _ axis delta _ _ hdelta =>
      by_cases htoo : TooFine axis.code delta
      · exact .inr ⟨_, _, rfl, htoo⟩
      · exact .inl (Device.accepted_relative (Argument.fits_of_relative hdelta) htoo _)

/-! ## Device verbs -/

section Verbs

variable [Host σ] [Sink ω] {P : Bool → ω → Prop} {settings : Settings} {inv : Invocation}

/-- A motion of axes is a packet. -/
theorem moveAxes_eq (p : Profile) (verb : String) (axes : List (Nat × Binary64)) :
    (Device.moveAxes p verb axes : Act σ ω Unit) =
      Device.emitItems p verb (axes.map fun axis => .relative axis.1 axis.2) := by
  induction axes with
  | nil => rfl
  | cons axis axes ih => rw [Device.moveAxes, ih]; rfl

/-- A placement of axes is a packet. -/
theorem placeAxes_eq (p : Profile) (verb : String) (axes : List (Nat × Binary64)) :
    (Device.placeAxes p verb axes : Act σ ω Unit) =
      Device.emitItems p verb (axes.map fun axis => .absolute axis.1 axis.2) := by
  induction axes with
  | nil => rfl
  | cons axis axes ih => rw [Device.placeAxes, ih]; rfl

/-- The main axes have no fine units. -/
theorem companion?_mainAxes {alternate : Bool} {axis : Nat}
    (h : axis ∈ Device.mainAxes alternate) : Device.companion? (axis : Int) = none := by
  have hnone : ∀ axis ∈ Device.mainAxes alternate, Device.fineAxis? axis = none := by
    cases alternate <;> decide
  exact hnone axis h

theorem faultless_move (hP : Unfailing P) (p : Profile) {deltas : List Binary64}
    (hfits : ∀ delta ∈ deltas, Argument.fitsInt32 delta = true) (alternate : Bool)
    (verb : String) : Faultless P (Device.move p deltas alternate verb : Act σ ω Unit) := by
  rw [Device.move, moveAxes_eq]
  refine (Device.writes_emitItems hP p ?_).faultless.bind fun _ => Device.faultless_sync hP p
  rintro item hitem
  obtain ⟨⟨axis, delta⟩, haxis, rfl⟩ := List.mem_map.mp hitem
  obtain ⟨hmain, hdelta⟩ := List.of_mem_zip haxis
  refine Device.accepted_relative (hfits delta hdelta) (fun ⟨hfine, _⟩ => ?_) verb
  rw [companion?_mainAxes hmain] at hfine
  cases hfine

theorem faultless_position (hP : Unfailing P) (p : Profile) {percents : List Binary64}
    (hpercents : ∀ percent ∈ percents, Argument.isPercent percent = true) (alternate : Bool)
    (verb : String) : Faultless P (Device.position p percents alternate verb : Act σ ω Unit) := by
  rw [Device.position, placeAxes_eq]
  refine (Device.writes_emitItems hP p ?_).faultless.bind fun _ => Device.faultless_sync hP p
  rintro item hitem
  obtain ⟨⟨axis, percent⟩, haxis, rfl⟩ := List.mem_map.mp hitem
  exact Device.events_absolute (hpercents percent (List.of_mem_zip haxis).2) axis verb

/-- A wheel alone is refused before it is turned. -/
theorem atomic_wheel (hP : Unfailing P) (p : Profile) (delta : Binary64) (horizontal : Bool)
    (verb : String) : Atomic P (Device.wheel p delta horizontal verb : Act σ ω Unit) := by
  refine Atomic.bind (.ofExcept _ _) fun events _ _ _ => Faultless.atomic ?_
  exact (Device.writes_deliver hP p (List.append_ne_nil_of_right_ne_nil _
    (List.cons_ne_nil _ _))).faultless

theorem atomic_simple (hP : Unfailing P) (hdevice : inv.verb.isDevice = true)
    (hpacket : inv.verb ≠ .packet) : Atomic P (simple settings inv : Act σ ω Unit) := by
  unfold simple
  split
  · next hverb => rw [hverb] at hdevice; cases hdevice
  · next hverb => exact absurd hverb hpacket
  · exact .bind (.ofExcept _ _) fun _ _ _ _ => (Device.faultless_keys hP _ _ _).atomic
  · exact .bind (.ofExcept _ _) fun _ _ _ _ => (Device.faultless_keys hP _ _ _).atomic
  · exact .bind (.ofExcept _ _) fun _ _ _ _ => .bind (.lift _ _) fun _ _ _ _ =>
      .bind (.lift _ _) fun _ _ _ _ => .bind (.ofExcept _ _) fun _ _ _ _ =>
        ((Device.faultless_tap hP _ _ _ _ _).bind fun _ => .pure _).atomic
  · refine .bind (.lift _ _) fun deltas s s' hread => (faultless_move hP _ ?_ _ _).atomic
    intro delta hdelta
    obtain ⟨arg, -, harg⟩ := mem_of_readAll (Act.exec_lift_eq_ok hread).1 delta hdelta
    exact Argument.fits_of_relative harg
  · exact .bind (.lift _ _) fun _ _ _ _ => atomic_wheel hP _ _ _ _
  · refine .bind (.lift _ _) fun percents s s' hread => (faultless_position hP _ ?_ _ _).atomic
    intro percent hpercent
    obtain ⟨arg, -, harg⟩ := mem_of_readAll (Act.exec_lift_eq_ok hread).1 percent hpercent
    exact Argument.isPercent_of_absolute harg
  · next hverb _ => rw [hverb] at hdevice; cases hdevice
  · next hverb _ => rw [hverb] at hdevice; cases hdevice
  · next hverb => rw [hverb] at hdevice; cases hdevice
  · next hverb _ => rw [hverb] at hdevice; cases hdevice
  · exact (Faultless.pure _).atomic

/-- The events that a device verb may have written before it fails. -/
def leaked (verb : Verb) (args : List String) : List Device.Event :=
  match verb, readAll (readItem verb.name) args with
  | .packet, .ok items => Device.accepted verb.name items
  | _, _ => []

/-- Some items of a packet can be written, and the wheel after them is too large in fine units. -/
def Overflows (args : List String) : Prop :=
  ∃ before axis delta after, before ≠ [] ∧
    readAll (readItem Verb.packet.name) args = .ok (before ++ .relative axis delta :: after) ∧
    (∀ item ∈ before, item.Accepted Verb.packet.name) ∧ TooFine axis delta

theorem simple_packet (hverb : inv.verb = .packet) :
    (simple settings inv : Act σ ω Unit) =
      (Act.lift id (readAll (readItem Verb.packet.name) inv.args) >>= fun items =>
        Device.packet settings.device items Verb.packet.name) := by
  unfold simple
  rw [hverb, Invocation.name, hverb]

/-- A packet that fails has written the items before the wheel that is refused. -/
theorem packet_fault (hP : Unfailing P) (hverb : inv.verb = .packet) {args : List String}
    (hargs : inv.args = args) {s s' : Session σ ω} {f : Failure} (hs : P s.isOpen s.sink)
    (h : (simple settings inv).exec s = (.error (.fault f), s')) :
    s'.device = Device.store settings.device (leaked .packet args) s.device ∧
      (leaked .packet args ≠ [] ↔ Overflows args) := by
  rw [simple_packet hverb, hargs] at h
  unfold leaked Overflows
  cases hread : readAll (readItem Verb.packet.name) args with
  | error e =>
      rw [hread] at h
      cases e with
      | fault e =>
          cases h
          exact ⟨rfl, fun hne => absurd rfl hne, fun ⟨_, _, _, _, _, hitems, _⟩ => nomatch hitems⟩
      | crash c => cases h
  | ok items =>
      rw [hread, Act.exec_bind_of_ok (Act.exec_lift_ok _ _ _)] at h
      rcases Act.exec_bind_eq_error.mp h with hfault | ⟨⟨⟩, s₁, hok, hsync⟩
      · obtain ⟨hdevice, before, item, after, fault, rfl, hbefore, hrefused⟩ :=
          Device.emitItems_fault hP settings.device hs hfault
        refine ⟨hdevice, fun hne => ?_, ?_⟩
        · have hfirst : before ≠ [] := by
            rintro rfl
            refine hne ?_
            simp only [List.nil_append, Device.accepted, hrefused]
          obtain ⟨text, -, htext⟩ := mem_of_readAll hread item (by simp)
          rcases events_of_readItem htext with ⟨events, hevents⟩ | ⟨axis, delta, rfl, htoo⟩
          · rw [hrefused] at hevents
            cases hevents
          · exact ⟨before, axis, delta, after, hfirst, rfl, hbefore, htoo⟩
        · rintro ⟨before', axis, delta, after', hne, hitems, haccepted, -⟩
          rw [Except.ok.inj hitems]
          cases before' with
          | nil => exact absurd rfl hne
          | cons first rest => exact Device.accepted_ne_nil (haccepted first List.mem_cons_self) _
      · have hwritten := Device.writes_emitItems hP settings.device
          (Device.accepted_of_emitItems hok) s hs
        exact ((Device.faultless_sync hP _ s₁ (hwritten.of_exec hok).2).no_fault hsync).elim

/-- A packet needs one item, and takes all the words after it. -/
theorem bind_packet (args : List String) (line : Option Nat) :
    Invocation.bind (Verb.packet.name :: args) line =
      if args = [] then .error (.fault (.tooFew .packet))
      else .ok { verb := .packet, options := [], args, line } := by
  rw [Invocation.bind, Verb.ofName?_name]
  cases args <;> rfl

/-- A device verb is executed by `simple`, and nothing follows that could fail. -/
theorem exec_perform_device (hdevice : inv.verb.isDevice = true) {inherited : Option Countdown}
    {a : Activation} {s s' : Session σ ω} {e : Trouble Failure}
    (h : (perform settings inherited a inv).exec s = (.error e, s')) :
    (simple settings inv).exec s = (.error e, s') := by
  rw [perform_plain (Verb.not_isControl_of_isDevice hdevice)] at h
  rcases Act.exec_bind_eq_error.mp h with hplain | ⟨_, s₁, -, hpure⟩
  · unfold executePlain at hplain
    split at hplain
    · next hverb _ =>
        rw [hverb] at hdevice
        cases hdevice
    · rcases Act.exec_bind_eq_error.mp hplain with hsimple | ⟨_, s₁, -, hpure⟩
      · exact hsimple
      · cases hpure
  · cases hpure

/-- A fault of a device verb leaves the device as it was, unless the verb is a packet whose first
items were written before a wheel of it was found too large in fine units. -/
theorem device_verb_fault (hP : Unfailing P) (inherited : Option Countdown) (a : Activation)
    {verb : Verb} (hverb : verb.isDevice = true) (args : List String) (line : Option Nat)
    {s s' : Session σ ω} {f : Failure} (hs : P s.isOpen s.sink)
    (h : (dispatch settings inherited a (verb.name :: args) line).exec s =
      (.error (.fault f), s')) :
    (¬ (verb = .packet ∧ Overflows args) → s'.isOpen = s.isOpen ∧ s'.sink = s.sink) ∧
      (verb = .packet ∧ Overflows args → leaked verb args ≠ [] ∧
        s'.device = Device.store settings.device (leaked verb args) s.device) := by
  unfold dispatch at h
  rcases Act.exec_bind_eq_error.mp h with hfault | ⟨inv, s₁, hcommand, hperform⟩
  · obtain ⟨⟨cause, hbind⟩, rfl⟩ := commandOf_error hfault
    refine ⟨fun _ => ⟨rfl, rfl⟩, ?_⟩
    rintro ⟨rfl, before, axis, delta, after, -, hitems, -⟩
    -- The only packet that does not bind is the empty one.
    rw [bind_packet] at hbind
    split at hbind
    · next hempty =>
        rw [hempty] at hitems
        exact absurd (Except.ok.inj hitems) (by simp)
    · cases hbind
  · obtain ⟨hbind, hnoted⟩ := commandOf_ok hcommand
    have hkept : s₁.device = s.device := by rw [hnoted]; rfl
    have hs₁ : P s₁.isOpen s₁.sink := by rw [hnoted]; exact hs
    obtain rfl : verb = inv.verb := by
      have hname := (verb_of_bind hbind).1
      rw [Verb.ofName?_name] at hname
      exact Option.some.inj hname
    have hsimple := exec_perform_device hverb hperform
    by_cases hpacket : inv.verb = .packet
    · have hargs : inv.args = args :=
        (List.cons.inj (words_of_bind hbind (by rw [hpacket]; rfl))).2.symm
      obtain ⟨hdevice, hleaked⟩ := packet_fault hP hpacket hargs hs₁ hsimple
      rw [hkept] at hdevice
      rw [hpacket]
      refine ⟨fun hno => ?_, fun hoverflows => ⟨hleaked.mpr hoverflows.2, hdevice⟩⟩
      have hnothing : leaked .packet args = [] :=
        Decidable.byContradiction fun hne => hno ⟨rfl, hleaked.mp hne⟩
      rw [hnothing] at hdevice
      exact Prod.mk.inj hdevice
    · refine ⟨fun _ => ?_, fun hpacket' => absurd hpacket'.1 hpacket⟩
      exact Prod.mk.inj ((atomic_simple hP hverb hpacket s₁ f s' hs₁ hsimple).trans hkept)

end Verbs

/-! ### A packet whose wheel is too large in fine units -/

/-- The delta of the wheel fits 32 bits; 120 times as much does not. -/
def wheelPacket : List String := ["KEYDOWN=KEY_A", "REL_WHEEL=20000000"]

/-- The delta of `wheelPacket`. -/
def hugeDelta : Binary64 := .finite 20000000

theorem tooFine_hugeDelta : TooFine 8 hugeDelta :=
  ⟨rfl, by decide +kernel, by decide +kernel⟩

theorem readAll_wheelPacket :
    readAll (readItem Verb.packet.name) wheelPacket =
      .ok ([.keyDown 30] ++ [.relative 8 hugeDelta]) := by
  have hdelta : Argument.relative "20000000" (some Verb.packet.name) = .ok hugeDelta := by
    have hnumber : Number.readNumber "20000000" = .number hugeDelta := by decide +kernel
    unfold Argument.relative Argument.number
    rw [hnumber]
    exact if_pos tooFine_hugeDelta.2.1
  have hwheel : readItem Verb.packet.name "REL_WHEEL=20000000" = .ok (.relative 8 hugeDelta) := by
    have hsplit : splitAssignment "REL_WHEEL=20000000" = ("REL_WHEEL", some "20000000") := rfl
    have haxis : Device.findAxis "REL_WHEEL" (some Verb.packet.name) = .ok ⟨8, false⟩ := rfl
    rw [readItem, hsplit]
    simp only [haxis, hdelta]
    rfl
  have hkey : readItem Verb.packet.name "KEYDOWN=KEY_A" = .ok (.keyDown 30) := rfl
  rw [wheelPacket, readAll, hkey, readAll, hwheel]
  rfl

theorem overflows_wheelPacket : Overflows wheelPacket := by
  refine ⟨[.keyDown 30], 8, hugeDelta, [], List.cons_ne_nil _ _, readAll_wheelPacket, ?_,
    tooFine_hugeDelta⟩
  exact List.forall_mem_singleton.mpr ⟨_, rfl⟩

/-- The fault of `wheelPacket`. -/
def wheelRefused : Failure := { fault := .axisRange (some Verb.packet.name) hugeDelta }

theorem dispatch_wheelPacket (a : Activation) :
    ∃ s', (dispatch {} none a (Verb.packet.name :: wheelPacket) (some 1)).exec idle =
        (.error (.fault wheelRefused), s') ∧
      s'.isOpen = true ∧ s'.sink.events = [.key 30 true] := by
  let inv : Invocation := { verb := .packet, options := [], args := wheelPacket, line := some 1 }
  let noted : Session Sandbox Device.Recorder :=
    { idle with journal := .commandDispatched inv :: idle.journal }
  have hcommand : (commandOf (Verb.packet.name :: wheelPacket) (some 1)).exec idle =
      (.ok inv, noted) := rfl
  have hopened : ∃ s₁, (Device.openDevice {}).exec noted = (.ok (), s₁) ∧ s₁.isOpen = true ∧
      s₁.sink = Device.opened {} idle.device := by
    have hparts : ∃ s₁, (Device.openDevice {}).exec noted =
        (Act.wait ({} : Profile).settleTime).exec s₁ ∧ s₁.host = idle.host ∧ s₁.isOpen = true ∧
        s₁.sink = Device.opened {} idle.device := ⟨_, rfl, rfl, rfl, rfl⟩
    have hwait : (waitFor ({} : Profile).settleTime idle.host).1 = true := by decide +kernel
    obtain ⟨s₁, hexec, hhost, hopen, hsink⟩ := hparts
    rw [hexec, Act.exec_wait, hhost, hwait]
    exact ⟨_, rfl, hopen, hsink⟩
  obtain ⟨s₁, hopened, hopen, hsink⟩ := hopened
  obtain ⟨s₂, hwritten, hopen', hsink', -⟩ :=
    Device.exec_emitAll Device.Recorder.unfailing [.key 30 true] hopen (by rw [hsink]; rfl)
  have hkey : (Device.emitItem {} Verb.packet.name (.keyDown 30)).exec noted = (.ok (), s₂) :=
    (Act.exec_bind_of_ok hopened).trans hwritten
  have hwheel : (Device.emitItem {} Verb.packet.name (.relative 8 hugeDelta)).exec s₂ =
      (.error (.fault wheelRefused), s₂) := by
    rw [Device.emitItem_eq, Device.events_of_tooFine tooFine_hugeDelta]
    rfl
  have hsimple : (simple {} inv).exec noted = (.error (.fault wheelRefused), s₂) := by
    rw [simple_packet rfl, readAll_wheelPacket, Act.exec_bind_of_ok (Act.exec_lift_ok _ _ _)]
    exact Act.exec_bind_of_error ((Act.exec_bind_of_ok hkey).trans (Act.exec_bind_of_error hwheel))
  refine ⟨s₂, (Act.exec_bind_of_ok hcommand).trans ?_, hopen', by rw [hsink', hsink]; rfl⟩
  rw [perform_plain rfl]
  exact Act.exec_bind_of_error (Act.exec_bind_of_error hsimple)

/-- The key is pressed on a device that was made for it, although the line is refused. -/
theorem refused_packet_presses_key :
    ∃ s', (dispatch {} none (freshScript "main" 0 { pending := some [] })
        (Verb.packet.name :: wheelPacket) (some 1)).exec idle =
        (.error (.fault wheelRefused), s') ∧
      (idle.isOpen = false ∧ idle.sink.events = []) ∧
      s'.isOpen = true ∧ s'.sink.events = [.key 30 true] := by
  obtain ⟨s', hrun, hopen, hevents⟩ := dispatch_wheelPacket _
  exact ⟨s', hrun, ⟨rfl, rfl⟩, hopen, hevents⟩

theorem device_verb_fault_wheelPacket :
    Verb.packet.isDevice = true ∧ idle.sink.faults = {} ∧ Overflows wheelPacket ∧
      ∃ s', (dispatch {} none (freshScript "main" 0 { pending := some [] })
          (Verb.packet.name :: wheelPacket) (some 1)).exec idle =
          (.error (.fault wheelRefused), s') ∧
        leaked .packet wheelPacket ≠ [] ∧
        s'.device = Device.store {} (leaked .packet wheelPacket) idle.device := by
  obtain ⟨s', hrun, -⟩ := dispatch_wheelPacket (freshScript "main" 0 { pending := some [] })
  have hfault := device_verb_fault Device.Recorder.unfailing none _ rfl wheelPacket (some 1) rfl hrun
  exact ⟨rfl, rfl, overflows_wheelPacket, s', hrun, hfault.2 ⟨rfl, overflows_wheelPacket⟩⟩

end Machine

end InputScript
