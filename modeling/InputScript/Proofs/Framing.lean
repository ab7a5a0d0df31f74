import InputScript.Proofs.Rationing
import InputScript.Proofs.Validation

/-!
# Frames of gestures

A consumer of the device takes the events up to a sync as one.  Some gestures sync by themselves
after every key, others leave it to the end of the frame, and a packet may hold syncs of its own,
anywhere and in any number; but no gesture leaves a frame open for the next.  That is all that is
needed: what ends with a sync can be split into frames on its own (`frames_append`), and has as many
frames as syncs (`length_frames`).

So for every gesture it is shown that what it records is closed, and its syncs are counted
(`Gesture.records`).  The frames of gestures in a row then follow by putting portions together.

## Main results

* `frames_append`, `isFrame_of_mem`, `length_frames` — the frames of events that end with a sync.
* `Gesture.records` — what one gesture records.
* `gestures_are_framed` — the frames of gestures in a row.
-/

namespace InputScript.Device

/-! ## Events that end with a sync -/

/-- A frame ends with its only sync. -/
def IsFrame (frame : List Event) : Prop :=
  ∃ body last, frame = body ++ [last] ∧ last.isSync = true ∧ ∀ e ∈ body, e.isSync = false

/-- No frame is left open. -/
def Closed (events : List Event) : Prop := events = [] ∨ ∃ before, events = before ++ [.sync]

theorem Closed.append {xs ys : List Event} (hxs : Closed xs) (hys : Closed ys) :
    Closed (xs ++ ys) := by
  rcases hys with rfl | ⟨before, rfl⟩
  · rwa [List.append_nil]
  · exact .inr ⟨xs ++ before, (List.append_assoc _ _ _).symm⟩

section Frames

variable {current xs ys events : List Event} {e : Event}

theorem flatten_framesFrom : (framesFrom current events).flatten = current.reverse ++ events := by
  induction events generalizing current with
  | nil => cases current <;> simp [framesFrom]
  | cons e events ih =>
      have hshift : (e :: current).reverse ++ events = current.reverse ++ e :: events := by simp
      rw [framesFrom]
      split
      · rw [List.flatten_cons, ih, List.reverse_nil, List.nil_append, hshift]
      · rw [ih, hshift]

/-- What comes after a sync is split on its own. -/
theorem framesFrom_append (he : e.isSync = true) :
    framesFrom current (xs ++ [e] ++ ys) = framesFrom current (xs ++ [e]) ++ framesFrom [] ys := by
  induction xs generalizing current with
  | nil => simp [framesFrom, he]
  | cons x xs ih =>
      simp only [List.cons_append, framesFrom]
      split
      · rw [ih, List.cons_append]
      · exact ih

theorem isFrame_of_mem_framesFrom (he : e.isSync = true)
    (hcurrent : ∀ c ∈ current, c.isSync = false) {frame : List Event}
    (hframe : frame ∈ framesFrom current (xs ++ [e])) : IsFrame frame := by
  have hends : ∀ {body : List Event} {last : Event}, (∀ c ∈ body, c.isSync = false) →
      last.isSync = true → IsFrame (last :: body).reverse := by
    intro body last hbody hlast
    exact ⟨body.reverse, last, List.reverse_cons, hlast,
      fun c hc => hbody c (List.mem_reverse.mp hc)⟩
  induction xs generalizing current with
  | nil =>
      rw [List.nil_append, framesFrom, if_pos he] at hframe
      rw [List.mem_singleton.mp hframe]
      exact hends hcurrent he
  | cons x xs ih =>
      rw [List.cons_append, framesFrom] at hframe
      split at hframe
      · next hx =>
          rcases List.mem_cons.mp hframe with rfl | hlater
          · exact hends hcurrent hx
          · exact ih (List.forall_mem_nil _) hlater
      · next hx =>
          exact ih (List.forall_mem_cons.mpr ⟨eq_false_of_ne_true hx, hcurrent⟩) hframe

theorem length_framesFrom (he : e.isSync = true) :
    (framesFrom current (xs ++ [e])).length = (xs ++ [e]).countP Event.isSync := by
  induction xs generalizing current with
  | nil => simp [framesFrom, he]
  | cons x xs ih =>
      rw [List.cons_append, framesFrom]
      split
      · next hx => rw [List.length_cons, ih, List.countP_cons_of_pos hx]
      · next hx => rw [ih, List.countP_cons_of_neg hx]

theorem frames_append (h : Closed xs) : frames (xs ++ ys) = frames xs ++ frames ys := by
  rcases h with rfl | ⟨before, rfl⟩
  · rfl
  · exact framesFrom_append rfl

theorem flatten_frames (events : List Event) : (frames events).flatten = events :=
  flatten_framesFrom

theorem isFrame_of_mem (h : Closed events) {frame : List Event} (hframe : frame ∈ frames events) :
    IsFrame frame := by
  rcases h with rfl | ⟨before, rfl⟩
  · cases hframe
  · exact isFrame_of_mem_framesFrom rfl (List.forall_mem_nil _) hframe

theorem length_frames (h : Closed events) :
    (frames events).length = events.countP Event.isSync := by
  rcases h with rfl | ⟨before, rfl⟩
  · rfl
  · exact length_framesFrom rfl

end Frames

/-- So many frames, all of them complete. -/
def Whole (n : Nat) (events : List Event) : Prop :=
  Closed events ∧ events.countP Event.isSync = n

theorem Whole.nil : Whole 0 [] := ⟨.inl rfl, rfl⟩

theorem Whole.append {m n : Nat} {xs ys : List Event} (hxs : Whole m xs) (hys : Whole n ys) :
    Whole (m + n) (xs ++ ys) :=
  ⟨hxs.1.append hys.1, by rw [List.countP_append, hxs.2, hys.2]⟩

/-- A sync completes what came before it. -/
theorem Whole.sync {n : Nat} {events : List Event} (h : events.countP Event.isSync = n) :
    Whole (1 + n) (events ++ [.sync]) := by
  refine ⟨.inr ⟨events, rfl⟩, ?_⟩
  rw [List.countP_append, h, Nat.add_comm]
  rfl

/-! ## What actions record -/

section Recording

variable {σ α β : Type} {P Q R : List Event → Prop}

/-- If the action answers, it has added events of a kind to the recorder. -/
def Records (P : List Event → Prop) (act : Act σ Recorder α) : Prop :=
  ∀ s a s', act.exec s = (.ok a, s') →
    ∃ events, P events ∧ s'.sink.events = s.sink.events ++ events

variable {act : Act σ Recorder α}

theorem Records.mono (h : Records P act) (himp : ∀ events, P events → Q events) :
    Records Q act := by
  intro s a s' hexec
  obtain ⟨events, hevents, hsink⟩ := h s a s' hexec
  exact ⟨events, himp events hevents, hsink⟩

variable {next : α → Act σ Recorder β}

theorem Records.bind (h : Records P act) (hnext : ∀ a, Records Q (next a))
    (happend : ∀ xs ys, P xs → Q ys → R (xs ++ ys)) :
    Records R (act >>= next) := by
  intro s b s' hexec
  obtain ⟨a, s₁, hfirst, hrest⟩ := Act.exec_bind_eq_ok.mp hexec
  obtain ⟨xs, hxs, hsink⟩ := h s a s₁ hfirst
  obtain ⟨ys, hys, hsink'⟩ := hnext a s₁ b s' hrest
  exact ⟨xs ++ ys, happend xs ys hxs hys, by rw [hsink', hsink, List.append_assoc]⟩

theorem Records.bind_silent (h : Records P act) (hnext : ∀ a, Records (· = []) (next a)) :
    Records P (act >>= next) := by
  refine h.bind hnext ?_
  rintro xs _ hxs rfl
  rwa [List.append_nil]

theorem Records.silent_bind (h : Records (· = []) act) (hnext : ∀ a, Records P (next a)) :
    Records P (act >>= next) := by
  refine h.bind hnext ?_
  rintro _ ys rfl hys
  exact hys

/-- What leaves the sink alone records nothing. -/
theorem Records.of_sink (h : act.Preserves Session.sink) :
    Records (· = []) act :=
  fun _ _ _ hexec => ⟨[], rfl, by rw [h.of_eq hexec, List.append_nil]⟩

theorem Records.whole_zero (h : Records (· = []) act) :
    Records (Whole 0) act := by
  refine h.mono ?_
  rintro _ rfl
  exact .nil

theorem records_emit (e : Event) : Records (· = [e]) (emit e : Act σ Recorder Unit) := by
  intro s a s' hexec
  rw [exec_emit] at hexec
  obtain ⟨hresult, rfl⟩ := Prod.mk.inj hexec
  refine ⟨[e], rfl, Recorder.events_write (eq_false_of_ne_true fun hfull => ?_)⟩
  -- a recorder that is full answers no write
  simp only [Sink.write, Recorder.write, hfull, if_true] at hresult
  cases hresult

theorem records_emitAll (events : List Event) :
    Records (· = events) (emitAll events : Act σ Recorder Unit) := by
  induction events with
  | nil => exact .of_sink (.pure _)
  | cons e events ih =>
      refine (records_emit e).bind (fun _ => ih) ?_
      rintro _ _ rfl rfl
      rfl

variable [Host σ] (p : Profile)

theorem records_wait (delay : Binary64) : Records (· = []) (Act.wait delay : Act σ Recorder Unit) :=
  .of_sink fun s => by rw [Act.exec_wait]

theorem records_openDevice :
    Records (· = []) (openDevice p : Act σ Recorder Unit) := by
  intro s a s' hexec
  refine ⟨[], rfl, ?_⟩
  rw [List.append_nil]
  rcases exec_openDevice_cases p s with ⟨-, hopen⟩ | ⟨-, e, -, hrefused⟩ | ⟨-, -, hcreated⟩
  · cases hopen.symm.trans hexec
    rfl
  · cases hrefused.symm.trans hexec
  · rw [Act.exec_wait] at hcreated
    rw [← (Prod.mk.inj (hcreated.symm.trans hexec)).2]
    exact (Recorder.create_keeps _ _ s.sink).2

theorem records_deliver (events : List Event) :
    Records (· = events) (deliver p events : Act σ Recorder Unit) :=
  (records_openDevice p).silent_bind fun _ => records_emitAll events

/-! ## Gestures -/

theorem records_keys (pressed : Bool) (codes : List Int) :
    Records (Whole codes.length) (keys p pressed codes : Act σ Recorder Unit) := by
  induction codes with
  | nil => exact (Records.of_sink (.pure _)).whole_zero
  | cons code codes ih =>
      rw [List.length_cons, Nat.add_comm]
      refine (records_deliver p _).bind (fun _ => ih) ?_
      rintro _ rest rfl hrest
      have hfirst : Whole (1 + 0) ([.key code pressed] ++ [.sync]) := .sync rfl
      exact hfirst.append hrest

theorem records_tapCycles (codes : List Int) (delay : Binary64) (n : Nat) :
    Records (Whole (2 * codes.length * n)) (tapCycles p codes delay n : Act σ Recorder Unit) := by
  induction n with
  | zero => exact (Records.of_sink (.pure _)).whole_zero
  | succ n ih =>
      have hcount : 2 * codes.length * (n + 1) =
          codes.length + (codes.length + 2 * codes.length * n) := by
        rw [Nat.mul_succ]
        omega
      rw [hcount]
      refine (records_keys p true codes).bind (fun _ => ?_) fun _ _ => Whole.append
      have hreleases := records_keys (σ := σ) p false codes.reverse
      rw [List.length_reverse] at hreleases
      exact hreleases.bind (fun _ => (records_wait delay).silent_bind fun _ => ih)
        fun _ _ => Whole.append

theorem records_tap (c : Controls) (codes : List Int) {count : Option Int}
    {runTime delay : Option Binary64} {n : Nat}
    (h : tapCount count runTime (delay.getD c.keyDelay) = .ok n) :
    Records (Whole (2 * codes.length * n))
      (tap c codes count runTime delay : Act σ Recorder Nat) := by
  unfold tap
  dsimp only
  rw [h]
  refine (Records.of_sink fun _ => rfl).silent_bind fun _ => ?_
  exact (records_tapCycles _ _ _ n).bind_silent fun _ => .of_sink (.pure n)

theorem countP_relativeEvents {axis : Int} {delta : Binary64} {verb : Option String}
    {events : List Event} (h : relativeEvents axis delta verb = .ok events) :
    events.countP Event.isSync = 0 := by
  unfold relativeEvents at h
  dsimp only at h
  split at h
  · cases h
    refine List.countP_eq_zero.mpr fun e he => ?_
    obtain ⟨value, -, rfl⟩ := List.mem_map.mp he
    exact Bool.false_ne_true
  · cases h

/-- Of the events of the items, only those of syncs are syncs. -/
theorem Item.countP_events {verb : String} {item : Item} {events : List Event}
    (h : item.events verb = .ok events) :
    events.countP Event.isSync = [item].count .sync := by
  cases item with
  | relative axis delta =>
      rw [Item.events] at h
      cases hevents : relativeEvents axis delta (some verb) with
      | error e =>
          rw [hevents] at h
          cases h
      | ok values =>
          rw [hevents] at h
          cases h
          exact countP_relativeEvents hevents
  | absolute axis percent =>
      rw [Item.events] at h
      cases hscale : scaleAbsolute percent (some verb) with
      | error e =>
          rw [hscale] at h
          cases h
      | ok value =>
          rw [hscale] at h
          cases h
          rfl
  | keyDown code => cases h; rfl
  | keyUp code => cases h; rfl
  | sync => cases h; rfl
  | unknown => cases h

theorem records_emitItem (verb : String) (item : Item) :
    Records (fun events => events.countP Event.isSync = [item].count .sync)
      (emitItem p verb item : Act σ Recorder Unit) := by
  rw [emitItem_eq]
  intro s a s' hexec
  obtain ⟨events, s₁, hlift, hdeliver⟩ := Act.exec_bind_eq_ok.mp hexec
  obtain ⟨hevents, rfl⟩ := Act.exec_lift_eq_ok hlift
  obtain ⟨added, hadded, hsink⟩ := records_deliver p events _ a s' hdeliver
  exact ⟨added, hadded ▸ Item.countP_events hevents, hsink⟩

theorem records_emitItems (verb : String) (items : List Item) :
    Records (fun events => events.countP Event.isSync = items.count .sync)
      (emitItems p verb items : Act σ Recorder Unit) := by
  induction items with
  | nil => exact (Records.of_sink (.pure _)).mono fun _ h => h ▸ rfl
  | cons item items ih =>
      refine (records_emitItem p verb item).bind (fun _ => ih) fun xs ys hxs hys => ?_
      rw [List.countP_append, hxs, hys, ← List.count_append]
      rfl

theorem records_packet (items : List Item) (verb : String) :
    Records (Whole (1 + items.count .sync)) (packet p items verb : Act σ Recorder Unit) := by
  refine (records_emitItems p verb items).bind (fun _ => records_deliver p [.sync]) ?_
  rintro events _ hevents rfl
  exact .sync hevents

/-- Items without a sync make one frame. -/
theorem records_motion {items : List Item} (h : .sync ∉ items) (verb : String) :
    Records (Whole 1) (packet p items verb : Act σ Recorder Unit) := by
  have hpacket := records_packet (σ := σ) p items verb
  rwa [List.count_eq_zero.mpr h] at hpacket

theorem records_move (deltas : List Binary64) (alternate : Bool) (verb : String) :
    Records (Whole 1) (move p deltas alternate verb : Act σ Recorder Unit) := by
  rw [move, Machine.moveAxes_eq]
  exact records_motion p (by simp) verb

theorem records_position (percents : List Binary64) (alternate : Bool) (verb : String) :
    Records (Whole 1) (position p percents alternate verb : Act σ Recorder Unit) := by
  rw [position, Machine.placeAxes_eq]
  exact records_motion p (by simp) verb

theorem records_wheel (delta : Binary64) (horizontal : Bool) (verb : String) :
    Records (Whole 1) (wheel p delta horizontal verb : Act σ Recorder Unit) := by
  unfold wheel relative
  cases hevents : relativeEvents (if horizontal then horizontalWheelAxis else wheelAxis : Nat) delta
      (some verb) with
  | error e =>
      intro s a s' hexec
      cases hexec
  | ok events =>
      have hdeliver : Records (· = events ++ [.sync])
          (deliver p (framed events true) : Act σ Recorder Unit) := records_deliver p _
      refine hdeliver.mono ?_
      rintro _ rfl
      exact .sync (countP_relativeEvents hevents)

end Recording

/-- What a script can have the device do. -/
inductive Gesture
  | openDevice
  | keyDown (codes : List Int)
  | keyUp (codes : List Int)
  | tap (codes : List Int) (count : Option Int) (runTime delay : Option Binary64)
  | move (deltas : List Binary64) (alternate : Bool) (verb : String)
  | wheel (delta : Binary64) (horizontal : Bool) (verb : String)
  | position (percents : List Binary64) (alternate : Bool) (verb : String)
  | packet (items : List Item) (verb : String)
deriving DecidableEq, Repr

namespace Gesture

variable {σ ω : Type} [Host σ]

/-- Makes the gesture. -/
def perform [Sink ω] (c : Controls) : Gesture → Act σ ω Unit
  | .openDevice => Device.openDevice c.profile
  | .keyDown codes => keys c.profile true codes
  | .keyUp codes => keys c.profile false codes
  | .tap codes count runTime delay => do
    let _ ← Device.tap c codes count runTime delay
    return
  | .move deltas alternate verb => Device.move c.profile deltas alternate verb
  | .wheel delta horizontal verb => Device.wheel c.profile delta horizontal verb
  | .position percents alternate verb => Device.position c.profile percents alternate verb
  | .packet items verb => Device.packet c.profile items verb

/-- Makes gestures in a row. -/
def performEach [Sink ω] (c : Controls) : List Gesture → Act σ ω Unit
  | [] => return
  | g :: gs => do
    g.perform c
    performEach c gs

/-- The number of frames of a gesture that succeeds: one for each press and each release of a key,
one for a motion, and one for a packet besides those that its own syncs end. -/
def frameCount (c : Controls) : Gesture → Nat
  | .openDevice => 0
  | .keyDown codes | .keyUp codes => codes.length
  | .tap codes count runTime delay =>
    match tapCount count runTime (delay.getD c.keyDelay) with
    | .ok n => 2 * codes.length * n
    | .error _ => 0
  | .move .. | .wheel .. | .position .. => 1
  | .packet items _ => 1 + items.count .sync

/-- A gesture that succeeds leaves no frame open. -/
theorem records (c : Controls) (g : Gesture) :
    Records (Whole (g.frameCount c)) (g.perform c : Act σ Recorder Unit) := by
  cases g with
  | openDevice => exact (records_openDevice c.profile).whole_zero
  | keyDown codes => exact records_keys c.profile true codes
  | keyUp codes => exact records_keys c.profile false codes
  | move deltas alternate verb => exact records_move c.profile deltas alternate verb
  | wheel delta horizontal verb => exact records_wheel c.profile delta horizontal verb
  | position percents alternate verb => exact records_position c.profile percents alternate verb
  | packet items verb => exact records_packet c.profile items verb
  | tap codes count runTime delay =>
      rw [perform, frameCount]
      cases hcount : tapCount count runTime (delay.getD c.keyDelay) with
      | error e =>
          intro s a s' hexec
          rw [Device.tap, hcount] at hexec
          cases hexec
      | ok n =>
          have htap := records_tap (σ := σ) c codes hcount
          exact htap.bind_silent fun _ => .of_sink (.pure _)

/-- The gestures were made one after the other, and the recorder got these events from each. -/
inductive Performed (c : Controls) :
    Session σ Recorder → List Gesture → List (List Event) → Session σ Recorder → Prop
  | nil (s : Session σ Recorder) : Performed c s [] [] s
  | cons {s s₁ s' : Session σ Recorder} {g : Gesture} {gs : List Gesture} {part : List Event}
      {parts : List (List Event)} (hfirst : (g.perform c).exec s = (.ok (), s₁))
      (hpart : s₁.sink.events = s.sink.events ++ part) (hrest : Performed c s₁ gs parts s') :
      Performed c s (g :: gs) (part :: parts) s'

/-- What gestures in a row record, gesture by gesture. -/
theorem performed_of_exec {c : Controls} {gs : List Gesture} {s s' : Session σ Recorder}
    (h : (performEach c gs).exec s = (.ok (), s')) :
    ∃ parts, Performed c s gs parts s' ∧ (∀ part ∈ parts, Closed part) ∧
      parts.map (fun part => (frames part).length) = gs.map (frameCount c) := by
  induction gs generalizing s with
  | nil =>
      cases h
      exact ⟨[], .nil _, List.forall_mem_nil _, rfl⟩
  | cons g gs ih =>
      obtain ⟨⟨⟩, s₁, hfirst, hrest⟩ := Act.exec_bind_eq_ok.mp h
      obtain ⟨part, ⟨hclosed, hsyncs⟩, hpart⟩ := g.records c s () s₁ hfirst
      obtain ⟨parts, hparts, hcloseds, hcounts⟩ := ih hrest
      refine ⟨part :: parts, .cons hfirst hpart hparts,
        List.forall_mem_cons.mpr ⟨hclosed, hcloseds⟩, ?_⟩
      rw [List.map_cons, List.map_cons, length_frames hclosed, hsyncs, hcounts]

theorem Performed.events_eq {c : Controls} {gs : List Gesture} {parts : List (List Event)}
    {s s' : Session σ Recorder} (h : Performed c s gs parts s') :
    s'.sink.events = s.sink.events ++ parts.flatten := by
  induction h with
  | nil s => exact (List.append_nil _).symm
  | cons _ hpart _ ih => rw [ih, hpart, List.flatten_cons, List.append_assoc]

end Gesture

/-! ## Gestures in a row -/

theorem closed_flatten {parts : List (List Event)} (h : ∀ part ∈ parts, Closed part) :
    Closed parts.flatten := by
  induction parts with
  | nil => exact .inl rfl
  | cons part parts ih =>
      obtain ⟨hpart, hparts⟩ := List.forall_mem_cons.mp h
      exact hpart.append (ih hparts)

theorem frames_flatten {parts : List (List Event)} (h : ∀ part ∈ parts, Closed part) :
    frames parts.flatten = parts.flatMap frames := by
  induction parts with
  | nil => rfl
  | cons part parts ih =>
      obtain ⟨hpart, hparts⟩ := List.forall_mem_cons.mp h
      rw [List.flatten_cons, frames_append hpart, ih hparts, List.flatMap_cons]

/-- The frames of gestures in a row that all succeed. -/
theorem gestures_are_framed {σ : Type} [Host σ] (c : Controls) (gs : List Gesture)
    {s s' : Session σ Recorder} (hempty : s.sink.events = [])
    (h : (Gesture.performEach c gs).exec s = (.ok (), s')) :
    (s'.sink.events = [] ∨ ∃ before, s'.sink.events = before ++ [.sync]) ∧
      s'.sink.frames.flatten = s'.sink.events ∧
      (∀ frame ∈ s'.sink.frames, IsFrame frame) ∧
      ∃ parts, Gesture.Performed c s gs parts s' ∧ s'.sink.frames = parts.flatMap frames ∧
        parts.map (fun part => (frames part).length) = gs.map (Gesture.frameCount c) := by
  obtain ⟨parts, hparts, hcloseds, hcounts⟩ := Gesture.performed_of_exec h
  have hevents : s'.sink.events = parts.flatten := by
    rw [hparts.events_eq, hempty, List.nil_append]
  have hclosed : Closed s'.sink.events := hevents ▸ closed_flatten hcloseds
  refine ⟨hclosed, flatten_frames _, fun frame hframe => isFrame_of_mem hclosed hframe, parts,
    hparts, ?_, hcounts⟩
  rw [Recorder.frames, hevents, frames_flatten hcloseds]

/-- Gestures of every kind, with syncs at the start, at the end and next to each other. -/
def allGestures : List Gesture :=
  [.openDevice, .keyDown [29, 42],
    .packet [.sync, .keyDown 30, .sync, .sync, .keyUp 30, .sync] "input",
    .tap [30, 30] (some 2) none none, .keyUp [42, 29], .move [.ofNat 3] false "move",
    .wheel (.ofNat 1) false "wheel", .position [] true "position", .packet [] "input"]

theorem gestures_are_framed_mixed :
    Machine.idle.sink.events = [] ∧
    ∃ s', (Gesture.performEach {} allGestures).exec Machine.idle = (.ok (), s') ∧
      s'.sink.frames.length = 21 ∧
      ∃ parts, Gesture.Performed {} Machine.idle allGestures parts s' ∧
        s'.sink.frames = parts.flatMap frames ∧
        parts.map (fun part => (frames part).length) = [0, 2, 5, 8, 2, 1, 1, 1, 1] := by
  have hcounts : allGestures.map (Gesture.frameCount {}) = [0, 2, 5, 8, 2, 1, 1, 1, 1] := by
    decide +kernel
  have hrun : ((Gesture.performEach {} allGestures).exec Machine.idle).1.toOption = some () ∧
      ((Gesture.performEach {} allGestures).exec Machine.idle).2.sink.frames.length = 21 := by
    decide +kernel
  rcases hexec : (Gesture.performEach {} allGestures).exec Machine.idle with ⟨trouble | ⟨⟩, s'⟩
  · rw [hexec] at hrun
    cases hrun.1
  · rw [hexec] at hrun
    obtain ⟨-, -, -, parts, hparts, hframes, hlengths⟩ :=
      gestures_are_framed {} allGestures rfl hexec
    exact ⟨rfl, s', rfl, hrun.2, parts, hparts, hframes, hlengths.trans hcounts⟩

end InputScript.Device
