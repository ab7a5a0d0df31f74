import InputScript.Proofs.Handle
import InputScript.Proofs.Rounding
import InputScript.Proofs.Validation
import InputScript.Proofs.Waiting
import InputScript.Sandbox

/-!
# Taps

A tap presses keys in order, releases them in reverse order and pauses, and does so a number of
times.  Its loops are unrolled here into a score, a list of events to write and of pauses to make,
and tapping is shown to be playing the score, whatever the sink and the clock do (`tap_eq`).

What is to be said about the keys is then said about the events of the score.  They nest like
brackets, also if a key is listed more than once, since a tap of `code :: codes` is a tap of `codes`
between a press and a release of `code`.  From the nesting alone it follows that every key that was
touched is left released (`Nested.held_eq`).

## Main results

* `tap_eq` — a tap plays its score.
* `exec_play` — a score is played to its end if the sink does not fail and waits end.
* `tapCount_eq` — the number of taps.
* `Nested.held_eq` — nested presses and releases leave no key pressed.
* `taps_are_balanced` — what a tap with options that were accepted does.
-/

namespace InputScript

/-! ## Options that were accepted -/

theorem Machine.mem_of_readOptional {ε α : Type} {read : String → Except ε α}
    {text : Option String} {a? : Option α} (h : readOptional read text = .ok a?) :
    ∀ a ∈ a?, ∃ arg, read arg = .ok a := by
  cases text with
  | none =>
      cases h
      exact fun _ h => (nomatch h)
  | some arg =>
      rw [readOptional] at h
      split at h
      · cases h
      · next a hread =>
          cases h
          rintro _ ⟨⟩
          exact ⟨arg, hread⟩

theorem Machine.isDuration_of_readOptional {verb : Option String} {what : String}
    {text : Option String} {time : Option Binary64}
    (h : readOptional (Argument.duration · verb what) text = .ok time) :
    ∀ t ∈ time, Argument.IsDuration t := by
  intro t ht
  obtain ⟨arg, harg⟩ := mem_of_readOptional h t ht
  exact Argument.isDuration_of_duration harg

namespace Device

open Machine (readOptional mem_of_readOptional isDuration_of_readOptional)

/-! ## Scores -/

/-- One thing that a tap does. -/
inductive Beat
  | write (e : Event)
  | pause (delay : Binary64)
deriving DecidableEq, Repr

/-- The event of a beat. -/
def Beat.event? : Beat → Option Event
  | .write e => some e
  | .pause _ => none

/-- Presses or releases of keys in order, each followed by a sync. -/
def strokes (pressed : Bool) (codes : List Int) : List Event :=
  codes.flatMap fun code => [.key code pressed, .sync]

/-- The events of one tap: presses in order, then releases in reverse order. -/
def chord (codes : List Int) : List Event := strokes true codes ++ strokes false codes.reverse

/-- Taps with a pause after each. -/
def score (codes : List Int) (delay : Binary64) (n : Nat) : List Beat :=
  (List.replicate n ((chord codes).map .write ++ [.pause delay])).flatten

theorem score_succ (codes : List Int) (delay : Binary64) (n : Nat) :
    score codes delay (n + 1) =
      (chord codes).map .write ++ .pause delay :: score codes delay n := by
  rw [score, List.replicate_succ, List.flatten_cons, List.append_assoc]
  rfl

theorem events_score (codes : List Int) (delay : Binary64) (n : Nat) :
    (score codes delay n).filterMap Beat.event? = (List.replicate n (chord codes)).flatten := by
  have hwrites : ∀ events : List Event, (events.map Beat.write).filterMap Beat.event? = events := by
    intro events
    rw [List.filterMap_map]
    exact List.filterMap_some
  induction n with
  | zero => rfl
  | succ n ih =>
      rw [score_succ, List.filterMap_append, hwrites, List.replicate_succ, List.flatten_cons, ← ih]
      rfl

/-! ## Playing a score -/

section Playing

variable {σ ω : Type} [Host σ] [Sink ω]

def Beat.play (p : Profile) : Beat → Act σ ω Unit
  | .write e => deliver p [e]
  | .pause delay => Act.wait delay

/-- Plays beats in order. -/
def play (p : Profile) : List Beat → Act σ ω Unit
  | [] => return
  | beat :: beats => do
    beat.play p
    play p beats

theorem play_append (p : Profile) (xs ys : List Beat) :
    (play p (xs ++ ys) : Act σ ω Unit) = play p xs >>= fun _ => play p ys := by
  induction xs with
  | nil => rfl
  | cons x xs ih => rw [List.cons_append, play, play, ih, bind_assoc]

/-- Events can be delivered in portions: the first leaves the device open for the next. -/
theorem exec_emitAll_append (p : Profile) (xs ys : List Event) {s : Session σ ω}
    (hopen : s.isOpen = true) :
    (emitAll (xs ++ ys)).exec s = (emitAll xs >>= fun _ => deliver p ys).exec s := by
  induction xs generalizing s with
  | nil =>
      have hdeliver : (deliver p ys).exec s = (emitAll ys).exec s :=
        Act.exec_bind_of_ok (exec_openDevice_of_open hopen)
      exact hdeliver.symm
  | cons x xs ih =>
      rw [List.cons_append, emitAll, emitAll, bind_assoc, Act.exec_bind, Act.exec_bind]
      rcases hemit : (emit x : Act σ ω Unit).exec s with ⟨e | _, s₁⟩
      · rfl
      · rw [exec_emit] at hemit
        exact ih ((Prod.mk.inj hemit).2 ▸ hopen)

theorem deliver_append (p : Profile) (xs ys : List Event) :
    (deliver p (xs ++ ys) : Act σ ω Unit) = deliver p xs >>= fun _ => deliver p ys := by
  funext s
  show (deliver p (xs ++ ys) : Act σ ω Unit).exec s =
    (deliver p xs >>= fun _ => deliver p ys).exec s
  rw [deliver, deliver, bind_assoc, Act.exec_bind, Act.exec_bind]
  rcases hopen : (openDevice p : Act σ ω Unit).exec s with ⟨e | _, s₁⟩
  · rfl
  · exact exec_emitAll_append p xs ys (isOpen_of_openDevice hopen)

theorem keys_eq (p : Profile) (pressed : Bool) (codes : List Int) :
    (keys p pressed codes : Act σ ω Unit) = play p ((strokes pressed codes).map .write) := by
  induction codes with
  | nil => rfl
  | cons code codes ih =>
      have hkey : (key p code pressed true : Act σ ω Unit) =
          deliver p [.key code pressed] >>= fun _ => deliver p [.sync] :=
        deliver_append p [.key code pressed] [.sync]
      rw [keys, hkey, ih, bind_assoc]
      rfl

theorem tapCycles_eq (p : Profile) (codes : List Int) (delay : Binary64) (n : Nat) :
    (tapCycles p codes delay n : Act σ ω Unit) = play p (score codes delay n) := by
  induction n with
  | zero => rfl
  | succ n ih =>
      rw [tapCycles, ih, keys_eq, keys_eq, score_succ, chord, List.map_append, List.append_assoc,
        play_append, play_append]
      rfl

/-- A tap plays its score. -/
theorem tap_eq {c : Controls} {count : Option Int} {time delay : Option Binary64} {n : Nat}
    (h : tapCount count time (delay.getD c.keyDelay) = .ok n) (codes : List Int) :
    (tap c codes count time delay : Act σ ω Nat) = (do
      Act.note (.keyTap codes.length n (delay.getD c.keyDelay))
      play c.profile (score codes (delay.getD c.keyDelay) n)
      return n) := by
  rw [← tapCycles_eq, tap, h]

/-- A set of hosts on which every wait ends. -/
def Punctual (Q : σ → Prop) : Prop :=
  ∀ {host}, Q host → ∀ delay, (waitFor delay host).1 = true ∧ Q (waitFor delay host).2

variable {P : Bool → ω → Prop} {Q : σ → Prop} {s : Session σ ω}

omit [Sink ω] in
theorem exec_wait_of_punctual (hQ : Punctual Q) (hhost : Q s.host) (delay : Binary64) :
    ∃ s', (Act.wait delay : Act σ ω Unit).exec s = (.ok (), s') ∧ s'.device = s.device ∧
      Q s'.host := by
  obtain ⟨hends, hkept⟩ := hQ hhost delay
  refine ⟨{ s with host := (waitFor delay s.host).2 }, ?_, rfl, hkept⟩
  rw [Act.exec_wait, if_pos hends]

theorem exec_openDevice_of_punctual (hP : Unfailing P) (hQ : Punctual Q) (p : Profile)
    (hs : P s.isOpen s.sink) (hhost : Q s.host) :
    ∃ s', (openDevice p).exec s = (.ok (), s') ∧ Q s'.host := by
  rcases exec_openDevice_cases p s with ⟨-, hexec⟩ | ⟨hopen, e, hrefused, -⟩ | ⟨-, -, hexec⟩
  · exact ⟨s, hexec, hhost⟩
  · rw [hopen] at hs
    rw [asked, (hP.create hs _ _).1] at hrefused
    cases hrefused
  · have hcreated : Q (s.created p).host := hhost
    obtain ⟨s', hwait, -, hkept⟩ := exec_wait_of_punctual hQ hcreated p.settleTime
    exact ⟨s', hexec.trans hwait, hkept⟩

theorem exec_deliver (hP : Unfailing P) (hQ : Punctual Q) (p : Profile) (e : Event)
    (hs : P s.isOpen s.sink) (hhost : Q s.host) :
    ∃ s', (deliver p [e]).exec s = (.ok (), s') ∧ s'.device = store p [e] s.device ∧
      P s'.isOpen s'.sink ∧ Q s'.host := by
  obtain ⟨s₁, hopen, hhost₁⟩ := exec_openDevice_of_punctual hP hQ p hs hhost
  obtain ⟨hisOpen, -, hs₁⟩ := (ensures_openDevice hP p hs).of_exec hopen
  have hemit : (emitAll [e]).exec s₁ = (.ok (), s₁.wrote e) := by
    have hexec : (emit e : Act σ ω Unit).exec s₁ = (.ok (), s₁.wrote e) := by
      rw [exec_emit, (hP.write hs₁ e).1]
      rfl
    exact Act.exec_bind_of_ok hexec
  have hexec : (deliver p [e]).exec s = (.ok (), s₁.wrote e) :=
    (Act.exec_bind_of_ok hopen).trans hemit
  obtain ⟨hdevice, hkept⟩ := (writes_deliver hP p (List.cons_ne_nil e []) s hs).of_exec hexec
  exact ⟨_, hexec, hdevice, hkept, hhost₁⟩

/-- A score is played to its end if the sink does not fail and waits end. -/
theorem exec_play (hP : Unfailing P) (hQ : Punctual Q) (p : Profile) (beats : List Beat)
    (hs : P s.isOpen s.sink) (hhost : Q s.host) :
    ∃ s', (play p beats).exec s = (.ok (), s') ∧
      s'.device = store p (beats.filterMap Beat.event?) s.device := by
  induction beats generalizing s with
  | nil => exact ⟨s, rfl, rfl⟩
  | cons beat beats ih =>
      cases beat with
      | write e =>
          obtain ⟨s₁, hexec, hdevice, hs₁, hhost₁⟩ := exec_deliver hP hQ p e hs hhost
          obtain ⟨s', hrest, hdevice'⟩ := ih hs₁ hhost₁
          refine ⟨s', (Act.exec_bind_of_ok hexec).trans hrest, ?_⟩
          rw [hdevice', hdevice, ← store_append]
          rfl
      | pause delay =>
          obtain ⟨s₁, hexec, hdevice, hhost₁⟩ := exec_wait_of_punctual hQ hhost delay
          have hs₁ : P s₁.isOpen s₁.sink := by
            obtain ⟨hopen, hsink⟩ := Prod.mk.inj hdevice
            rw [hopen, hsink]
            exact hs
          obtain ⟨s', hrest, hdevice'⟩ := ih hs₁ hhost₁
          refine ⟨s', (Act.exec_bind_of_ok hexec).trans hrest, ?_⟩
          rw [hdevice', hdevice]
          rfl

/-- A tap is done to its end if the sink does not fail and waits end. -/
theorem exec_tap (hP : Unfailing P) (hQ : Punctual Q) {c : Controls} {count : Option Int}
    {time delay : Option Binary64} {n : Nat}
    (h : tapCount count time (delay.getD c.keyDelay) = .ok n) (codes : List Int)
    (hs : P s.isOpen s.sink) (hhost : Q s.host) :
    ∃ s', (tap c codes count time delay).exec s = (.ok n, s') ∧
      s'.device = store c.profile (List.replicate n (chord codes)).flatten s.device := by
  let noted : Session σ ω :=
    { s with journal := .keyTap codes.length n (delay.getD c.keyDelay) :: s.journal }
  have hnoted : P noted.isOpen noted.sink := hs
  obtain ⟨s', hplay, hdevice⟩ := exec_play hP hQ c.profile
    (score codes (delay.getD c.keyDelay) n) hnoted hhost
  rw [events_score] at hdevice
  refine ⟨s', ?_, hdevice⟩
  rw [tap_eq h, Act.exec_bind_of_ok (Act.exec_note _ s), Act.exec_bind_of_ok hplay]
  rfl

end Playing

/-! ## The number of taps -/

/-- At least one tap, and no more than any of the limits that are given. -/
def tapsWithin (limits : List Int) : Int := limits.min?.elim 1 (max 1)

theorem one_le_tapsWithin (limits : List Int) : 1 ≤ tapsWithin limits := by
  unfold tapsWithin
  cases limits.min? with
  | none => exact Int.le_refl 1
  | some m => exact Int.le_max_left 1 m

/-- The number of taps with options that were accepted. -/
theorem tapCount_eq {count : Option Nat} {time : Option Binary64} {delay : Binary64}
    (hcount : ∀ r ∈ count, 1 ≤ r) (htime : ∀ t ∈ time, Argument.IsDuration t)
    (hdelay : Argument.IsDuration delay) :
    ∃ (n : Nat) (quotient : Option Int), tapCount (count.map Int.ofNat) time delay = .ok n ∧
      time.map (fun t => (t / delay).truncate) = quotient.map .ok ∧
      (n : Int) = tapsWithin ((count.map Int.ofNat).toList ++ quotient.toList) := by
  cases time with
  | none =>
      refine ⟨_, none, rfl, rfl, ?_⟩
      cases count with
      | none => rfl
      | some r => simp [tapsWithin]; omega
  | some t =>
      have ht := htime t rfl
      obtain ⟨n, hn⟩ := tapCount_of_isDuration ht hdelay (count.map Int.ofNat)
      obtain ⟨p, hp, hplow, -⟩ := ht.bounds
      obtain ⟨q, hq, hqlow, -⟩ := hdelay.bounds
      have htzero := Binary64.isZero_of_pos hp (by linarith)
      have hdzero := Binary64.isZero_of_pos hq (by linarith)
      rw [hn]
      simp only [tapCount, htzero, hdzero, Bool.false_eq_true, if_false] at hn
      cases hquotient : (t / delay).truncate with
      | error e =>
          rw [hquotient] at hn
          cases e <;> cases hn
      | ok limit =>
          rw [hquotient] at hn
          refine ⟨n, some limit, rfl, congrArg some hquotient, ?_⟩
          cases hn
          cases count with
          | none => simp [tapsWithin]; omega
          | some r =>
              have hr := hcount r rfl
              simp [tapsWithin]
              omega

/-! ## Nesting -/

/-- Presses and releases that nest like brackets, each followed by a sync. -/
inductive Nested : List Event → Prop
  | nil : Nested []
  | wrap (code : Int) {inner : List Event} (h : Nested inner) :
      Nested ([.key code true, .sync] ++ inner ++ [.key code false, .sync])
  | append {xs ys : List Event} (hxs : Nested xs) (hys : Nested ys) : Nested (xs ++ ys)

/-- A tap of more keys goes on around a tap of fewer. -/
theorem chord_cons (code : Int) (codes : List Int) :
    chord (code :: codes) =
      [.key code true, .sync] ++ chord codes ++ [.key code false, .sync] := by
  simp [chord, strokes]

theorem nested_chord (codes : List Int) : Nested (chord codes) := by
  induction codes with
  | nil => exact .nil
  | cons code codes ih => exact chord_cons code codes ▸ .wrap code ih

theorem nested_taps (codes : List Int) (n : Nat) :
    Nested (List.replicate n (chord codes)).flatten := by
  induction n with
  | zero => exact .nil
  | succ n ih =>
      rw [List.replicate_succ, List.flatten_cons]
      exact .append (nested_chord codes) ih

/-- Whether the event presses or releases the key. -/
def Event.touches (code : Int) (e : Event) : Bool :=
  e.type == EventType.key.code && e.code == code

/-- Whether a key is pressed after events, if it was pressed or not before. -/
def held (code : Int) (before : Bool) (events : List Event) : Bool :=
  events.foldl (fun pressed e => if e.touches code then e.value != 0 else pressed) before

theorem held_append (code : Int) (before : Bool) (xs ys : List Event) :
    held code before (xs ++ ys) = held code (held code before xs) ys :=
  List.foldl_append

theorem touches_key (code other : Int) (pressed : Bool) :
    (Event.key other pressed).touches code = decide (other = code) := by
  rw [Bool.eq_iff_iff]
  simp [Event.touches, Event.key]

theorem touches_sync (code : Int) : Event.sync.touches code = false := rfl

theorem held_stroke (code other : Int) (before pressed : Bool) :
    held code before [.key other pressed, .sync] = if other = code then pressed else before := by
  show (if Event.sync.touches code then Event.sync.value != 0
    else if (Event.key other pressed).touches code then (Event.key other pressed).value != 0
    else before) = _
  rw [touches_sync, touches_key]
  cases pressed <;> simp [Event.key]

/-- Nested presses and releases leave the keys they touch released, and the others as they were. -/
theorem Nested.held_eq {events : List Event} (h : Nested events) (code : Int) (before : Bool) :
    held code before events = (before && !events.any (Event.touches code)) := by
  induction h generalizing before with
  | nil => exact (Bool.and_true _).symm
  | wrap other _ ih =>
      rw [held_append, held_append, held_stroke, held_stroke, ih]
      by_cases hcode : other = code <;> simp [hcode, touches_key, touches_sync]
  | append _ _ ihxs ihys =>
      rw [held_append, ihys, ihxs, List.any_append, Bool.not_or, Bool.and_assoc]

/-- A tap touches the keys it is given and no others. -/
theorem any_touches_chord (code : Int) (codes : List Int) :
    (chord codes).any (Event.touches code) = decide (code ∈ codes) := by
  induction codes with
  | nil => rfl
  | cons other codes ih =>
      have hstroke : ∀ pressed, [Event.key other pressed, .sync].any (Event.touches code) =
          decide (code = other) := by
        intro pressed
        simp [touches_key, touches_sync, eq_comm]
      rw [chord_cons, List.any_append, List.any_append, ih, hstroke, hstroke, Bool.eq_iff_iff]
      by_cases hcode : code = other <;> simp [hcode]

theorem any_touches_taps (code : Int) (codes : List Int) {n : Nat} (hn : 0 < n) :
    (List.replicate n (chord codes)).flatten.any (Event.touches code) = decide (code ∈ codes) := by
  rw [List.any_flatten, ← any_touches_chord, Bool.eq_iff_iff]
  simp [Nat.ne_of_gt hn]

/-! ## Taps with options that were accepted -/

/-- What a tap with options that were accepted does, on a sink that does not fail. -/
theorem taps_are_balanced {σ ω : Type} [Host σ] [Sink ω] {P : Bool → ω → Prop} {Q : σ → Prop}
    (hP : Unfailing P) (hQ : Punctual Q) (c : Controls) (hkeyDelay : Argument.IsDuration c.keyDelay)
    (codes : List Int) {countText timeText delayText verb : Option String}
    {count : Option Nat} {time delay : Option Binary64}
    (hcount : readOptional (Argument.positive · verb "repeat value") countText = .ok count)
    (htime : readOptional (Argument.duration · verb "run time value") timeText = .ok time)
    (hdelay : readOptional (Argument.duration · verb "delay value") delayText = .ok delay)
    {s : Session σ ω} (hs : P s.isOpen s.sink) (hhost : Q s.host) :
    ∃ (n : Nat) (quotient : Option Int),
      -- the number of taps
      time.map (fun t => (t / delay.getD c.keyDelay).truncate) = quotient.map .ok ∧
      (n : Int) = tapsWithin ((count.map Int.ofNat).toList ++ quotient.toList) ∧
      -- the order of events and pauses
      (tap c codes (count.map Int.ofNat) time delay : Act σ ω Nat) = (do
        Act.note (.keyTap codes.length n (delay.getD c.keyDelay))
        play c.profile (score codes (delay.getD c.keyDelay) n)
        return n) ∧
      -- the outcome
      (∃ s', (tap c codes (count.map Int.ofNat) time delay).exec s = (.ok n, s') ∧
        s'.device = store c.profile (List.replicate n (chord codes)).flatten s.device) ∧
      -- the keys
      Nested (List.replicate n (chord codes)).flatten ∧
      (∀ code ∈ codes, ∀ before,
        held code before (List.replicate n (chord codes)).flatten = false) ∧
      ∀ code ∉ codes, ∀ e ∈ (List.replicate n (chord codes)).flatten, e.touches code = false := by
  have hcounts : ∀ r ∈ count, 1 ≤ r := by
    intro r hr
    obtain ⟨arg, harg⟩ := mem_of_readOptional hcount r hr
    exact Machine.positive_pos harg
  have hpause : Argument.IsDuration (delay.getD c.keyDelay) := by
    cases delay with
    | none => exact hkeyDelay
    | some d => exact isDuration_of_readOptional hdelay d rfl
  obtain ⟨n, quotient, htaps, hquotient, hn⟩ := tapCount_eq hcounts
    (isDuration_of_readOptional htime) hpause
  have hpos : 0 < n := by
    have := one_le_tapsWithin ((count.map Int.ofNat).toList ++ quotient.toList)
    omega
  have htouches := fun code => any_touches_taps code codes hpos
  refine ⟨n, quotient, hquotient, hn, tap_eq htaps codes, exec_tap hP hQ htaps codes hs hhost,
    nested_taps codes n, ?_, ?_⟩
  · intro code hcode before
    rw [(nested_taps codes n).held_eq, htouches, decide_eq_true hcode]
    exact Bool.and_false before
  · intro code hcode e he
    have hnone := htouches code
    rw [decide_eq_false hcode, List.any_eq_false] at hnone
    exact eq_false_of_ne_true (hnone e he)

/-! ## A clock that keeps time -/

/-- The negative zero is neutral, also where sums are rounded. -/
theorem add_negativeZero (x : Binary64) : x + .negativeZero = x := by
  cases x <;> rfl

theorem not_pos_sub_self (x : Binary64) : ¬ 0 < x - x := by
  cases x with
  | nan => exact Bool.false_ne_true
  | infinity negative => cases negative <;> exact Bool.false_ne_true
  | negativeZero => decide
  | finite q =>
      have hzero : (Binary64.finite q) - .finite q = .finite 0 := by
        show Binary64.add (.finite q) (if q = 0 then .negativeZero else .finite (-q)) = .finite 0
        split
        · next hq => rw [hq]; rfl
        · show Binary64.round (q + -q) = .finite 0
          rw [add_neg_cancel, Binary64.round, if_pos rfl]
      rw [hzero]
      decide

/-- Reading the clock takes no time, and sleeps last as long as they are asked to. -/
def Exact (host : Sandbox) : Prop := host.clock.tick = .negativeZero ∧ host.clock.wake = []

theorem punctual_exact : Punctual Exact := by
  rintro ⟨⟨now, tick, wake, sleeps⟩, files⟩ ⟨rfl, rfl⟩ delay
  have hwait : ∃ host, waitFor delay
      { clock := { now, tick := .negativeZero, sleeps }, files : Sandbox } = (true, host) ∧
      Exact host := by
    by_cases hdelay : 0 < delay
    · -- one sleep reaches the deadline
      have hends : ¬ 0 < now + delay - (now + .negativeZero + delay) := by
        rw [add_negativeZero]
        exact not_pos_sub_self _
      exact ⟨_, (waitUntil_of_pos hdelay 63).trans (waitUntil_of_not_pos hends _), rfl, rfl⟩
    · exact ⟨_, waitUntil_of_not_pos hdelay _, rfl, rfl⟩
  obtain ⟨host, hwait, hexact⟩ := hwait
  rw [hwait]
  exact ⟨rfl, hexact⟩

/-- A session with an exact clock and a device that is not made yet. -/
def resting : Session Sandbox Recorder where
  host := { clock := { now := 0, tick := .negativeZero }, files := { root := .emptyDirectory } }
  sink := {}

/-- One key is listed twice, and the run time allows for fewer taps than are asked for. -/
theorem taps_are_balanced_twice :
    ∃ s' : Session Sandbox Recorder,
      readOptional (Argument.positive · (some "key") "repeat value") (some "3") = .ok (some 3) ∧
      readOptional (Argument.duration · (some "key") "run time value") (some "0.5") =
        .ok (some (.finite (1 / 2))) ∧
      readOptional (Argument.duration · (some "key") "delay value") (some "0.25") =
        .ok (some (.finite (1 / 4))) ∧
      (tap {} [42, 30, 30] (some 3) (some (.finite (1 / 2)))
        (some (.finite (1 / 4)))).exec resting = (.ok 2, s') ∧
      s'.device = store {} (chord [42, 30, 30] ++ chord [42, 30, 30]) resting.device ∧
      held 30 true (chord [42, 30, 30] ++ chord [42, 30, 30]) = false := by
  have hcount : readOptional (Argument.positive · (some "key") "repeat value") (some "3") =
      .ok (some 3) := by decide +kernel
  have htime : readOptional (Argument.duration · (some "key") "run time value") (some "0.5") =
      .ok (some (.finite (1 / 2))) := by decide +kernel
  have hdelay : readOptional (Argument.duration · (some "key") "delay value") (some "0.25") =
      .ok (some (.finite (1 / 4))) := by decide +kernel
  have hkeyDelay : Argument.IsDuration ({} : Controls).keyDelay := by
    unfold Argument.IsDuration
    decide +kernel
  have htwo : (Binary64.finite (1 / 2) / .finite (1 / 4)).truncate = .ok 2 := by decide +kernel
  obtain ⟨n, quotient, hquotient, hn, -, ⟨s', hexec, hdevice⟩, -, hheld, -⟩ :=
    taps_are_balanced Recorder.unfailing punctual_exact {} hkeyDelay [42, 30, 30] hcount htime
      hdelay (s := resting) rfl ⟨rfl, rfl⟩
  obtain rfl : quotient = some 2 := by
    cases quotient with
    | none => cases hquotient
    | some q =>
        have hq := htwo.symm.trans (Option.some.inj hquotient)
        cases hq
        rfl
  obtain rfl : n = 2 := Int.ofNat.inj hn
  exact ⟨s', hcount, htime, hdelay, hexec, hdevice, hheld 30 (by decide) true⟩

end Device

end InputScript
