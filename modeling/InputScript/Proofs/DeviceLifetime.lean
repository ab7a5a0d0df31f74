import InputScript.Proofs.Handle
import InputScript.Proofs.Validation

/-!
# The lifetime of the device

The handle opens the device by itself, at the first primitive that needs it; opening may be refused,
a write may fail, and so may closing.  This module follows the device through any primitives, whatever
they come to.

What a primitive does is told by its deeds: the device is created, is given time to settle, is
written to, or is destroyed.  The deeds of a primitive are determined by the handle that it finds
(`Primitive.deeds`), and the handle that it leaves is the one after its deeds (`handle_act`).  The
device goes through phases, each deed has its place in one of them (`Step`), and between two
primitives the device is gone or ready; so primitives can be put in a row (`Path.append`).

## Main results

* `handle_act` — a primitive does its deeds.
* `path_trace` — primitives in a row do nothing that is out of order.
* `device_lifetime` — what that means for the life of the device.
-/

namespace InputScript

open Device (Sink Event)

/-! ## Deeds -/

namespace Device

/-- The part of a session that the device is about. -/
structure Handle (σ ω : Type) where
  host : σ
  sink : ω
  isOpen : Bool

/-- What can be done to the device. -/
inductive Deed
  | create
  | settle
  | write (e : Event)
  | destroy
deriving DecidableEq, Repr

variable {σ ω : Type} [Host σ] [Sink ω]

/-- Whether the sink makes the device when it is asked to. -/
def grants (p : Profile) (w : ω) : Bool :=
  match (asked p w).result with
  | .ok () => true
  | .error _ => false

/-- The handle after a deed. -/
def Deed.effect (p : Profile) : Deed → Handle σ ω → Handle σ ω
  | .create, h => { h with sink := (asked p h.sink).sink, isOpen := grants p h.sink || h.isOpen }
  | .settle, h => { h with host := (waitFor p.settleTime h.host).2 }
  | .write e, h => { h with sink := (Sink.write e h.sink).sink }
  | .destroy, h => { h with sink := (Sink.destroy h.sink).sink, isOpen := false }

namespace Handle

/-- The handle after deeds. -/
def after (p : Profile) (h : Handle σ ω) (deeds : List Deed) : Handle σ ω :=
  deeds.foldl (fun h d => d.effect p h) h

theorem after_append (p : Profile) (h : Handle σ ω) (xs ys : List Deed) :
    h.after p (xs ++ ys) = (h.after p xs).after p ys :=
  List.foldl_append

/-- How many devices were created by deeds. -/
def creations (p : Profile) (h : Handle σ ω) : List Deed → Nat
  | [] => 0
  | .create :: deeds =>
    (if grants p h.sink then 1 else 0) + creations p (Deed.create.effect p h) deeds
  | d :: deeds => creations p (d.effect p h) deeds

/-- Only a creation counts. -/
theorem creations_cons_of_ne {p : Profile} {h : Handle σ ω} {d : Deed} (hd : d ≠ .create)
    (deeds : List Deed) : h.creations p (d :: deeds) = (d.effect p h).creations p deeds := by
  cases d with
  | create => exact absurd rfl hd
  | settle => rfl
  | write e => rfl
  | destroy => rfl

end Handle

/-! ## Primitives -/

/-- What can be asked of the handle. -/
inductive Primitive
  | openDevice
  | closeDevice
  | sync
  | key (code : Int) (pressed ends : Bool)
  | relative (axis : Int) (delta : Binary64) (ends : Bool) (verb : Option String)
  | absolute (axis : Int) (percent : Binary64) (ends : Bool) (verb : Option String)

/-- The writes of events in order, up to the first that fails. -/
def writing (w : ω) : List Event → List Deed
  | [] => []
  | e :: events =>
    .write e :: match (Sink.write e w).result with
      | .ok () => writing (Sink.write e w).sink events
      | .error _ => []

/-- The deeds by which events are delivered.  A wait that does not return is the last of them. -/
def Handle.delivering (p : Profile) (h : Handle σ ω) (events : List Event) : List Deed :=
  if h.isOpen then writing h.sink events
  else if grants p h.sink then
    .create :: .settle ::
      if (waitFor p.settleTime h.host).1 then writing (asked p h.sink).sink events else []
  else [.create]

namespace Primitive

/-- The action of a primitive. -/
def act (p : Profile) : Primitive → Act σ ω Unit
  | .openDevice => Device.openDevice p
  | .closeDevice => Device.closeDevice
  | .sync => Device.sync p
  | .key code pressed ends => Device.key p code pressed ends
  | .relative axis delta ends verb => Device.relative p axis delta ends verb
  | .absolute axis percent ends verb => Device.absolute p axis percent ends verb

/-- The deeds of a primitive.  A value that is out of range is found out before any. -/
def deeds (p : Profile) (h : Handle σ ω) : Primitive → List Deed
  | .openDevice => h.delivering p []
  | .closeDevice => if h.isOpen then [.destroy] else []
  | .sync => h.delivering p [.sync]
  | .key code pressed ends => h.delivering p (framed [.key code pressed] ends)
  | .relative axis delta ends verb =>
    match relativeEvents axis delta verb with
    | .ok events => h.delivering p (framed events ends)
    | .error _ => []
  | .absolute axis percent ends verb =>
    match scaleAbsolute percent verb with
    | .ok value => h.delivering p (framed [.absolute axis value] ends)
    | .error _ => []

end Primitive

/-- The session after primitives in a row, each whatever became of those before it. -/
def performAll (p : Profile) (ops : List Primitive) (s : Session σ ω) : Session σ ω :=
  ops.foldl (fun s op => ((op.act p).exec s).2) s

/-- The deeds of primitives in a row. -/
def trace (p : Profile) : List Primitive → Handle σ ω → List Deed
  | [], _ => []
  | op :: ops, h => op.deeds p h ++ trace p ops (h.after p (op.deeds p h))

end Device

/-- The part of the session that the device is about. -/
def Session.handle {σ ω : Type} (s : Session σ ω) : Device.Handle σ ω := ⟨s.host, s.sink, s.isOpen⟩

namespace Device

variable {σ ω : Type} [Host σ] [Sink ω] {p : Profile} {h : Handle σ ω}

/-! ## Primitives do their deeds -/

theorem handle_emitAll (p : Profile) (events : List Event) (s : Session σ ω) :
    ((emitAll events).exec s).2.handle = s.handle.after p (writing s.sink events) := by
  induction events generalizing s with
  | nil => rfl
  | cons e events ih =>
      rw [emitAll, Act.exec_bind, exec_emit, writing]
      rcases (Sink.write e s.sink).result with error | _
      · rfl
      · exact ih (s.wrote e)

omit [Host σ] in
theorem grants_of_error {w : ω} {e : SystemError} (hrefused : (asked p w).result = .error e) :
    grants p w = false := by
  rw [grants, hrefused]

omit [Host σ] in
theorem grants_of_ok {w : ω} (hmade : (asked p w).result = .ok ()) : grants p w = true := by
  rw [grants, hmade]

theorem effect_create_of_refused (hgrants : grants p h.sink = false) :
    Deed.create.effect p h = { h with sink := (asked p h.sink).sink } := by
  rw [Deed.effect, hgrants, Bool.false_or]

theorem effect_create_of_granted (hgrants : grants p h.sink = true) :
    Deed.create.effect p h = { h with sink := (asked p h.sink).sink, isOpen := true } := by
  rw [Deed.effect, hgrants, Bool.true_or]

theorem handle_deliver (p : Profile) (events : List Event) (s : Session σ ω) :
    ((deliver p events).exec s).2.handle = s.handle.after p (s.handle.delivering p events) := by
  unfold deliver Handle.delivering
  rcases exec_openDevice_cases p s with
    ⟨hopen, hexec⟩ | ⟨hopen, e, hrefused, hexec⟩ | ⟨hopen, hmade, hexec⟩
  · rw [Act.exec_bind_of_ok hexec, show s.handle.isOpen = true from hopen, if_pos rfl]
    exact handle_emitAll p events s
  · have hgrants : grants p s.handle.sink = false := grants_of_error hrefused
    rw [Act.exec_bind_of_error hexec, show s.handle.isOpen = false from hopen,
      if_neg Bool.false_ne_true, hgrants, if_neg Bool.false_ne_true]
    exact (effect_create_of_refused hgrants).symm
  · have hgrants : grants p s.handle.sink = true := grants_of_ok hmade
    have hcreated := effect_create_of_granted hgrants
    rw [show s.handle.isOpen = false from hopen, if_neg Bool.false_ne_true, hgrants, if_pos rfl]
    rw [Act.exec_wait] at hexec
    cases hreturns : (waitFor p.settleTime s.handle.host).1 with
    | true =>
        have hok : (openDevice p).exec s = (.ok (), _) :=
          hexec.trans (congrArg (Prod.mk · _) (if_pos hreturns))
        rw [Act.exec_bind_of_ok hok, handle_emitAll p, if_pos rfl]
        show _ = Handle.after p (Deed.settle.effect p (Deed.create.effect p s.handle)) _
        rw [hcreated]
        rfl
    | false =>
        have herror : (openDevice p).exec s = (.error (.crash .endless), _) :=
          hexec.trans (congrArg (Prod.mk · _) (if_neg (ne_true_of_eq_false hreturns)))
        rw [Act.exec_bind_of_error herror, if_neg Bool.false_ne_true]
        show _ = Deed.settle.effect p (Deed.create.effect p s.handle)
        rw [hcreated]
        rfl

/-- A primitive does its deeds. -/
theorem handle_act (p : Profile) (op : Primitive) (s : Session σ ω) :
    ((op.act p).exec s).2.handle = s.handle.after p (op.deeds p s.handle) := by
  cases op with
  | openDevice =>
      have hnil : ((deliver p []).exec s).2 = ((openDevice p).exec s).2 := by
        rw [deliver, Act.exec_bind]
        rcases (openDevice p).exec s with ⟨_ | _, t⟩ <;> rfl
      have hdeliver := handle_deliver p [] s
      rw [hnil] at hdeliver
      exact hdeliver
  | closeDevice =>
      show (closeDevice.exec s).2.handle = s.handle.after p (if s.isOpen then [.destroy] else [])
      cases hopen : s.isOpen with
      | true =>
          rw [exec_closeDevice_of_open hopen]
          rfl
      | false =>
          rw [exec_closeDevice_of_closed hopen]
          rfl
  | sync => exact handle_deliver p _ s
  | key code pressed ends => exact handle_deliver p _ s
  | relative axis delta ends verb =>
      unfold Primitive.act Primitive.deeds relative
      dsimp only
      cases relativeEvents axis delta verb with
      | ok events => exact handle_deliver p _ s
      | error f => rfl
  | absolute axis percent ends verb =>
      unfold Primitive.act Primitive.deeds absolute
      dsimp only
      cases scaleAbsolute percent verb with
      | ok value => exact handle_deliver p _ s
      | error f => rfl

theorem handle_performAll (p : Profile) (ops : List Primitive) (s : Session σ ω) :
    (performAll p ops s).handle = s.handle.after p (trace p ops s.handle) := by
  induction ops generalizing s with
  | nil => rfl
  | cons op ops ih =>
      rw [trace, Handle.after_append, ← handle_act]
      exact ih ((op.act p).exec s).2

/-! ## Deeds in order -/

/-- Where the device stands in its life. -/
inductive Phase
  | gone
  /-- It was made, and has not settled. -/
  | fresh
  | ready
deriving DecidableEq, Repr

/-- Whether there is a device. -/
def Phase.isOpen : Phase → Bool
  | .gone => false
  | .fresh | .ready => true

/-- The phase between two primitives. -/
def Handle.phase (h : Handle σ ω) : Phase := if h.isOpen then .ready else .gone

/-- A deed in its place. -/
inductive Step (p : Profile) (h : Handle σ ω) : Phase → Deed → Phase → Prop
  | refused (hgrants : grants p h.sink = false) : Step p h .gone .create .gone
  | created (hgrants : grants p h.sink = true) : Step p h .gone .create .fresh
  | settled : Step p h .fresh .settle .ready
  | wrote (e : Event) : Step p h .ready (.write e) .ready
  | destroyed : Step p h .ready .destroy .gone

/-- Deeds that follow one another in order. -/
inductive Path (p : Profile) : Phase → Handle σ ω → List Deed → Phase → Prop
  | nil (φ : Phase) (h : Handle σ ω) : Path p φ h [] φ
  | cons {φ φ₁ φ' : Phase} {h : Handle σ ω} {d : Deed} {deeds : List Deed}
      (hstep : Step p h φ d φ₁) (hrest : Path p φ₁ (d.effect p h) deeds φ') :
      Path p φ h (d :: deeds) φ'

namespace Path

variable {φ φ' φ'' : Phase} {xs ys deeds : List Deed}

theorem append (hxs : Path p φ h xs φ') (hys : Path p φ' (h.after p xs) ys φ'') :
    Path p φ h (xs ++ ys) φ'' := by
  induction hxs with
  | nil φ h => exact hys
  | cons hstep _ ih => exact .cons hstep (ih hys)

theorem split (hpath : Path p φ h (xs ++ ys) φ'') :
    ∃ φ', Path p φ h xs φ' ∧ Path p φ' (h.after p xs) ys φ'' := by
  induction xs generalizing φ h with
  | nil => exact ⟨φ, .nil φ h, hpath⟩
  | cons d xs ih =>
      cases hpath with
      | cons hstep hrest =>
          obtain ⟨φ', hxs, hys⟩ := ih hrest
          exact ⟨φ', .cons hstep hxs, hys⟩

/-- The phase tells whether the handle is open. -/
theorem isOpen_step {d : Deed} (hstep : Step p h φ d φ') (hφ : φ.isOpen = h.isOpen) :
    φ'.isOpen = (d.effect p h).isOpen := by
  cases hstep with
  | refused hgrants =>
      rw [effect_create_of_refused hgrants]
      exact hφ
  | created hgrants => rw [effect_create_of_granted hgrants]; rfl
  | settled => exact hφ
  | wrote e => exact hφ
  | destroyed => rfl

theorem isOpen_after (hpath : Path p φ h deeds φ') (hφ : φ.isOpen = h.isOpen) :
    φ'.isOpen = (h.after p deeds).isOpen := by
  induction hpath with
  | nil φ h => exact hφ
  | cons hstep _ ih => exact ih (isOpen_step hstep hφ)

theorem eq_phase (hpath : Path p φ h deeds φ') (hφ : φ.isOpen = h.isOpen) (hfresh : φ' ≠ .fresh) :
    φ' = (h.after p deeds).phase := by
  rw [Handle.phase, ← hpath.isOpen_after hφ]
  cases φ' with
  | gone => rfl
  | fresh => exact absurd rfl hfresh
  | ready => rfl

/-- What was created and not destroyed is there. -/
theorem balanced (hpath : Path p φ h deeds φ') :
    h.creations p deeds + φ.isOpen.toNat = deeds.count .destroy + φ'.isOpen.toNat := by
  induction hpath with
  | nil φ h => simp [Handle.creations]
  | cons hstep _ ih =>
      cases hstep with
      | refused hgrants =>
          rw [Handle.creations, hgrants, if_neg Bool.false_ne_true, Nat.zero_add, ih,
            List.count_cons_of_ne (by decide)]
      | created hgrants =>
          rw [Handle.creations, hgrants, if_pos rfl, List.count_cons_of_ne (by decide)]
          simp only [Phase.isOpen, Bool.toNat_true, Bool.toNat_false] at ih ⊢
          omega
      | settled =>
          rw [Handle.creations_cons_of_ne (by decide), List.count_cons_of_ne (by decide)]
          exact ih
      | wrote e =>
          rw [Handle.creations_cons_of_ne (by simp), List.count_cons_of_ne (by simp)]
          exact ih
      | destroyed =>
          rw [Handle.creations_cons_of_ne (by decide), List.count_cons_self]
          simp only [Phase.isOpen, Bool.toNat_true, Bool.toNat_false] at ih ⊢
          omega

end Path

/-- Writing leaves the device as it is. -/
theorem path_writing (h : Handle σ ω) (events : List Event) :
    Path p .ready h (writing h.sink events) .ready := by
  induction events generalizing h with
  | nil => exact .nil _ h
  | cons e events ih =>
      refine .cons (.wrote e) ?_
      cases (Sink.write e h.sink).result with
      | error error => exact .nil _ _
      | ok _ => exact ih (Deed.effect p (.write e) h)

theorem path_delivering (p : Profile) (h : Handle σ ω) (events : List Event) :
    ∃ φ, φ ≠ .fresh ∧ Path p h.phase h (h.delivering p events) φ := by
  unfold Handle.delivering Handle.phase
  by_cases hopen : h.isOpen
  · rw [if_pos hopen, if_pos hopen]
    exact ⟨.ready, Phase.noConfusion, path_writing h events⟩
  · rw [if_neg hopen, if_neg hopen]
    by_cases hgrants : grants p h.sink
    · rw [if_pos hgrants]
      refine ⟨.ready, Phase.noConfusion, .cons (.created hgrants) (.cons .settled ?_)⟩
      split
      · exact path_writing (Deed.effect p .settle (Deed.effect p .create h)) events
      · exact .nil _ _
    · rw [if_neg hgrants]
      exact ⟨.gone, Phase.noConfusion, .cons (.refused (eq_false_of_ne_true hgrants)) (.nil _ _)⟩

omit [Host σ] [Sink ω] in
theorem isOpen_phase (h : Handle σ ω) : h.phase.isOpen = h.isOpen := by
  unfold Handle.phase
  cases h.isOpen <;> rfl

omit [Host σ] [Sink ω] in
theorem phase_ne_fresh (h : Handle σ ω) : h.phase ≠ .fresh := by
  unfold Handle.phase
  split <;> nofun

theorem path_deeds (p : Profile) (h : Handle σ ω) (op : Primitive) :
    ∃ φ, φ ≠ .fresh ∧ Path p h.phase h (op.deeds p h) φ := by
  have hnil : ∃ φ, φ ≠ .fresh ∧ Path p h.phase h [] φ := ⟨h.phase, phase_ne_fresh h, .nil _ h⟩
  cases op with
  | openDevice => exact path_delivering p h []
  | closeDevice =>
      show ∃ φ, φ ≠ .fresh ∧ Path p h.phase h (if h.isOpen then [.destroy] else []) φ
      by_cases hopen : h.isOpen
      · rw [if_pos hopen, Handle.phase, if_pos hopen]
        exact ⟨.gone, nofun, .cons .destroyed (.nil _ _)⟩
      · rw [if_neg hopen]
        exact hnil
  | sync => exact path_delivering p h _
  | key code pressed ends => exact path_delivering p h _
  | relative axis delta ends verb =>
      unfold Primitive.deeds
      dsimp only
      split
      · exact path_delivering p h _
      · exact hnil
  | absolute axis percent ends verb =>
      unfold Primitive.deeds
      dsimp only
      split
      · exact path_delivering p h _
      · exact hnil

/-- Primitives in a row do nothing that is out of order. -/
theorem path_trace (p : Profile) (ops : List Primitive) (h : Handle σ ω) :
    ∃ φ, φ ≠ .fresh ∧ Path p h.phase h (trace p ops h) φ := by
  induction ops generalizing h with
  | nil => exact ⟨h.phase, phase_ne_fresh h, .nil _ h⟩
  | cons op ops ih =>
      obtain ⟨φ, hfresh, hfirst⟩ := path_deeds p h op
      obtain rfl := hfirst.eq_phase (isOpen_phase h) hfresh
      obtain ⟨φ', hlast, hrest⟩ := ih (h.after p (op.deeds p h))
      exact ⟨φ', hlast, hfirst.append hrest⟩

/-! ## The life of the device -/

/-- How deeds follow one another, beginning with a handle that is closed. -/
structure Orderly (p : Profile) (h : Handle σ ω) (deeds : List Deed) : Prop where
  /-- At every point there is one device more created than destroyed if the handle is open, and as
  many otherwise. -/
  balanced : ∀ before after, deeds = before ++ after →
    h.creations p before = before.count .destroy + (h.after p before).isOpen.toNat
  /-- The device is written to only while the handle is open. -/
  open_of_write : ∀ before e after, deeds = before ++ .write e :: after →
    (h.after p before).isOpen = true
  /-- A device that was made settles before anything else is done. -/
  settles : ∀ before after, deeds = before ++ .create :: after →
    grants p (h.after p before).sink = true → ∃ rest, after = .settle :: rest
  /-- Nothing else settles. -/
  created_of_settle : ∀ before after, deeds = before ++ .settle :: after →
    ∃ earlier, before = earlier ++ [.create] ∧ grants p (h.after p earlier).sink = true
  /-- A device that was refused leaves the handle closed, and nothing is done but to ask again. -/
  refused : ∀ before after, deeds = before ++ .create :: after →
    grants p (h.after p before).sink = false →
      (h.after p (before ++ [.create])).isOpen = false ∧
        ∀ d rest, after = d :: rest → d = .create

/-- A device that is still to settle was made just now. -/
theorem Path.last_created {deeds : List Deed} (hpath : Path p .gone h deeds .fresh) :
    ∃ earlier, deeds = earlier ++ [.create] ∧ grants p (h.after p earlier).sink = true := by
  rcases List.eq_nil_or_concat deeds with rfl | ⟨earlier, d, hconcat⟩
  · cases hpath
  · rw [List.concat_eq_append] at hconcat
    subst hconcat
    obtain ⟨φ, -, hlast⟩ := hpath.split
    cases hlast with
    | cons hstep hrest =>
        cases hrest
        cases hstep with
        | created hgrants => exact ⟨earlier, rfl, hgrants⟩

theorem Path.orderly {deeds : List Deed} {φ : Phase} (hpath : Path p .gone h deeds φ)
    (hfresh : φ ≠ .fresh) (hclosed : h.isOpen = false) : Orderly p h deeds where
  balanced := by
    rintro before after rfl
    obtain ⟨φ', hbefore, -⟩ := hpath.split
    rw [← hbefore.isOpen_after hclosed.symm]
    exact hbefore.balanced
  open_of_write := by
    rintro before e after rfl
    obtain ⟨φ', hbefore, hafter⟩ := hpath.split
    rw [← hbefore.isOpen_after hclosed.symm]
    cases hafter with
    | cons hstep _ =>
        cases hstep
        rfl
  settles := by
    rintro before after rfl hgranted
    obtain ⟨φ', -, hafter⟩ := hpath.split
    rcases hafter with _ | ⟨_ | _, hrest⟩
    · next hgrants =>
        rw [hgranted] at hgrants
        cases hgrants
    · cases hrest with
      | nil => exact absurd rfl hfresh
      | cons hstep hrest =>
          cases hstep
          exact ⟨_, rfl⟩
  created_of_settle := by
    rintro before after rfl
    obtain ⟨φ', hbefore, hafter⟩ := hpath.split
    cases hafter with
    | cons hstep _ =>
        cases hstep
        exact hbefore.last_created
  refused := by
    rintro before after rfl hrefused
    obtain ⟨φ', hbefore, hafter⟩ := hpath.split
    rcases hafter with _ | ⟨_ | hgrants, hrest⟩
    · refine ⟨?_, ?_⟩
      · rw [Handle.after_append]
        show (Deed.effect p .create (h.after p before)).isOpen = false
        rw [effect_create_of_refused hrefused, ← hbefore.isOpen_after hclosed.symm]
        rfl
      · rintro d rest rfl
        cases hrest with
        | cons hstep _ => cases hstep <;> rfl
    · rw [hrefused] at hgrants
      cases hgrants

/-- **Device lifetime.**  Let primitives be performed one after another on a handle that is closed,
whatever the sink makes of them.  The handle that is left is the one after the deeds of the
primitives.  At every point among the deeds the devices that were created, less those that were
destroyed, are one if the handle is open and none otherwise; the device is written to only while the
handle is open; every device that was made settles, once and before anything is written to it; and a
device that was refused leaves the handle closed, with nothing written. -/
theorem device_lifetime (p : Profile) (ops : List Primitive) (s : Session σ ω)
    (hclosed : s.isOpen = false) :
    (performAll p ops s).handle = s.handle.after p (trace p ops s.handle) ∧
      Orderly p s.handle (trace p ops s.handle) := by
  obtain ⟨φ, hfresh, hpath⟩ := path_trace p ops s.handle
  have hgone : s.handle.phase = .gone := if_neg (ne_true_of_eq_false hclosed)
  rw [hgone] at hpath
  exact ⟨handle_performAll p ops s, hpath.orderly hfresh hclosed⟩

/-- A session whose sink refuses the first device, fails from the second write on, and fails to
destroy a device. -/
def faulty : Session Sandbox Recorder :=
  { Machine.idle with
    sink := { faults := { refusedCreations := 1, writeLimit := some 1, destroyFails := true } } }

/-- The device is refused, made, closed and made again; a value out of range stops the primitive
before all that. -/
def attempts : List Primitive :=
  [.relative 0 (.finite 3000000000) false none, .sync, .key 30 true true, .closeDevice, .closeDevice,
    .absolute 0 (.finite 50) true none]

theorem device_lifetime_faulty :
    faulty.isOpen = false ∧
      trace {} attempts faulty.handle =
        [.create, .create, .settle, .write (.key 30 true), .write .sync, .destroy,
          .create, .settle, .write (.absolute 0 500000)] ∧
      (performAll {} attempts faulty).handle = faulty.handle.after {}
        [.create, .create, .settle, .write (.key 30 true), .write .sync, .destroy,
          .create, .settle, .write (.absolute 0 500000)] ∧
      Orderly {} faulty.handle
        [.create, .create, .settle, .write (.key 30 true), .write .sync, .destroy,
          .create, .settle, .write (.absolute 0 500000)] := by
  have htrace : trace {} attempts faulty.handle =
      [.create, .create, .settle, .write (.key 30 true), .write .sync, .destroy,
        .create, .settle, .write (.absolute 0 500000)] := by decide +kernel
  have hlifetime := device_lifetime {} attempts faulty rfl
  rw [htrace] at hlifetime
  exact ⟨rfl, htrace, hlifetime⟩

end Device

end InputScript
