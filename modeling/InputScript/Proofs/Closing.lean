import InputScript.Proofs.Log

/-!
# Closing a runner

A runner is asked to run tasks and to close, in any order and any number of times.  Runs make devices
and never destroy one; closing destroys the device that is there.  But a runner closes only once: a
device that a run makes after that is not destroyed by closing again, and stays.

## Main results

* `Runner.balanced_serveAll` — at every point the devices that were made and not destroyed are those
  that are there.
* `reopened_device_is_left` — a runner that was closed before leaves a device behind.
* `close_matches_creations` — closing leaves no device exactly if none was made since the runner was
  first closed.
-/

namespace InputScript

open Device (Sink Logged Entry)

variable {σ ω : Type}

/-! ## Requests -/

/-- What can be asked of a runner. -/
inductive Request
  | run (task : Task) (fuel : Nat)
  | close

namespace Runner

section

variable [Host σ] [Sink ω]

/-- The runner after a request, whatever came of it. -/
def serve (r : Runner σ ω) : Request → Runner σ ω
  | .run task fuel => (task.run fuel r).2
  | .close => r.close

/-- The runner after requests in a row. -/
def serveAll (r : Runner σ ω) (requests : List Request) : Runner σ ω := requests.foldl serve r

theorem serveAll_append (r : Runner σ ω) (before after : List Request) :
    r.serveAll (before ++ after) = (r.serveAll before).serveAll after :=
  List.foldl_append

/-- The calls on the sink of a runner that serves requests. -/
def calls (r : Runner σ ω) (requests : List Request) : List Entry :=
  (r.logged.serveAll requests).session.sink.log

end

/-! ## The log of a runner -/

section Log

variable [Sink ω]

theorem close_of_closed {r : Runner σ ω} (h : r.closed = true) : r.close = r := if_pos h

theorem close_of_not_closed {r : Runner σ ω} (h : r.closed = false) :
    r.close = { r with
      closed := true
      session := (Device.closeDevice.exec r.session).2 } :=
  if_neg (ne_true_of_eq_false h)

theorem unlogged_close (r : Runner σ (Logged ω)) : r.close.unlogged = r.unlogged.close := by
  cases hclosed : r.closed with
  | true =>
      have hclosed' : r.unlogged.closed = true := hclosed
      rw [close_of_closed hclosed, close_of_closed hclosed']
  | false =>
      have hclosed' : r.unlogged.closed = false := hclosed
      rw [close_of_not_closed hclosed, close_of_not_closed hclosed']
      cases hopen : r.session.isOpen with
      | true =>
          have hopen' : r.unlogged.session.isOpen = true := hopen
          rw [Device.exec_closeDevice_of_open hopen, Device.exec_closeDevice_of_open hopen']
          rfl
      | false =>
          have hopen' : r.unlogged.session.isOpen = false := hopen
          rw [Device.exec_closeDevice_of_closed hopen, Device.exec_closeDevice_of_closed hopen']
          rfl

/-- Requests are served in the same way with and without the log. -/
theorem unlogged_serveAll [Host σ] (r : Runner σ (Logged ω)) (requests : List Request) :
    (r.serveAll requests).unlogged = r.unlogged.serveAll requests := by
  induction requests generalizing r with
  | nil => rfl
  | cons request requests ih =>
      have hserve : (r.serve request).unlogged = r.unlogged.serve request := by
        cases request with
        | run task fuel => exact (task.run_logged fuel r).2
        | close => exact unlogged_close r
      show ((r.serve request).serveAll requests).unlogged =
        (r.unlogged.serve request).serveAll requests
      rw [ih, hserve]

theorem isOpen_serveAll [Host σ] (r : Runner σ ω) (requests : List Request) :
    (r.serveAll requests).session.isOpen = (r.logged.serveAll requests).session.isOpen := by
  have hunlogged : (r.logged.serveAll requests).unlogged = r.serveAll requests :=
    unlogged_serveAll r.logged requests
  rw [← hunlogged]
  rfl

end Log

/-! ## Devices that were made and destroyed -/

variable [Host σ] [Sink ω] {r : Runner σ (Logged ω)}

/-- The devices that were made and not destroyed are those that are there. -/
def Balanced (r : Runner σ (Logged ω)) : Prop :=
  Device.created r.session.sink.log =
    Device.destroyed r.session.sink.log + r.session.isOpen.toNat

/-- Each call of the sink keeps the balance, and none of a run destroys a device. -/
theorem simulation_balance (p : Profile) (n : Nat) :
    Simulation p (Holds fun s : Session σ (Logged ω) =>
      Device.created s.sink.log = n + s.isOpen.toNat ∧ Device.destroyed s.sink.log = n) := by
  refine (Lockstep.ofInvariant (fun h _ => h) ?_ ?_ ?_).simulation
  · rintro s e ⟨hcreated, hdestroyed⟩ - hrefused
    have hlog : (s.refused p e).sink.log = s.sink.log ++ [.create (.error e)] :=
      (Device.log_asked p s.sink).trans (by rw [hrefused])
    rw [hlog, Device.created_concat, Device.destroyed_concat]
    exact ⟨hcreated, hdestroyed⟩
  · rintro s ⟨hcreated, hdestroyed⟩ hopen hmade
    have hlog : (s.created p).sink.log = s.sink.log ++ [.create (.ok ())] :=
      (Device.log_asked p s.sink).trans (by rw [hmade])
    rw [hopen, Bool.toNat_false] at hcreated
    rw [hlog, Device.created_concat, Device.destroyed_concat, hcreated]
    exact ⟨rfl, hdestroyed⟩
  · rintro s ⟨hcreated, hdestroyed⟩ - e
    have hlog : (s.wrote e).sink.log = s.sink.log ++ [.write e _] := Device.log_write e s.sink
    rw [hlog, Device.created_concat, Device.destroyed_concat]
    exact ⟨hcreated, hdestroyed⟩

/-- A run keeps the balance and destroys nothing. -/
theorem balanced_run (h : r.Balanced) (task : Task) (fuel : Nat) :
    Balanced (task.run fuel r).2 ∧
      Device.destroyed (task.run fuel r).2.session.sink.log =
        Device.destroyed r.session.sink.log := by
  obtain ⟨hcreated, hdestroyed⟩ := task.invariant_run fuel r
    (simulation_balance r.settings.device (Device.destroyed r.session.sink.log)) ⟨h, rfl⟩
  refine ⟨?_, hdestroyed⟩
  rw [Balanced, hdestroyed]
  exact hcreated

omit [Host σ] in
/-- A runner that is closed for the first time has no device. -/
theorem isOpen_close (hclosed : r.closed = false) : r.close.session.isOpen = false := by
  rw [close_of_not_closed hclosed]
  cases hopen : r.session.isOpen with
  | true => rw [Device.exec_closeDevice_of_open hopen]; rfl
  | false =>
      rw [Device.exec_closeDevice_of_closed hopen]
      exact hopen

omit [Host σ] in
theorem balanced_close (h : r.Balanced) : r.close.Balanced := by
  cases hclosed : r.closed with
  | true =>
      rw [close_of_closed hclosed]
      exact h
  | false =>
      rw [close_of_not_closed hclosed]
      unfold Balanced at h ⊢
      cases hopen : r.session.isOpen with
      | true =>
          have hlog : r.session.destroyed.sink.log = r.session.sink.log ++ [.destroy _] :=
            Device.log_destroy r.session.sink
          rw [hopen, Bool.toNat_true] at h
          rw [Device.exec_closeDevice_of_open hopen]
          show Device.created r.session.destroyed.sink.log =
            Device.destroyed r.session.destroyed.sink.log + 0
          rw [hlog, Device.created_concat, Device.destroyed_concat, h]
          rfl
      | false =>
          rw [hopen] at h
          rw [Device.exec_closeDevice_of_closed hopen, hopen]
          exact h

/-- The balance is kept whatever is asked of the runner. -/
theorem balanced_serveAll (h : r.Balanced) (requests : List Request) :
    (r.serveAll requests).Balanced := by
  induction requests generalizing r with
  | nil => exact h
  | cons request requests ih =>
      refine ih (r := r.serve request) ?_
      cases request with
      | run task fuel => exact (balanced_run h task fuel).1
      | close => exact balanced_close h

/-- A runner that was closed stays so, and destroys nothing any more. -/
theorem serveAll_of_closed (h : r.Balanced) (hclosed : r.closed = true) (requests : List Request) :
    (r.serveAll requests).closed = true ∧
      Device.destroyed (r.serveAll requests).session.sink.log =
        Device.destroyed r.session.sink.log := by
  induction requests generalizing r with
  | nil => exact ⟨hclosed, rfl⟩
  | cons request requests ih =>
      show ((r.serve request).serveAll requests).closed = true ∧
        Device.destroyed ((r.serve request).serveAll requests).session.sink.log = _
      cases request with
      | run task fuel =>
          obtain ⟨hbalanced, hdestroyed⟩ := balanced_run h task fuel
          have hstill : (task.run fuel r).2.closed = true := by
            rw [task.runner_run fuel r]
            exact hclosed
          rw [← hdestroyed]
          exact ih hbalanced hstill
      | close =>
          have hserve : r.serve .close = r := close_of_closed hclosed
          rw [hserve]
          exact ih h hclosed

theorem closed_serveAll (hclosed : r.closed = false) {requests : List Request}
    (hrequests : .close ∉ requests) : (r.serveAll requests).closed = false := by
  induction requests generalizing r with
  | nil => exact hclosed
  | cons request requests ih =>
      obtain ⟨hfirst, hrest⟩ := List.ne_and_not_mem_of_not_mem_cons hrequests
      refine ih (r := r.serve request) ?_ hrest
      cases request with
      | run task fuel =>
          show (task.run fuel r).2.closed = false
          rw [task.runner_run fuel r]
          exact hclosed
      | close => exact absurd rfl hfirst

omit [Host σ] in
theorem closed_close (r : Runner σ (Logged ω)) : r.close.closed = true := by
  cases hclosed : r.closed with
  | true =>
      rw [close_of_closed hclosed]
      exact hclosed
  | false => rw [close_of_not_closed hclosed]

/-- Since a runner was first closed, as many devices were made as are there; and it is closed. -/
theorem created_since_close (h : r.Balanced) (hclosed : r.closed = false) {before : List Request}
    (hfirst : .close ∉ before) (later : List Request) :
    (r.serveAll (before ++ .close :: later)).closed = true ∧
      Device.created (r.serveAll (before ++ .close :: later)).session.sink.log =
        Device.created (r.serveAll (before ++ [.close])).session.sink.log +
          (r.serveAll (before ++ .close :: later)).session.isOpen.toNat := by
  rw [serveAll_append, serveAll_append]
  show ((r.serveAll before).close.serveAll later).closed = true ∧
    Device.created ((r.serveAll before).close.serveAll later).session.sink.log =
      Device.created (r.serveAll before).close.session.sink.log + _
  have hbefore : (r.serveAll before).close.Balanced := balanced_close (balanced_serveAll h before)
  have hafter : ((r.serveAll before).close.serveAll later).Balanced := balanced_serveAll hbefore later
  obtain ⟨hstill, hdestroyed⟩ := serveAll_of_closed hbefore (closed_close _) later
  have hgone := isOpen_close (closed_serveAll hclosed hfirst)
  unfold Balanced at hbefore hafter
  rw [hgone, Bool.toNat_false] at hbefore
  refine ⟨hstill, ?_⟩
  show _ = _ + ((r.serveAll before).close.serveAll later).session.isOpen.toNat
  omega

/-- A device is left by closing exactly if one was made since the runner was first closed. -/
theorem isOpen_close_iff (h : r.Balanced) (hclosed : r.closed = false) (requests : List Request) :
    (r.serveAll (requests ++ [.close])).session.isOpen = false ↔
      ∀ before later, requests = before ++ .close :: later → .close ∉ before →
        Device.created (r.serveAll requests).session.sink.log =
          Device.created (r.serveAll (before ++ [.close])).session.sink.log := by
  have hlast : r.serveAll (requests ++ [.close]) = (r.serveAll requests).close :=
    serveAll_append _ _ _
  by_cases hmem : .close ∈ requests
  · -- The runner was closed before, so that closing it again does nothing.
    have hsince : ∀ before later, requests = before ++ .close :: later → .close ∉ before →
        (r.serveAll (requests ++ [.close])).session.isOpen =
            (r.serveAll requests).session.isOpen ∧
          Device.created (r.serveAll requests).session.sink.log =
            Device.created (r.serveAll (before ++ [.close])).session.sink.log +
              (r.serveAll requests).session.isOpen.toNat := by
      rintro before later rfl hfirst
      obtain ⟨hstill, hcreated⟩ := created_since_close h hclosed hfirst later
      rw [hlast, close_of_closed hstill]
      exact ⟨rfl, hcreated⟩
    constructor
    · intro hgone before later heq hfirst
      obtain ⟨hsame, hcreated⟩ := hsince before later heq hfirst
      rw [← hsame, hgone] at hcreated
      exact hcreated
    · intro hnone
      obtain ⟨before, later, heq, hfirst⟩ := List.eq_append_cons_of_mem hmem
      obtain ⟨hsame, hcreated⟩ := hsince before later heq hfirst
      have hnew := hnone before later heq hfirst
      rw [hsame]
      cases hopen : (r.serveAll requests).session.isOpen with
      | false => rfl
      | true =>
          rw [hopen, Bool.toNat_true] at hcreated
          omega
  · constructor
    · rintro - before later rfl -
      exact absurd (List.mem_append_right before List.mem_cons_self) hmem
    · intro _
      rw [hlast]
      exact isOpen_close (closed_serveAll hclosed hmem)

end Runner

variable [Host σ] [Sink ω]

/-- **What closing a runner leaves.**  Let a runner that was not closed, and has no device, serve any
requests, runs of any outcome and closings in any order, and then be closed.  The devices that were
made are those that were destroyed, and the one that is there.  No device is there, and every one
that was made was destroyed once, exactly if none was made between the first time that the runner
was closed and now. -/
theorem close_matches_creations (requests : List Request) (r : Runner σ ω)
    (hclosed : r.closed = false) (hopen : r.session.isOpen = false) :
    Device.created (r.calls (requests ++ [.close])) =
        Device.destroyed (r.calls (requests ++ [.close])) +
          (r.serveAll (requests ++ [.close])).session.isOpen.toNat ∧
      ((r.serveAll (requests ++ [.close])).session.isOpen = false ∧
          Device.created (r.calls (requests ++ [.close])) =
            Device.destroyed (r.calls (requests ++ [.close])) ↔
        ∀ before later, requests = before ++ .close :: later → .close ∉ before →
          Device.created (r.calls requests) = Device.created (r.calls (before ++ [.close]))) := by
  have hstart : r.logged.Balanced := by
    show 0 = 0 + r.session.isOpen.toNat
    rw [hopen]
    rfl
  have hbalanced := Runner.balanced_serveAll hstart (requests ++ [.close])
  have hiff := Runner.isOpen_close_iff hstart hclosed requests
  rw [Runner.isOpen_serveAll]
  refine ⟨hbalanced, ?_⟩
  unfold Runner.calls
  rw [← hiff]
  refine ⟨And.left, fun hgone => ⟨hgone, ?_⟩⟩
  rw [Runner.Balanced, hgone] at hbalanced
  exact hbalanced

/-- The device is opened. -/
def opening : Request := .run (.command ["open"]) 1

/-- A device that is opened after the runner was closed is left when it is closed again. -/
theorem reopened_device_is_left :
    (newRunner.serveAll [opening, .close, opening, .close]).session.isOpen = true ∧
      (newRunner.serveAll [opening, .close, opening, .close]).session.sink.created = 2 ∧
      (newRunner.serveAll [opening, .close, opening, .close]).session.sink.destroyed = 1 := by
  decide +kernel

theorem close_matches_creations_opening :
    newRunner.closed = false ∧ newRunner.session.isOpen = false ∧
      (newRunner.serveAll [opening, .close, .run (.command ["echo", "done"]) 1, .close]).session.isOpen
        = false ∧
      ¬ ((newRunner.serveAll [opening, .close, opening, .close]).session.isOpen = false ∧
        Device.created (newRunner.calls [opening, .close, opening, .close]) =
          Device.destroyed (newRunner.calls [opening, .close, opening, .close])) := by
  refine ⟨rfl, rfl, ?_, ?_⟩
  · refine ((close_matches_creations [opening, .close, .run (.command ["echo", "done"]) 1] newRunner rfl
      rfl).2.mpr ?_).1
    intro before later heq hfirst
    rcases before with _ | ⟨request, _ | ⟨request', before⟩⟩
    · cases heq
    · cases heq
      decide +kernel
    · obtain ⟨-, hrest⟩ := List.cons.inj heq
      obtain ⟨rfl, -⟩ := List.cons.inj hrest
      exact absurd (List.mem_cons_of_mem _ List.mem_cons_self) hfirst
  · intro hmatched
    have hnone := (close_matches_creations [opening, .close, opening] newRunner rfl rfl).2.mp hmatched
    have htwo : ¬ Device.created (newRunner.calls [opening, .close, opening]) =
        Device.created (newRunner.calls [opening, .close]) := by decide +kernel
    exact htwo (hnone [opening] [opening] rfl (by simp [opening]))

end InputScript
