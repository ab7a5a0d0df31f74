import InputScript.Machine.Activation

/-!
# Frames and replays in step

An activation keeps its blocks on one stack and the loops it is replaying on another; a replay finds
its frame by the height of the block stack.  As long as the two stacks are `Aligned` these heights
carry no information: the innermost replay belongs to the innermost loop frame.  The lemmas below
replace each operation by height with one that follows the frames.

* `Aligned.loopAt?_eq` — the frame of the innermost replay is the innermost loop.
* `Aligned.setLoopAt_eq` — replacing it is `replaceLoop`.
* `Aligned.cutTo_eq` — cutting the stack below it is `outsideLoop`.
-/

namespace InputScript.Machine

variable {frames : List Frame}

/-- The replays, innermost first, are those of the loop frames, in order. -/
inductive Aligned : List Frame → List Replay → Prop
  | nil : Aligned [] []
  | cond {c : CondFrame} {frames : List Frame} {replays : List Replay} :
      Aligned frames replays → Aligned (.cond c :: frames) replays
  | loop {f : LoopFrame} {frames : List Frame} {replays : List Replay} {iterations : Nat} :
      Aligned frames replays →
      Aligned (.loop f :: frames) (⟨frames.length + 1, iterations⟩ :: replays)

/-- The loops among frames, innermost first. -/
def loopsOf (frames : List Frame) : List LoopFrame := frames.filterMap Frame.loop?

@[simp] theorem loopsOf_nil : loopsOf [] = [] := rfl

@[simp] theorem loopsOf_cond (c : CondFrame) (frames : List Frame) :
    loopsOf (.cond c :: frames) = loopsOf frames := rfl

@[simp] theorem loopsOf_loop (f : LoopFrame) (frames : List Frame) :
    loopsOf (.loop f :: frames) = f :: loopsOf frames := rfl

theorem loopsOf_append (above below : List Frame) :
    loopsOf (above ++ below) = loopsOf above ++ loopsOf below := List.filterMap_append

theorem Activation.loops_eq (a : Activation) : a.loops = loopsOf a.frames := rfl

/-- The frames with another frame in place of the innermost loop. -/
def replaceLoop (f : LoopFrame) : List Frame → List Frame
  | [] => []
  | .cond c :: frames => .cond c :: replaceLoop f frames
  | .loop _ :: frames => .loop f :: frames

/-- The frames around the innermost loop. -/
def outsideLoop : List Frame → List Frame
  | [] => []
  | .cond _ :: frames => outsideLoop frames
  | .loop _ :: frames => frames

theorem loopsOf_eq_cons {f : LoopFrame} {fs : List LoopFrame}
    (h : loopsOf frames = f :: fs) : loopsOf (outsideLoop frames) = fs := by
  induction frames with
  | nil => cases h
  | cons frame frames ih =>
      cases frame with
      | cond c => exact ih h
      | loop g =>
          cases h
          rfl

theorem loopsOf_replaceLoop {f g : LoopFrame} {fs : List LoopFrame}
    (h : loopsOf frames = g :: fs) : loopsOf (replaceLoop f frames) = f :: fs := by
  induction frames with
  | nil => cases h
  | cons frame frames ih =>
      cases frame with
      | cond c => exact ih h
      | loop g' =>
          cases h
          rfl

/-- Putting the innermost loop back changes nothing. -/
theorem replaceLoop_self {f : LoopFrame} {fs : List LoopFrame}
    (h : loopsOf frames = f :: fs) : replaceLoop f frames = frames := by
  induction frames with
  | nil => cases h
  | cons frame frames ih =>
      cases frame with
      | cond c => rw [replaceLoop, ih h]
      | loop g =>
          cases h
          rfl

/-! ## Frames at a height -/

namespace Activation

variable {a : Activation} {base : Nat}

/-- Entering a block does not move the frames below it. -/
theorem height_push_sub (frame : Frame) (h : base ≤ a.height) :
    (a.push frame).height - base = a.height - base + 1 := by
  show a.height + 1 - base = a.height - base + 1
  omega

theorem loopAt?_push (frame : Frame) (h : base ≤ a.height) :
    (a.push frame).loopAt? base = a.loopAt? base := by
  unfold loopAt?
  rw [height_push_sub frame h]
  rfl

theorem setLoopAt_push (frame : Frame) (h : base ≤ a.height) (g : LoopFrame) :
    (a.push frame).setLoopAt base g = (a.setLoopAt base g).push frame := by
  unfold setLoopAt
  rw [height_push_sub frame h]
  rfl

end Activation

/-! ## Frames of replays -/

namespace Aligned

variable {replays : List Replay} {replay : Replay}

theorem base_le (h : Aligned frames replays) : ∀ r ∈ replays, r.base ≤ frames.length := by
  induction h with
  | nil => simp
  | cond _ ih => exact fun r hr => Nat.le_succ_of_le (ih r hr)
  | loop _ ih =>
      refine List.forall_mem_cons.mpr ⟨Nat.le_refl _, fun r hr => Nat.le_succ_of_le (ih r hr)⟩

/-- There are as many replays as loops. -/
theorem length_eq (h : Aligned frames replays) : (loopsOf frames).length = replays.length := by
  induction h with
  | nil => rfl
  | cond _ ih => exact ih
  | loop _ ih => simp [ih]

theorem replays_eq_nil (h : Aligned frames replays) (hloops : loopsOf frames = []) :
    replays = [] := by
  have hlength := h.length_eq
  rw [hloops] at hlength
  exact List.length_eq_zero_iff.mp hlength.symm

theorem loops_eq_nil (h : Aligned frames []) : loopsOf frames = [] := by
  have hlen := h.length_eq
  exact List.length_eq_zero_iff.mp hlen

/-- The innermost replay has its loop, the innermost one.  It is as high as the frames around it. -/
theorem split (h : Aligned frames (replay :: replays)) :
    ∃ above f below, frames = above ++ .loop f :: below ∧ loopsOf frames = f :: loopsOf below ∧
      outsideLoop frames = below ∧ (∀ g, replaceLoop g frames = above ++ .loop g :: below) ∧
      replay.base = below.length + 1 ∧ frames.length = above.length + replay.base ∧
      Aligned below replays := by
  induction frames with
  | nil => cases h
  | cons frame frames ih =>
      cases h with
      | @cond c _ _ h =>
          obtain ⟨above, f, below, rfl, hloops, houtside, hreplace, hbase, hlength, hbelow⟩ := ih h
          refine ⟨.cond c :: above, f, below, rfl, hloops, houtside, fun g => ?_, hbase, ?_, hbelow⟩
          · rw [replaceLoop, hreplace, List.cons_append]
          · rw [List.length_cons, hlength, List.length_cons, Nat.add_right_comm]
      | @loop f _ _ _ h =>
          exact ⟨[], f, frames, rfl, rfl, rfl, fun _ => rfl, rfl, (Nat.zero_add _).symm, h⟩

theorem exists_loop (h : Aligned frames (replay :: replays)) :
    ∃ f fs, loopsOf frames = f :: fs := by
  obtain ⟨_, f, below, -, hloops, -⟩ := h.split
  exact ⟨f, _, hloops⟩

theorem outside (h : Aligned frames (replay :: replays)) :
    Aligned (outsideLoop frames) replays := by
  obtain ⟨_, _, _, -, -, rfl, -, -, -, hbelow⟩ := h.split
  exact hbelow

theorem base_eq (h : Aligned frames (replay :: replays)) :
    replay.base = (outsideLoop frames).length + 1 := by
  obtain ⟨_, _, _, -, -, rfl, -, hbase, -⟩ := h.split
  exact hbase

theorem replace (h : Aligned frames (replay :: replays)) (f : LoopFrame) (iterations : Nat) :
    Aligned (replaceLoop f frames) ({ replay with iterations } :: replays) := by
  induction frames with
  | nil => cases h
  | cons frame frames ih =>
      cases h with
      | cond h => exact .cond (ih h)
      | loop h => exact .loop h

theorem setCond (h : Aligned frames replays) {c c' : CondFrame} {rest : List Frame}
    (hframes : frames = .cond c :: rest) : Aligned (.cond c' :: rest) replays := by
  subst hframes
  cases h with
  | cond h => exact .cond h

/-! ### The frame of the innermost replay -/

/-- The frame at the height of the innermost replay is the innermost loop. -/
theorem getElem?_eq (h : Aligned frames (replay :: replays)) :
    frames[frames.length - replay.base]?.bind Frame.loop? = (loopsOf frames).head? := by
  obtain ⟨above, f, below, rfl, hloops, -, -, -, hlength, -⟩ := h.split
  rw [hlength, Nat.add_sub_cancel, hloops, List.getElem?_append_right (Nat.le_refl _), Nat.sub_self]
  rfl

theorem set_eq (h : Aligned frames (replay :: replays)) (f : LoopFrame) :
    frames.set (frames.length - replay.base) (.loop f) = replaceLoop f frames := by
  obtain ⟨above, g, below, rfl, -, -, hreplace, -, hlength, -⟩ := h.split
  rw [hlength, Nat.add_sub_cancel, hreplace, List.set_append_right _ _ (Nat.le_refl _), Nat.sub_self]
  rfl

theorem drop_eq (h : Aligned frames (replay :: replays)) :
    frames.drop (frames.length - (replay.base - 1)) = outsideLoop frames := by
  obtain ⟨above, f, below, rfl, -, houtside, -, hbase, hlength, -⟩ := h.split
  have hindex : (above ++ .loop f :: below).length - (replay.base - 1) = above.length + 1 := by
    omega
  rw [hindex, houtside, ← List.drop_drop, List.drop_left]
  rfl

variable {a : Activation}

theorem loopAt?_eq (h : Aligned a.frames (replay :: replays)) :
    a.loopAt? replay.base = a.loops.head? :=
  h.getElem?_eq

theorem setLoopAt_eq (h : Aligned a.frames (replay :: replays)) (f : LoopFrame) :
    a.setLoopAt replay.base f = { a with frames := replaceLoop f a.frames } := by
  unfold Activation.setLoopAt Activation.height
  rw [h.set_eq]

theorem cutTo_eq (h : Aligned a.frames (replay :: replays)) :
    a.cutTo (replay.base - 1) = { a with frames := outsideLoop a.frames } := by
  unfold Activation.cutTo Activation.height
  rw [h.drop_eq]

/-- Breaking out of the innermost replay is leaving the innermost loop. -/
theorem breakLoop_eq (h : Aligned a.frames (replay :: replays)) :
    a.breakLoop replay.base =
      (a.loops.head?.map LoopFrame.spent,
        { a with frames := outsideLoop a.frames, omission := none }) := by
  rw [Activation.breakLoop, h.loopAt?_eq, h.cutTo_eq]

theorem loopAt?_push (h : Aligned a.frames (replay :: replays)) (frame : Frame) :
    (a.push frame).loopAt? replay.base = a.loopAt? replay.base :=
  a.loopAt?_push frame (h.base_le replay List.mem_cons_self)

theorem setLoopAt_push (h : Aligned a.frames (replay :: replays)) (frame : Frame)
    (f : LoopFrame) :
    (a.push frame).setLoopAt replay.base f = (a.setLoopAt replay.base f).push frame :=
  a.setLoopAt_push frame (h.base_le replay List.mem_cons_self) f

end Aligned

end InputScript.Machine
