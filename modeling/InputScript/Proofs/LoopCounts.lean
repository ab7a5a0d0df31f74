import InputScript.Proofs.ControlState

/-!
# How often a loop runs its body

A loop is known by the height of the stack at which its frame stands.  The end of an iteration counts
down the frame that it finds there, so a loop runs its body as often as its line says only if this
frame is its own.  It is so whatever the shell makes of the lines: a branch may stay open over the end
of a body and be taken off the stack in place of the loop, but nothing takes a loop off the stack while
it is replayed.

`Rooted` says that each loop which is replayed has its frame where it is looked for, and that the
iterations done and those left make up the count of its line.

## Main results

* `Advanced.rooted` — a line keeps this.
* `rooted_of_leads` — it holds wherever a run gets to.
-/

namespace InputScript.Machine

open Device (Sink)
open Script (Line RawLine)

/-! ## Frames at a height -/

namespace Activation

variable {a : Activation} {base other height : Nat} {f : LoopFrame}

theorem height_cutTo (hle : height ≤ a.height) : (a.cutTo height).height = height := by
  show (a.frames.drop (a.height - height)).length = height
  rw [List.length_drop]
  show a.height - (a.height - height) = height
  omega

theorem loopAt?_cutTo (h : base ≤ height) (hle : height ≤ a.height) :
    (a.cutTo height).loopAt? base = a.loopAt? base := by
  have hindex : a.height - height + (height - base) = a.height - base := by omega
  unfold loopAt?
  rw [height_cutTo hle, cutTo, List.getElem?_drop, hindex]

theorem pop_eq_cutTo (a : Activation) : a.pop = a.cutTo (a.height - 1) := by
  unfold pop cutTo
  rcases Nat.eq_zero_or_pos a.height with hzero | hpos
  · rw [List.length_eq_zero_iff.mp hzero]
    simp
  · have hone : a.height - (a.height - 1) = 1 := by omega
    rw [hone]

theorem loopAt?_setLoopAt_self (h : a.loopAt? base = some f) (g : LoopFrame) :
    (a.setLoopAt base g).loopAt? base = some g := by
  obtain ⟨frame, hframe, -⟩ := Option.bind_eq_some_iff.mp h
  have hlt : a.height - base < a.frames.length := (List.getElem?_eq_some_iff.mp hframe).1
  have hheight : (a.setLoopAt base g).height = a.height := List.length_set
  unfold loopAt?
  rw [hheight, setLoopAt, List.getElem?_set_self hlt]
  rfl

theorem loopAt?_setLoopAt_of_ne (hne : other ≠ base) (hbase : base ≤ a.height)
    (hother : other ≤ a.height) (g : LoopFrame) :
    (a.setLoopAt base g).loopAt? other = a.loopAt? other := by
  have hheight : (a.setLoopAt base g).height = a.height := List.length_set
  have hindex : a.height - base ≠ a.height - other := by omega
  unfold loopAt?
  rw [hheight, setLoopAt, List.getElem?_set_ne hindex]

theorem loopAt?_markElse (a : Activation) (base : Nat) :
    a.markElse.loopAt? base = a.loopAt? base := by
  have hheight := a.height_markElse
  unfold loopAt?
  rw [hheight]
  unfold markElse
  split
  · next c frames hframes =>
      rw [hframes]
      cases a.height - base with
      | zero => rfl
      | succ index => rfl
  · rfl

/-- A loop does not stand where a branch does. -/
theorem lt_height_of_cond {c : CondFrame} {frames : List Frame} (htop : a.frames = .cond c :: frames)
    (hle : base ≤ a.height) (h : a.loopAt? base = some f) : base < a.height := by
  refine Nat.lt_of_le_of_ne hle fun heq => ?_
  rw [loopAt?, heq, Nat.sub_self, htop] at h
  cases h

end Activation

/-! ## Loops at their places -/

/-- The iterations that a loop has done and those that it has left make up its count.  The one that
it is in is left. -/
def Runs (counted : Option Nat → Nat → Prop) (r : Replay) (f : LoopFrame) : Prop :=
  ∃ n, f.remaining = some n ∧ 0 < n ∧ counted f.line (r.iterations + n)

/-- The loops that are replayed stand one above the other, each where it is looked for; and lines are
skipped for a branch that stands above them. -/
structure Rooted (counted : Option Nat → Nat → Prop) (a : Activation) : Prop where
  nested : a.replays.Pairwise fun inner outer => outer.base < inner.base
  low : ∀ r ∈ a.replays, r.base ≤ a.height
  stands : ∀ r ∈ a.replays, ∃ f, a.loopAt? r.base = some f ∧ Runs counted r f
  covered : a.omission ≠ none → ∀ r ∈ a.replays, r.base < a.height

namespace Rooted

variable {counted : Option Nat → Nat → Prop} {a b : Activation} {r : Replay} {outer : List Replay}
  {f g : LoopFrame}

theorem of_nil (h : a.replays = []) : Rooted counted a := by
  constructor
  all_goals
    rw [h]
    simp

variable (h : Rooted counted a)

include h

/-- Blocks above the loops are taken off, and loops from inside. -/
theorem cut {height : Nat} (hheight : height ≤ a.height)
    (hframes : b.frames = (a.cutTo height).frames) (hreplays : b.replays.Sublist a.replays)
    (hlow : ∀ r ∈ b.replays, r.base ≤ height)
    (hcovered : b.omission ≠ none → ∀ r ∈ b.replays, r.base < height) : Rooted counted b := by
  have hb : b.height = height := by
    rw [Activation.height, hframes]
    exact Activation.height_cutTo hheight
  refine ⟨h.nested.sublist hreplays, ?_, fun r hr => ?_, ?_⟩
  · rw [hb]
    exact hlow
  · obtain ⟨f, hat, hruns⟩ := h.stands r (hreplays.subset hr)
    refine ⟨f, ?_, hruns⟩
    rw [← Activation.loopAt?_cutTo (hlow r hr) hheight] at hat
    rw [← hat]
    unfold Activation.loopAt? Activation.height
    rw [hframes]
  · rw [hb]
    exact hcovered

/-- What else a script holds does not matter. -/
theorem congr (hframes : b.frames = a.frames) (hreplays : b.replays = a.replays)
    (hcovered : b.omission ≠ none → ∀ r ∈ a.replays, r.base < a.height) : Rooted counted b := by
  refine h.cut (Nat.le_refl _) ?_ ?_ ?_ ?_
  · rw [hframes, Activation.cutTo, Nat.sub_self]
    rfl
  · exact hreplays ▸ List.Sublist.refl _
  · rw [hreplays]
    exact h.low
  · rw [hreplays]
    exact hcovered

/-- The innermost loop is given up. -/
theorem tail (hreplays : a.replays = r :: outer) :
    Rooted counted { a with replays := outer } := by
  have hsub : outer.Sublist a.replays := hreplays ▸ List.sublist_cons_self r outer
  refine h.cut (Nat.le_refl _) ?_ hsub (fun r' hr' => h.low r' (hsub.subset hr'))
    fun homit r' hr' => h.covered homit r' (hsub.subset hr')
  rw [Activation.cutTo, Nat.sub_self]
  rfl

theorem base_lt (hreplays : a.replays = r :: outer) :
    ∀ r' ∈ outer, r'.base < r.base := by
  have hnested := h.nested
  rw [hreplays] at hnested
  exact (List.pairwise_cons.mp hnested).1

/-- A frame above all loops may change. -/
theorem setAbove {base : Nat} (hbase : base ≤ a.height)
    (habove : ∀ r ∈ a.replays, r.base < base) (g : LoopFrame) :
    Rooted counted (a.setLoopAt base g) := by
  have hheight : (a.setLoopAt base g).height = a.height := List.length_set
  refine ⟨h.nested, fun r hr => ?_, fun r hr => ?_, fun homit r hr => ?_⟩
  · rw [hheight]
    exact h.low r hr
  · rw [Activation.loopAt?_setLoopAt_of_ne (Nat.ne_of_lt (habove r hr)) hbase (h.low r hr)]
    exact h.stands r hr
  · rw [hheight]
    exact h.covered homit r hr

/-- The innermost loop may change, with the iterations that it has done. -/
theorem setInner (hreplays : a.replays = r :: outer)
    (hat : a.loopAt? r.base = some f) (iterations : Nat)
    (hg : Runs counted { r with iterations } g) :
    Rooted counted { a.setLoopAt r.base g with replays := { r with iterations } :: outer } := by
  have hbase : r.base ≤ a.height := h.low r (hreplays ▸ List.mem_cons_self)
  have houter : Rooted counted ({ a with replays := outer }.setLoopAt r.base g) :=
    (h.tail hreplays).setAbove hbase (h.base_lt hreplays) g
  have hheight : (a.setLoopAt r.base g).height = a.height := List.length_set
  have hinner : r.base ≤ (a.setLoopAt r.base g).height := hheight ▸ hbase
  refine ⟨?_, ?_, ?_, fun homit => ?_⟩
  · have hbelow := h.base_lt hreplays
    exact List.pairwise_cons.mpr ⟨hbelow, houter.nested⟩
  · exact List.forall_mem_cons.mpr ⟨hinner, houter.low⟩
  · exact List.forall_mem_cons.mpr
      ⟨⟨g, Activation.loopAt?_setLoopAt_self hat g, hg⟩, houter.stands⟩
  · refine List.forall_mem_cons.mpr ⟨?_, houter.covered homit⟩
    show r.base < (a.setLoopAt r.base g).height
    rw [hheight]
    exact h.covered homit r (hreplays ▸ List.mem_cons_self)

/-- The body of the innermost loop is no matter of counts. -/
theorem setBody (hreplays : a.replays = r :: outer)
    (hat : a.loopAt? r.base = some f) (body : Script.Scratch) :
    Rooted counted (a.setLoopAt r.base { f with body }) := by
  obtain ⟨f', hat', hruns⟩ := h.stands r (hreplays ▸ List.mem_cons_self)
  rw [hat] at hat'
  cases hat'
  have hset := h.setInner (g := { f with body }) hreplays hat r.iterations hruns
  have hsame : { a.setLoopAt r.base { f with body } with replays := r :: outer } =
      a.setLoopAt r.base { f with body } := by
    rw [← hreplays]
    rfl
  rw [hsame] at hset
  exact hset

/-- A block is entered. -/
theorem push (frame : Frame) : Rooted counted (a.push frame) := by
  refine ⟨h.nested, fun r hr => Nat.le_succ_of_le (h.low r hr), fun r hr => ?_, fun _ r hr => ?_⟩
  · rw [a.loopAt?_push frame (h.low r hr)]
    exact h.stands r hr
  · exact Nat.lt_succ_of_le (h.low r hr)

/-- A branch is left. -/
theorem popCond {c : CondFrame} {frames : List Frame}
    (htop : a.frames = .cond c :: frames) (homit : a.omission = none) : Rooted counted a.pop := by
  rw [a.pop_eq_cutTo]
  refine h.cut (Nat.sub_le _ _) rfl (List.Sublist.refl _) (fun r hr => ?_) fun hskips => ?_
  · obtain ⟨f, hat, -⟩ := h.stands r hr
    exact Nat.le_sub_one_of_lt (Activation.lt_height_of_cond htop (h.low r hr) hat)
  · exact absurd homit hskips

theorem markElse : Rooted counted a.markElse := by
  have homission : a.markElse.omission = a.omission := by
    unfold Activation.markElse
    split <;> rfl
  constructor
  all_goals
    rw [a.replays_markElse]
  · exact h.nested
  · rw [a.height_markElse]
    exact h.low
  · intro r hr
    rw [a.loopAt?_markElse]
    exact h.stands r hr
  · rw [homission, a.height_markElse]
    exact h.covered

theorem fetch {input input' : List RawLine} {next : Script.Next}
    (hfetch : a.fetch input = (next, b, input')) :
    Rooted counted b ∧ b.replays = a.replays := by
  unfold Activation.fetch at hfetch
  split at hfetch
  · next replay outer hreplays =>
      split at hfetch
      · cases hfetch
        exact ⟨h, rfl⟩
      · next frame hat =>
          split at hfetch
          · cases hfetch
            exact ⟨h.setBody hreplays hat _, rfl⟩
          · cases hfetch
            exact ⟨h, rfl⟩
  · cases hfetch
    exact ⟨h.congr rfl rfl h.covered, rfl⟩

/-- A loop that was entered reads its body from elsewhere. -/
theorem collect {frame : LoopFrame} {input input' : List RawLine}
    {body : Body} (hbody : Collected (a.push (.loop frame)) input body b input') :
    Rooted counted b ∧ b.replays = a.replays ∧ b.height = a.height + 1 ∧
      b.omission = a.omission := by
  have hskip := hbody.skipped
  have hpushed := h.push (.loop frame)
  unfold Activation.skipPast at hskip
  split at hskip
  · next replay outer hreplays =>
      split at hskip
      · cases hskip
        exact ⟨hpushed, rfl, rfl, rfl⟩
      · next f hat =>
          cases hskip
          exact ⟨hpushed.setBody hreplays hat _, rfl, List.length_set, rfl⟩
  · cases hskip
    exact ⟨hpushed.congr rfl rfl hpushed.covered, rfl, rfl, rfl⟩

/-- A loop starts its first iteration. -/
theorem replaying (habove : ∀ r ∈ a.replays, r.base < a.height)
    (hheight : 0 < a.height) (homit : a.omission = none) {lines : List Line}
    (hf : Runs counted ⟨a.height, 0⟩ f) : Rooted counted (a.replaying f lines) := by
  have hset := h.setAbove (Nat.le_refl _) habove { f with body := { lines } }
  have hsame : (a.setLoopAt a.height { f with body := { lines } }).height = a.height :=
    List.length_set
  have htop : (a.setLoopAt a.height { f with body := { lines } }).loopAt? a.height =
      some { f with body := { lines } } := by
    unfold Activation.loopAt?
    rw [hsame, Nat.sub_self, Activation.setLoopAt, Nat.sub_self, List.getElem?_set_self hheight]
    rfl
  unfold Activation.replaying
  refine ⟨?_, ?_, ?_, fun hskips => absurd homit hskips⟩
  · refine List.pairwise_cons.mpr ⟨fun r hr => ?_, hset.nested⟩
    show r.base < (a.setLoopAt a.height { f with body := { lines } }).height
    rw [hsame]
    exact habove r hr
  · exact List.forall_mem_cons.mpr ⟨Nat.le_refl _, hset.low⟩
  · refine List.forall_mem_cons.mpr ⟨⟨{ f with body := { lines } }, ?_, ?_⟩, hset.stands⟩
    · show (a.setLoopAt a.height { f with body := { lines } }).loopAt?
        (a.setLoopAt a.height { f with body := { lines } }).height = _
      rw [hsame]
      exact htop
    · exact hf

end Rooted

/-! ## Counts -/

/-- The count that a `loop` line gives. -/
def CountsTo (inv : Invocation) (n : Nat) : Prop :=
  ∃ text ∈ inv.args.head?, Argument.positive text (some inv.name) "loop counter" = .ok n

theorem CountsTo.pos {inv : Invocation} {n : Nat} (h : CountsTo inv n) : 0 < n := by
  obtain ⟨text, -, hpositive⟩ := h
  exact positive_pos hpositive

theorem countsTo_of_limits {σ ω : Type} {s s' : Session σ ω} {inv : Invocation}
    {count : Option Nat} {time : Option Binary64} (hargs : inv.args ≠ [])
    (h : (loopLimits inv).exec s = (.ok (count, time), s')) :
    ∃ n, count = some n ∧ CountsTo inv n := by
  obtain ⟨text, rest, hcons⟩ := List.exists_cons_of_ne_nil hargs
  have hhead : inv.args.head? = some text := by rw [hcons]; rfl
  unfold loopLimits at h
  rw [hhead] at h
  cases hpositive : Argument.positive text (some inv.name) "loop counter" with
  | error fault =>
      simp only [readOptional, hpositive] at h
      cases h
  | ok n =>
      simp only [readOptional, hpositive] at h
      obtain ⟨count', s₁, hcount, h₁⟩ := Act.exec_bind_eq_ok.mp h
      cases hcount
      obtain ⟨time', s₂, -, h₂⟩ := Act.exec_bind_eq_ok.mp h₁
      obtain ⟨limit, s₃, -, h₃⟩ := Act.exec_bind_eq_ok.mp h₂
      cases h₃
      exact ⟨n, rfl, text, hhead, hpositive⟩

/-- A loop is not to be run zero times. -/
theorem count_ne_zero_of_limits {σ ω : Type} {s s' : Session σ ω} {inv : Invocation}
    {count : Option Nat} {time : Option Binary64}
    (h : (loopLimits inv).exec s = (.ok (count, time), s')) : count ≠ some 0 := by
  by_cases hargs : inv.args = []
  · unfold loopLimits at h
    rw [hargs] at h
    obtain ⟨count', s₁, hcount, h₁⟩ := Act.exec_bind_eq_ok.mp h
    cases hcount
    obtain ⟨time', s₂, -, h₂⟩ := Act.exec_bind_eq_ok.mp h₁
    obtain ⟨limit, s₃, -, h₃⟩ := Act.exec_bind_eq_ok.mp h₂
    cases limit with
    | none => cases h₃
    | some limit =>
        cases h₃
        nofun
  · obtain ⟨n, rfl, hcounts⟩ := countsTo_of_limits hargs h
    have hpos := hcounts.pos
    intro hzero
    cases hzero
    exact absurd hpos (Nat.lt_irrefl 0)

/-! ## Lines -/

variable {σ ω : Type} {counted : Option Nat → Nat → Prop} {a a' : Activation} {m : Move}
  {s s' : Session σ ω} {inherited : Option Countdown}

theorem Omitted.rooted {o : Omission} {line : Line} (hline : Omitted a o line s m s')
    (h : Rooted counted a) (homit : a.omission = some o) : m.All (Rooted counted) := by
  have hcovered := h.covered (by rw [homit]; nofun)
  cases hline with
  | opener _ _ => exact h.congr rfl rfl fun _ => hcovered
  | inner _ _ _ => exact h.congr rfl rfl fun _ => hcovered
  | neutral _ _ => exact h
  | close _ _ _ =>
      have hpop : Rooted counted { a.pop with omission := none } := by
        rw [a.pop_eq_cutTo]
        refine h.cut (Nat.sub_le _ _) rfl (List.Sublist.refl _) (fun r hr => ?_) fun hskips => ?_
        · exact Nat.le_sub_one_of_lt (hcovered r hr)
        · exact absurd rfl hskips
      exact hpop
  | otherwise _ _ _ =>
      have hmarked : Rooted counted (if a.height = o.height then a.markElse else a) := by
        split
        · exact h.markElse
        · exact h
      exact hmarked.congr rfl rfl fun hskips => absurd rfl hskips

section Host

variable [Host σ]

theorem Iterated.rooted {replay : Replay} {outer : List Replay}
    (hend : Iterated inherited a replay outer s m s') (h : Rooted counted a)
    (hreplays : a.replays = replay :: outer) : m.All (Rooted counted) := by
  have houter := h.tail hreplays
  have hbase : replay.base ≤ a.height := h.low replay (hreplays ▸ List.mem_cons_self)
  have hbelow := h.base_lt hreplays
  cases hend with
  | gone _ => exact houter
  | @finished frame _ _ _ _ hframe _ _ ha' _ =>
      subst ha'
      have hset := houter.setAbove hbase hbelow
        { frame with remaining := frame.remaining.map (· - 1), body := frame.body.truncate }
      have hheight : ({ a with replays := outer }.setLoopAt replay.base
          { frame with
            remaining := frame.remaining.map (· - 1)
            body := frame.body.truncate }).height = a.height := List.length_set
      refine hset.cut (Nat.sub_le _ 1) ?_ (List.Sublist.refl _) (fun r hr => ?_) fun homit r hr => ?_
      · rw [← Activation.pop_eq_cutTo]
        rfl
      · rw [hheight]
        have hlt := hbelow r hr
        omega
      · rw [hheight]
        have hlt := hbelow r hr
        have hskips := h.covered homit replay (hreplays ▸ List.mem_cons_self)
        omega
  | @continued frame _ _ _ hframe _ hmore ha' _ =>
      subst ha'
      obtain ⟨f, hat, n, hn, hpos, hcounted⟩ := h.stands replay (hreplays ▸ List.mem_cons_self)
      rw [hframe] at hat
      cases hat
      refine h.setInner hreplays hframe (replay.iterations + 1) ⟨n - 1, ?_, ?_, ?_⟩
      · rw [hn]
        rfl
      · rw [hn] at hmore
        exact Nat.pos_of_ne_zero fun hzero => hmore (congrArg some hzero)
      · have hsum : replay.iterations + 1 + (n - 1) = replay.iterations + n := by omega
        show counted frame.line (replay.iterations + 1 + (n - 1))
        rw [hsum]
        exact hcounted

/-- Leaving loops takes blocks off down to the loop that is left last. -/
theorem Rooted.leaveLoops {levels left : Nat} {replays : List Replay}
    (h : Rooted counted { a with replays })
    (hleave : (leaveLoops inherited a levels replays : Act σ ω _).exec s = (.ok (left, a'), s')) :
    Rooted counted a' := by
  refine leaveLoops_keeps (fun {b replay outer} hreplays hb => ?_) hleave h
  have hbelow := hb.base_lt hreplays
  have hbase : replay.base ≤ b.height := hb.low replay (hreplays ▸ List.mem_cons_self)
  refine hb.cut (Nat.le_trans (Nat.sub_le _ 1) hbase) rfl (hreplays ▸ List.sublist_cons_self _ _)
    (fun r hr => ?_) fun hskips => absurd rfl hskips
  exact Nat.le_sub_one_of_lt (hbelow r hr)

variable [Sink ω] {settings : Settings}

theorem Performed.rooted {inv : Invocation} (hline : Performed settings inherited a inv s m s')
    (h : Rooted counted a) (homit : a.omission = none)
    (hargs : inv.verb = .loop → inv.args ≠ [])
    (hnew : inv.verb = .loop → ∀ n, CountsTo inv n → counted inv.line n) :
    m.All (Rooted counted) := by
  cases hline with
  | simple _ _ => exact h
  | call _ _ hcall =>
      obtain ⟨feed, s₁, -, rfl⟩ := callScript_ok hcall
      exact ⟨.of_nil rfl, h⟩
  | loop hverb hlimits hframe _ hbody _ =>
      obtain ⟨n, rfl, hcounts⟩ := countsTo_of_limits (hargs hverb) hlimits
      obtain ⟨hrooted, hreplays, hheight, homission⟩ := h.collect hbody
      refine hrooted.replaying ?_ ?_ (homission.trans homit) ⟨n, ?_, hcounts.pos, ?_⟩
      · rw [hreplays, hheight]
        exact fun r hr => Nat.lt_succ_of_le (h.low r hr)
      · omega
      · rw [hframe]
      · rw [hframe, Nat.zero_add]
        exact hnew hverb n hcounts
  | leave _ _ _ hleave =>
      split
      · exact Rooted.leaveLoops h hleave
      · trivial
  | @cond truth _ _ _ _ =>
      have hpushed := h.push (.cond { line := inv.line })
      cases truth with
      | true => exact hpushed
      | false =>
          exact hpushed.congr rfl rfl fun _ r hr => Nat.lt_succ_of_le (h.low r hr)
  | otherwise _ hframes _ =>
      have hmarked := h.markElse
      refine hmarked.congr rfl rfl fun _ r hr => ?_
      obtain ⟨f, hat, -⟩ := hmarked.stands r hr
      exact Activation.lt_height_of_cond (Activation.frames_markElse hframes)
        (hmarked.low r hr) hat
  | close _ hframes => exact h.popCond hframes homit
  | exit _ _ => trivial

/-- A line keeps every loop at its place, and counts it as its own line says. -/
theorem Advanced.rooted (hadvanced : Advanced settings inherited a s m s')
    (h : Rooted counted a)
    (hargs : ∀ {a₁ inv s₁}, NextCommand settings a s a₁ inv s₁ → inv.verb = .loop →
      inv.args ≠ [])
    (hnew : ∀ {a₁ inv s₁}, NextCommand settings a s a₁ inv s₁ → inv.verb = .loop →
      ∀ n, CountsTo inv n → counted inv.line n) : m.All (Rooted counted) := by
  cases hadvanced with
  | omitted hfetch homit hline => exact hline.rooted (h.fetch hfetch).1 homit
  | blank hfetch _ _ => exact (h.fetch hfetch).1
  | performed hfetch homit hsplit hbind hline =>
      have hnext := NextCommand.intro hfetch homit hsplit hbind
      exact hline.rooted (h.fetch hfetch).1 homit (hargs hnext) (hnew hnext)
  | iterated hfetch hreplays hend => exact hend.rooted (h.fetch hfetch).1 hreplays
  | finished _ _ _ _ => trivial

end Host

/-! ## Runs -/

section Runs

variable [Host σ] [Sink ω] {settings : Settings} {launch : Launch} {s₀ : Session σ ω}

/-- A `loop` of some count is performed in the run at a line. -/
def LoopOf (settings : Settings) (launch : Launch) (s₀ : Session σ ω) (line : Option Nat)
    (n : Nat) : Prop :=
  ∃ inv activations s, Performs settings launch s₀ inv activations s ∧ inv.verb = .loop ∧
    inv.line = line ∧ CountsTo inv n

/-- Wherever a run gets to whose loops are all counted, each loop that is replayed is at its place, and
its iterations make up the count of its line. -/
theorem rooted_of_leads
    (hcounted : ∀ {inv activations s}, Performs settings launch s₀ inv activations s →
      inv.verb = .loop → inv.args ≠ [])
    {activations : List Activation}
    (h : Leads settings (launch.start settings s₀) (.running activations, s)) :
    ∀ a ∈ activations, Rooted (LoopOf settings launch s₀) a := by
  have hnew : ∀ {inv activations s}, Performs settings launch s₀ inv activations s →
      inv.verb = .loop → ∀ n, CountsTo inv n → LoopOf settings launch s₀ inv.line n :=
    fun hperforms hverb n hcounts => ⟨_, _, _, hperforms, hverb, rfl, hcounts⟩
  refine all_of_launch (fun ha hleave => Rooted.leaveLoops ha hleave) (fun _ _ _ => .of_nil rfl)
    (fun hlaunch hbind hperformed => ?_) (fun hleads ha hadvanced => ?_) h
  · have hperforms : Performs settings launch s₀ _ _ _ := performs_of_command hlaunch hbind
    exact hperformed.rooted (.of_nil rfl) rfl (hcounted hperforms) (hnew hperforms)
  · exact hadvanced.rooted ha (fun hnext => hcounted (performs_of_line hleads hnext))
      fun hnext => hnew (performs_of_line hleads hnext)

end Runs

end InputScript.Machine
