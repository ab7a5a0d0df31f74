import InputScript.Proofs.CheckedSettings
import InputScript.Proofs.ConditionScan

/-!
# Conditions without parentheses

The limit on the stacks of a scan is meant for conditions that are nested.  A condition without
parentheses may be as long as one likes: before an operator is stacked, those that bind at least as
tightly are applied, so that the operators that join two operands get strictly tighter from the
bottom of the stack to its top, and there are only three strengths of them.  Negations stand above
these, as many as come in a row, and there are as many operands as operators that join, with one more
when an operand was just read.

## Main results

* `reduce_ok` — applying operators finds their operands, and keeps the two stacks in step.
* `State.Flat.take` — what one word does to the stacks of a condition without parentheses.
* `flat_conditions_fit` — such a condition never finds a stack full.
-/

namespace InputScript.Condition

variable {words : List String} {op : Operator}

/-! ## Operators and their operands -/

/-- Whether the entry joins two operands. -/
def Pending.joins : Pending → Bool
  | .paren => false
  | .op o => !o.isUnary

/-- Whether the entry is applied before an operator of a precedence is stacked. -/
def Pending.yields (least : Nat) : Pending → Bool
  | .paren => false
  | .op o => least ≤ o.precedence

/-- The operands that wait for the second one. -/
def waiting (ops : List Pending) : Nat := ops.countP Pending.joins

/-- There are operands for the operators, and one more if one was just read. -/
def State.InStep (s : State) : Prop :=
  s.values.length = waiting s.ops + if s.expectOperand then 0 else 1

/-- An operator is applied to operands that are there. -/
theorem apply_ok {s : State} (h : s.values.length = waiting (.op op :: s.ops) + 1) :
    ∃ s', s.apply op = .ok s' ∧ s'.ops = s.ops ∧ s'.expectOperand = s.expectOperand ∧
      s'.values.length = waiting s.ops + 1 := by
  unfold State.apply
  cases hunary : op.isUnary with
  | true =>
      have hwaiting : waiting (.op op :: s.ops) = waiting s.ops :=
        List.countP_cons_of_neg (by simp [Pending.joins, hunary])
      rw [hwaiting] at h
      obtain ⟨b, values, hvalues⟩ := List.exists_cons_of_length_eq_add_one h
      simp only [hvalues]
      refine ⟨_, rfl, rfl, rfl, ?_⟩
      rw [← h, hvalues]
      rfl
  | false =>
      have hwaiting : waiting (.op op :: s.ops) = waiting s.ops + 1 :=
        List.countP_cons_of_pos (by simp [Pending.joins, hunary])
      rw [hwaiting] at h
      obtain ⟨b, rest, hrest⟩ := List.exists_cons_of_length_eq_add_one h
      rw [hrest, List.length_cons, Nat.add_right_cancel_iff] at h
      obtain ⟨a, values, hvalues⟩ := List.exists_cons_of_length_eq_add_one h
      simp only [hrest, hvalues]
      refine ⟨_, rfl, rfl, rfl, ?_⟩
      rw [← h, hvalues]
      rfl

/-- Applying operators finds their operands, and keeps the two stacks in step. -/
theorem reduce_ok (least : Nat) {s : State} {ops : List Pending}
    (h : s.values.length = waiting ops + 1) :
    ∃ s', s.reduce least ops = .ok s' ∧ s'.ops = ops.dropWhile (Pending.yields least) ∧
      s'.expectOperand = s.expectOperand ∧ s'.values.length = waiting s'.ops + 1 := by
  induction ops generalizing s with
  | nil => exact ⟨_, rfl, rfl, rfl, h⟩
  | cons pending ops ih =>
      cases pending with
      | paren => exact ⟨_, rfl, rfl, rfl, h⟩
      | op op =>
          unfold State.reduce
          by_cases hleast : least ≤ op.precedence
          · have hyields : Pending.yields least (.op op) = true := decide_eq_true hleast
            obtain ⟨s₁, happly, -, hexpect, hvalues⟩ := apply_ok (s := { s with ops }) h
            obtain ⟨s', hreduce, hops, hexpect', hvalues'⟩ := ih hvalues
            rw [if_pos hleast, happly, List.dropWhile_cons_of_pos hyields]
            exact ⟨s', hreduce, hops, hexpect'.trans hexpect, hvalues'⟩
          · have hyields : ¬ Pending.yields least (.op op) = true := by
              simpa [Pending.yields] using hleast
            rw [if_neg hleast, List.dropWhile_cons_of_neg hyields]
            exact ⟨_, rfl, rfl, rfl, h⟩

/-! ## The stack of operators -/

/-- Operators that join operands, each binding tighter than those below it. -/
structure Ascending (joins : List Operator) : Prop where
  binary : ∀ op ∈ joins, op.isUnary = false
  tighter : joins.Pairwise fun upper lower => lower.precedence < upper.precedence

theorem Operator.precedence_pos (op : Operator) : 0 < op.precedence := by
  cases op <;> decide

theorem Operator.precedence_le_of_binary (h : op.isUnary = false) :
    op.precedence ≤ 3 := by
  cases op <;> first | decide | cases h

namespace Ascending

variable {joins : List Operator}

theorem nil : Ascending [] := ⟨List.forall_mem_nil _, .nil⟩

theorem sublist {fewer : List Operator} (h : Ascending joins) (hsub : fewer.Sublist joins) :
    Ascending fewer :=
  ⟨fun op hop => h.binary op (hsub.mem hop), h.tighter.sublist hsub⟩

theorem cons (h : Ascending joins) (hop : op.isUnary = false)
    (hlooser : ∀ lower ∈ joins, lower.precedence < op.precedence) : Ascending (op :: joins) :=
  ⟨List.forall_mem_cons.mpr ⟨hop, h.binary⟩, List.pairwise_cons.mpr ⟨hlooser, h.tighter⟩⟩

/-- There are no more of them than strengths. -/
theorem length_le (h : Ascending joins) {strengths : Nat}
    (hle : ∀ op ∈ joins, op.precedence ≤ strengths) : joins.length ≤ strengths := by
  induction joins generalizing strengths with
  | nil => exact Nat.zero_le _
  | cons op joins ih =>
      obtain ⟨hlooser, -⟩ := List.pairwise_cons.mp h.tighter
      have hpos := op.precedence_pos
      have hop := hle op List.mem_cons_self
      have hrest : joins.length ≤ op.precedence - 1 :=
        ih (h.sublist (List.sublist_cons_self op joins)) fun lower hlower => by
          have := hlooser lower hlower
          omega
      rw [List.length_cons]
      omega

theorem length_le_three (h : Ascending joins) : joins.length ≤ 3 :=
  h.length_le fun op hop => Operator.precedence_le_of_binary (h.binary op hop)

/-- Those that stay when the others yield to an operator bind less tightly than it. -/
theorem looser_of_mem_dropWhile (h : Ascending joins) {least : Nat}
    (hop : op ∈ joins.dropWhile fun op => least ≤ op.precedence) : op.precedence < least := by
  induction joins with
  | nil => cases hop
  | cons top joins ih =>
      by_cases hyields : least ≤ top.precedence
      · rw [List.dropWhile_cons_of_pos (by simpa using hyields)] at hop
        exact ih (h.sublist (List.sublist_cons_self top joins)) hop
      · rw [List.dropWhile_cons_of_neg (by simpa using hyields)] at hop
        rcases List.mem_cons.mp hop with rfl | hlower
        · omega
        · have := (List.pairwise_cons.mp h.tighter).1 op hlower
          omega

end Ascending

/-- The stacked operators of a condition without parentheses: a run of negations above operators that
join. -/
def flatStack (run : Nat) (joins : List Operator) : List Pending :=
  (List.replicate run Operator.not ++ joins).map .op

theorem length_flatStack (run : Nat) (joins : List Operator) :
    (flatStack run joins).length = run + joins.length := by
  simp [flatStack]

theorem waiting_flatStack (run : Nat) {joins : List Operator} (h : Ascending joins) :
    waiting (flatStack run joins) = joins.length := by
  have hnots : (List.replicate run Operator.not).countP (Pending.joins ∘ .op) = 0 := by
    simp [Pending.joins, Operator.isUnary]
  have hjoins : joins.countP (Pending.joins ∘ .op) = joins.length :=
    List.countP_eq_length.mpr fun op hop => by simp [Pending.joins, h.binary op hop]
  rw [waiting, flatStack, List.countP_map, List.countP_append, hnots, hjoins, Nat.zero_add]

/-- All negations yield to an operator that joins. -/
theorem dropWhile_flatStack (run : Nat) (joins : List Operator) {least : Nat} (hleast : least ≤ 4) :
    (flatStack run joins).dropWhile (Pending.yields least) =
      flatStack 0 (joins.dropWhile fun op => least ≤ op.precedence) := by
  rw [flatStack, List.dropWhile_map, List.dropWhile_append_of_pos]
  · rfl
  · intro op hop
    rw [List.eq_of_mem_replicate hop]
    exact decide_eq_true hleast

/-- The stacks in the course of a condition without parentheses. -/
structure State.Flat (run : Nat) (s : State) : Prop where
  ops : ∃ joins, Ascending joins ∧ s.ops = flatStack run joins
  inStep : s.InStep

theorem State.Flat.start : State.Flat 0 {} := ⟨⟨[], .nil, rfl⟩, rfl⟩

/-! ## One word -/

/-- What becomes of a word: the scan stops, but not for want of room; or the word is one more
negation of the run; or the run is over, be it that its negations are still to be applied. -/
inductive Reads (s : State) (run : Nat) (word : String) : Except Stop State → Prop
  | stopped {stop : Stop} (h : stop.trouble ≠ .fault .tooComplex) : Reads s run word (.error stop)
  | negation {s' : State} (hword : word = "-not") (hbefore : s.expectOperand = true)
      (hafter : s'.expectOperand = true) (h : s'.Flat (run + 1)) : Reads s run word (.ok s')
  | other {s' : State} {run' : Nat} (hover : s'.expectOperand = true → run' = 0)
      (h : s'.Flat run') : Reads s run word (.ok s')

section Word

variable {s : State} {run limit : Nat} {word : String}

theorem Reads.complain {c : Complaint} (hc : c ≠ .tooComplex) :
    Reads s run word (s.complain c) :=
  .stopped fun h => hc (Trouble.fault.inj h)

/-- A negation is stacked above the others. -/
theorem Reads.pushNot (hs : s.Flat run) (hexpect : s.expectOperand = true) (hlimit : 3 + run < limit) :
    Reads s run "-not" (s.pushOp limit (.op .not)) := by
  obtain ⟨⟨joins, hjoins, hops⟩, hstep⟩ := hs
  have hheight := hjoins.length_le_three
  have hroom : ¬ limit ≤ s.ops.length := by
    rw [hops, length_flatStack]
    omega
  rw [State.pushOp, if_neg hroom]
  refine .negation rfl hexpect hexpect ⟨⟨joins, hjoins, ?_⟩, ?_⟩
  · show Pending.op .not :: s.ops = _
    rw [hops]
    rfl
  · have hwaiting : waiting (.op .not :: s.ops) = waiting s.ops :=
      List.countP_cons_of_neg (by decide)
    unfold State.InStep at hstep ⊢
    rw [hstep, hwaiting]

/-- An operand is stacked. -/
theorem Reads.pushValue (hs : s.Flat run) (hexpect : s.expectOperand = true) (hlimit : 4 ≤ limit)
    (x : Binary64) :
    Reads s run word
      (match s.pushValue limit x with
        | .error stop => .error stop
        | .ok s => .ok { s with expectOperand := false }) := by
  obtain ⟨⟨joins, hjoins, hops⟩, hstep⟩ := hs
  have hheight := hjoins.length_le_three
  rw [State.InStep, hexpect, if_pos rfl, Nat.add_zero] at hstep
  have hroom : ¬ limit ≤ s.values.length := by
    rw [hstep, hops, waiting_flatStack run hjoins]
    omega
  rw [State.pushValue, if_neg hroom]
  refine .other (fun h => absurd h Bool.false_ne_true) ⟨⟨joins, hjoins, hops⟩, ?_⟩
  show s.values.length + 1 = waiting s.ops + 1
  rw [hstep]

/-- An operator that joins is stacked when those that bind at least as tightly were applied. -/
theorem Reads.pushJoin (hs : s.Flat run) (hexpect : s.expectOperand = false) (hlimit : 4 ≤ limit)
    (hop : op.isUnary = false) :
    Reads s run word
      (match s.reduce op.precedence s.ops with
        | .error stop => .error stop
        | .ok s =>
          match s.pushOp limit (.op op) with
          | .error stop => .error stop
          | .ok s => .ok { s with expectOperand := true }) := by
  obtain ⟨⟨joins, hjoins, hops⟩, hstep⟩ := hs
  rw [State.InStep, hexpect] at hstep
  obtain ⟨s', hreduce, hleft, -, hvalues⟩ := reduce_ok op.precedence hstep
  have hthree := Operator.precedence_le_of_binary hop
  rw [hops, dropWhile_flatStack run joins (by omega)] at hleft
  have hpushed : Ascending (op :: joins.dropWhile fun other => op.precedence ≤ other.precedence) :=
    (hjoins.sublist (List.dropWhile_sublist _)).cons hop fun _ hlower =>
      hjoins.looser_of_mem_dropWhile hlower
  have hheight := hpushed.length_le_three
  have hroom : ¬ limit ≤ s'.ops.length := by
    rw [List.length_cons] at hheight
    rw [hleft, length_flatStack]
    omega
  rw [hreduce]
  simp only [State.pushOp, if_neg hroom]
  refine .other (fun _ => rfl) ⟨⟨_, hpushed, ?_⟩, ?_⟩
  · show Pending.op op :: s'.ops = _
    rw [hleft]
    rfl
  · have hwaiting : waiting (.op op :: s'.ops) = waiting s'.ops + 1 :=
      List.countP_cons_of_pos (by simp [Pending.joins, hop])
    show s'.values.length = waiting (.op op :: s'.ops) + 0
    rw [hvalues, hwaiting]

/-- What one word does to the stacks of a condition without parentheses, if they have room for three
operators, four operands and a run of negations. -/
theorem State.Flat.take (hs : s.Flat run) (hlimit : 4 ≤ limit) (hword : word ≠ "(" ∧ word ≠ ")")
    (hrun : s.expectOperand = true → word = "-not" → 3 + run < limit) :
    Reads s run word (s.take limit word) := by
  simp only [State.take, beq_iff_eq, if_neg hword.1, if_neg hword.2]
  cases hop : Operator.ofToken? word with
  | some op =>
      have htoken := Operator.token_of_ofToken hop
      subst htoken
      cases hunary : op.isUnary with
      | true =>
          obtain rfl := Operator.eq_not_of_isUnary hunary
          cases hexpect : s.expectOperand with
          | true => exact .pushNot hs hexpect (hrun hexpect rfl)
          | false => exact .complain Complaint.noConfusion
      | false =>
          simp only [hunary, Bool.false_eq_true, if_false]
          cases hexpect : s.expectOperand with
          | true => exact .complain Complaint.noConfusion
          | false => exact .pushJoin hs hexpect hlimit hunary
  | none =>
      cases Number.readNumber word with
      | tooLarge => exact .stopped fun h => by cases h
      | notANumber => exact .complain Complaint.noConfusion
      | number x =>
          cases hexpect : s.expectOperand with
          | true => exact .pushValue hs hexpect hlimit x
          | false => exact .complain Complaint.noConfusion

end Word

/-! ## All words -/

/-- The negations that were read last, if an operand is still expected. -/
def State.negations (s : State) (run : Nat) : Nat := if s.expectOperand then run else 0

/-- No more than `m` negations come in a row, in words that follow a run of them. -/
def ShortRuns (m run : Nat) (words : List String) : Prop :=
  ¬ List.replicate (m + 1) "-not" <:+: List.replicate run "-not" ++ words

namespace ShortRuns

variable {m run : Nat}

theorem tail {word : String} (h : ShortRuns m run (word :: words)) : ShortRuns m 0 words := by
  intro hwithin
  have hsuffix : words <:+ List.replicate run "-not" ++ word :: words :=
    (List.suffix_cons word words).trans (List.suffix_append _ _)
  exact h (hwithin.trans hsuffix.isInfix)

theorem succ (h : ShortRuns m run ("-not" :: words)) : ShortRuns m (run + 1) words := by
  have hwords : List.replicate run "-not" ++ "-not" :: words =
      List.replicate (run + 1) "-not" ++ words := by
    rw [List.append_cons, List.replicate_succ']
  unfold ShortRuns at h ⊢
  rwa [← hwords]

theorem lt (h : ShortRuns m run ("-not" :: words)) : run < m := by
  refine Nat.lt_of_not_le fun hle => h.succ ?_
  have hstarts : List.replicate (m + 1) "-not" <+: List.replicate (run + 1) "-not" :=
    List.prefix_replicate_iff.mpr ⟨by simpa using hle, by simp⟩
  exact (hstarts.trans (List.prefix_append _ _)).isInfix

end ShortRuns

/-- The stacks do not get full, as long as no run of negations is too long. -/
theorem State.Flat.takeAll {m limit : Nat} (hlimit : 4 ≤ limit) (hroom : 3 + m ≤ limit)
    (hflat : ∀ word ∈ words, word ≠ "(" ∧ word ≠ ")") {s : State} {run : Nat}
    (hs : s.Flat run) (hruns : ShortRuns m (s.negations run) words) :
    (∀ stop, s.takeAll limit words = .error stop → stop.trouble ≠ .fault .tooComplex) ∧
      ∀ s', s.takeAll limit words = .ok s' → s'.InStep := by
  induction words generalizing s run with
  | nil =>
      refine ⟨fun stop h => ?_, fun s' h => ?_⟩ <;> cases h
      exact hs.inStep
  | cons word words ih =>
      obtain ⟨hword, hwords⟩ := List.forall_mem_cons.mp hflat
      have hstep := hs.take hlimit hword fun hexpect hnot => by
        rw [State.negations, if_pos hexpect, hnot] at hruns
        have := hruns.lt
        omega
      rw [State.takeAll]
      generalize s.take limit word = r at hstep ⊢
      cases hstep with
      | stopped h => exact ⟨fun stop hstop => by cases hstop; exact h, fun s' hok => by cases hok⟩
      | negation hnot hbefore hafter h =>
          refine ih hwords h ?_
          rw [State.negations, if_pos hbefore, hnot] at hruns
          rw [State.negations, if_pos hafter]
          exact hruns.succ
      | @other s' run' hover h =>
          refine ih hwords h ?_
          have hnone : s'.negations run' = 0 := ite_eq_right_iff.mpr hover
          rw [hnone]
          exact hruns.tail

theorem State.InStep.finish {s : State} (h : s.InStep) {stop : Stop} (hstop : s.finish = .error stop) :
    stop.trouble ≠ .fault .tooComplex := by
  unfold State.finish at hstop
  cases hexpect : s.expectOperand with
  | true =>
      rw [hexpect] at hstop
      cases hstop
      nofun
  | false =>
      rw [State.InStep, hexpect] at h
      obtain ⟨s', hreduce, -⟩ := reduce_ok 0 h
      simp only [hexpect, Bool.false_eq_true, if_false, hreduce] at hstop
      split at hstop <;> cases hstop <;> nofun

/-- A condition without parentheses does not fill the stacks. -/
theorem evaluate_ne_tooComplex {m limit : Nat} (hlimit : max 4 (3 + m) ≤ limit)
    (hflat : ∀ word ∈ words, word ≠ "(" ∧ word ≠ ")") (hruns : ShortRuns m 0 words) :
    (evaluate words limit).1 ≠ .error (.fault .tooComplex) := by
  obtain ⟨hfour, hroom⟩ := Nat.max_le.mp hlimit
  obtain ⟨hstop, hdone⟩ := State.Flat.start.takeAll hfour hroom hflat hruns
  unfold evaluate
  cases hscan : State.takeAll limit {} words with
  | error stop => exact fun h => hstop stop hscan (Except.error.inj h)
  | ok s =>
      cases hfinish : s.finish with
      | error stop =>
          simp only [hfinish]
          exact fun h => (hdone s hscan).finish hfinish (Except.error.inj h)
      | ok answer =>
          simp only [hfinish]
          nofun

/-- **Flat conditions fit.**  A condition without parentheses in which at most `m` negations come in a
row, well formed or not and of any length, does not find the stacks full if these have room for four
entries and for three besides the negations.  So the least limit that the settings can have is enough
for every condition without parentheses and double negations. -/
theorem flat_conditions_fit {words : List String}
    (hflat : ∀ word ∈ words, word ≠ "(" ∧ word ≠ ")") :
    (∀ m limit, ¬ List.replicate (m + 1) "-not" <:+: words → max 4 (3 + m) ≤ limit →
      (evaluate words limit).1 ≠ .error (.fault .tooComplex)) ∧
    IsLeast { limit | ∃ entries checked, Validation.settings entries = .ok checked ∧
      checked.maxExpressionDepth = limit } 4 ∧
    (¬ ["-not", "-not"] <:+: words →
      (evaluate words 4).1 ≠ .error (.fault .tooComplex)) := by
  refine ⟨fun m limit hruns hlimit => evaluate_ne_tooComplex hlimit hflat hruns,
    Validation.isLeast_maxExpressionDepth, fun hruns => ?_⟩
  have hsingle : ShortRuns 1 0 words := hruns
  exact evaluate_ne_tooComplex (by decide) hflat hsingle

/-- A condition whose last operand finds four operators and three operands stacked. -/
def tallest : List String := ["1", "-or", "2", "-and", "3", "-lt", "-not", "4"]

theorem flat_conditions_fit_tallest :
    ¬ ["-not", "-not"] <:+: tallest ∧
      (evaluate tallest 4).1 ≠ .error (.fault .tooComplex) ∧
      ¬ List.replicate 3 "-not" <:+: ["-not", "-not", "0", "-or", "-eq"] ∧
      (evaluate ["-not", "-not", "0", "-or", "-eq"] 5).1 ≠ .error (.fault .tooComplex) := by
  have hsingle : ¬ ["-not", "-not"] <:+: tallest := by decide
  have hdouble : ¬ List.replicate 3 "-not" <:+: ["-not", "-not", "0", "-or", "-eq"] := by decide
  exact ⟨hsingle, (flat_conditions_fit (by decide)).2.2 hsingle, hdouble,
    (flat_conditions_fit (by decide)).1 2 5 hdouble (by decide)⟩

end InputScript.Condition
