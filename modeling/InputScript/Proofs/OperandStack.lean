import InputScript.Proofs.FlatConditions
import Mathlib.Logic.Relation

/-!
# The operands of a condition

Applying an operator takes its operands off the stack, whoever put them there.  That they are the
right ones is left to the order of the words: the scan refuses an operator where it expects an
operand, and an operand where it does not.  So there is one operand for each stacked operator that
joins two, with one more after an operand, and what a parenthesis finds on the stack stays there until
it is closed.

The points of a scan (`Site`) lie between the words and between the reductions that one word calls
for.  Beside the stacks they have what was on the operand stack when each open parenthesis was read,
which the scan itself does not remember.  Whatever the words are, at every point the operands lie in
layers (`Layered`): each operator that joins holds one, and each parenthesis covers those below it.

## Main results

* `Site.Step.inLayers` — what one step of the scan keeps.
* `Site.Step.answer_eq` — the steps are those of the scan: what is still to come answers the same.
* `reductions_find_operands` — no reduction lacks an operand or takes one from outside its
  parentheses, and the operands are used up at the end.
-/

namespace InputScript.Condition

/-! ## The points of a scan -/

/-- How many operands an operator takes. -/
def Operator.arity (op : Operator) : Nat := if op.isUnary then 1 else 2

/-- How tightly a stacked operator must bind to be applied before the next word is taken.  At the
end of the words all of them are applied. -/
def demand : List String → Option Nat
  | [] => some 0
  | word :: _ =>
    if word = ")" then some 0
    else
      match Operator.ofToken? word with
      | some op => if op.isUnary then none else some op.precedence
      | none => none

/-- What the open parentheses have below them, once a word is read that finds some operands. -/
def enclosing (word : String) (values : List Binary64) (outer : List (List Binary64)) :
    List (List Binary64) :=
  if word = "(" then values :: outer else if word = ")" then outer.tail else outer

/-- A point of a scan: the words to come, the stacks, and the operands that were there when each of
the open parentheses was read, for the innermost one first. -/
structure Site where
  words : List String
  state : State
  outer : List (List Binary64)

namespace Site

/-- The operands that belong outside the innermost open parenthesis. -/
def floor (p : Site) : List Binary64 := p.outer.headD []

/-- The operator on top is applied before the next word is taken. -/
def Due (p : Site) (op : Operator) : Prop :=
  p.state.expectOperand = false ∧ (∃ ops, p.state.ops = .op op :: ops) ∧
    ∃ least, demand p.words = some least ∧ least ≤ op.precedence

/-- A reduction finds its operands above those from outside the parenthesis, and puts its result in
their place. -/
def Makes (p : Site) (r : Reduction) : Prop :=
  r.args.length = r.op.arity ∧
    ∃ ops inner, p.state.ops = .op r.op :: ops ∧
      p.state.values = r.args.reverse ++ (inner ++ p.floor) ∧
      State.apply { p.state with ops } r.op =
        .ok ⟨ops, r.result :: (inner ++ p.floor), p.state.expectOperand, r :: p.state.steps⟩

/-- The scan applies an operator that is due, and takes a word when there is none. -/
inductive Step (limit : Nat) : Site → Site → Prop
  | reduction {p : Site} {op : Operator} {ops : List Pending} {s : State} (hdue : p.Due op)
      (htop : p.state.ops = .op op :: ops) (happly : State.apply { p.state with ops } op = .ok s) :
      Step limit p { p with state := s }
  | word {word : String} {words : List String} {s s' : State} {outer : List (List Binary64)}
      (hsettled : ∀ op, ¬ Due ⟨word :: words, s, outer⟩ op) (htake : s.take limit word = .ok s') :
      Step limit ⟨word :: words, s, outer⟩ ⟨words, s', enclosing word s.values outer⟩

end Site

/-- The scan of a condition comes to a point. -/
def Reaches (limit : Nat) (tokens : List String) : Site → Prop :=
  Relation.ReflTransGen (Site.Step limit) ⟨tokens, {}, []⟩

/-! ## Layers of operands -/

/-- Where an operand is expected, each operator that joins holds one, above what the operators below
it hold; a parenthesis covers all that there is. -/
inductive Layered : List Pending → List Binary64 → List (List Binary64) → Prop
  | nil : Layered [] [] []
  | paren {ops values outer} (h : Layered ops values outer) :
      Layered (.paren :: ops) values (values :: outer)
  | negation {op ops values outer} (hop : Operator.isUnary op = true)
      (h : Layered ops values outer) : Layered (.op op :: ops) values outer
  | join {op ops a values outer} (hop : Operator.isUnary op = false)
      (h : Layered ops values outer) : Layered (.op op :: ops) (a :: values) outer

/-- The operands of a point lie in layers, below the one that was read last. -/
inductive Site.InLayers : Site → Prop
  | before {words ops values steps outer} (h : Layered ops values outer) :
      InLayers ⟨words, ⟨ops, values, true, steps⟩, outer⟩
  | after {words ops x values steps outer} (h : Layered ops values outer) :
      InLayers ⟨words, ⟨ops, x :: values, false, steps⟩, outer⟩

variable {word : String} {words : List String} {op : Operator} {ops : List Pending}
  {values : List Binary64} {steps : List Reduction} {outer : List (List Binary64)} {s s' : State}
  {p q : Site} {least limit : Nat}

namespace Layered

theorem length_values (h : Layered ops values outer) : values.length = waiting ops := by
  induction h with
  | nil => rfl
  | paren h ih => exact ih
  | negation hop h ih =>
      rw [ih, waiting, waiting, List.countP_cons_of_neg (by simp [Pending.joins, hop])]
  | join hop h ih =>
      rw [List.length_cons, ih, waiting, waiting,
        List.countP_cons_of_pos (by simp [Pending.joins, hop])]

theorem length_outer (h : Layered ops values outer) : outer.length = ops.count .paren := by
  induction h with
  | nil => rfl
  | paren h ih => rw [List.length_cons, ih, List.count_cons_self]
  | negation hop h ih => rw [ih, List.count_cons_of_ne Pending.noConfusion]
  | join hop h ih => rw [ih, List.count_cons_of_ne Pending.noConfusion]

/-- What the innermost parenthesis covers is still at the bottom. -/
theorem headD_suffix (h : Layered ops values outer) : outer.headD [] <:+ values := by
  induction h with
  | nil => exact List.suffix_rfl
  | paren h ih => exact List.suffix_rfl
  | negation hop h ih => exact ih
  | join hop h ih => exact ih.trans (List.suffix_cons _ _)

end Layered

namespace Site

theorem InLayers.inStep (h : p.InLayers) : p.state.InStep := by
  cases h with
  | before h => exact h.length_values
  | after h => exact congrArg (· + 1) h.length_values

theorem InLayers.length_outer (h : p.InLayers) :
    p.outer.length = p.state.ops.count .paren := by
  cases h with
  | before h => exact h.length_outer
  | after h => exact h.length_outer

/-! ## Reductions -/

theorem makes_of_apply {r : Reduction} (harity : r.args.length = r.op.arity)
    (hfloor : outer.headD [] <:+ values)
    (happly : State.apply ⟨ops, r.args.reverse ++ values, false, steps⟩ r.op =
      .ok ⟨ops, r.result :: values, false, r :: steps⟩) :
    Makes ⟨words, ⟨.op r.op :: ops, r.args.reverse ++ values, false, steps⟩, outer⟩ r := by
  obtain ⟨inner, rfl⟩ := hfloor
  exact ⟨harity, ops, inner, rfl, rfl, happly⟩

/-- An operator that is due finds its operands, and leaves the layers below it. -/
theorem InLayers.reduction (h : p.InLayers) (hdue : p.Due op)
    (htop : p.state.ops = .op op :: ops) :
    ∃ r s, r.op = op ∧ p.Makes r ∧ State.apply { p.state with ops } op = .ok s ∧
      s.ops = ops ∧ s.expectOperand = false ∧ s.steps = r :: p.state.steps ∧
      InLayers { p with state := s } := by
  obtain ⟨hexpect, -, -⟩ := hdue
  cases h with
  | before h => cases hexpect
  | @after words _ x values steps outer h =>
      cases htop
      cases h with
      | negation hop h =>
          have happly : State.apply ⟨ops, x :: values, false, steps⟩ op =
              .ok ⟨ops, ofBool (op.holds 0 x) :: values, false,
                ⟨op, [x], ofBool (op.holds 0 x)⟩ :: steps⟩ := by
            simp only [State.apply, hop]
          have harity : 1 = op.arity := by simp [Operator.arity, hop]
          exact ⟨⟨op, [x], _⟩, _, rfl, makes_of_apply harity h.headD_suffix happly, happly,
            rfl, rfl, rfl, .after h⟩
      | @join _ _ a values _ hop h =>
          have happly : State.apply ⟨ops, x :: a :: values, false, steps⟩ op =
              .ok ⟨ops, ofBool (op.holds a x) :: values, false,
                ⟨op, [a, x], ofBool (op.holds a x)⟩ :: steps⟩ := by
            simp only [State.apply, hop]
          have harity : 2 = op.arity := by simp [Operator.arity, hop]
          exact ⟨⟨op, [a, x], _⟩, _, rfl, makes_of_apply harity h.headD_suffix happly, happly,
            rfl, rfl, rfl, .after h⟩

/-- Nothing is applied where nothing is due. -/
theorem reduce_of_settled (hsettled : ∀ op, ¬ p.Due op)
    (hexpect : p.state.expectOperand = false) (hdemand : demand p.words = some least) :
    p.state.reduce least p.state.ops = .ok p.state := by
  obtain ⟨words, ⟨ops, values, expect, steps⟩, outer⟩ := p
  cases ops with
  | nil => rfl
  | cons pending ops =>
      cases pending with
      | paren => rfl
      | op op =>
          have hloose : ¬ least ≤ op.precedence := fun hle =>
            hsettled op ⟨hexpect, ⟨ops, rfl⟩, least, hdemand, hle⟩
          rw [State.reduce, if_neg hloose]

end Site

/-- One operator more or less to apply makes no difference to what is left in the end. -/
theorem reduce_of_apply (htop : s.ops = .op op :: ops) (hleast : least ≤ op.precedence)
    (happly : State.apply { s with ops } op = .ok s') (hops : s'.ops = ops) :
    s.reduce least s.ops = s'.reduce least s'.ops := by
  rw [htop, hops, State.reduce, if_pos hleast, happly]

/-! ## Words that apply operators -/

theorem take_closing (hexpect : s.expectOperand = false) (limit : Nat) :
    s.take limit ")" = s.closeGroup := by
  simp [State.take, hexpect]

theorem Operator.token_ne_paren (op : Operator) : op.token ≠ "(" ∧ op.token ≠ ")" := by
  cases op <;> decide

/-- The words that apply operators end a group or join. -/
theorem eq_of_demand (h : demand (word :: words) = some least) :
    (word = ")" ∧ least = 0) ∨
      ∃ op : Operator, word = op.token ∧ op.isUnary = false ∧ least = op.precedence := by
  simp only [demand] at h
  split at h
  · next hclose => exact .inl ⟨hclose, (Option.some.inj h).symm⟩
  · cases hop : Operator.ofToken? word with
    | none =>
        rw [hop] at h
        cases h
    | some op =>
        rw [hop] at h
        cases hunary : op.isUnary with
        | true => simp [hunary] at h
        | false =>
            simp only [hunary, Bool.false_eq_true, if_false, Option.some.injEq] at h
            exact .inr ⟨op, (Operator.token_of_ofToken hop).symm, hunary, h.symm⟩

theorem demand_token (hop : op.isUnary = false) (words : List String) :
    demand (op.token :: words) = some op.precedence := by
  cases op <;> first | rfl | cases hop

/-- All that such a word sees of the stacks is what applying the operators leaves. -/
theorem take_congr (hdemand : demand (word :: words) = some least) (hs : s.expectOperand = false)
    (hs' : s'.expectOperand = false) (hreduce : s.reduce least s.ops = s'.reduce least s'.ops)
    (limit : Nat) : s.take limit word = s'.take limit word := by
  rcases eq_of_demand hdemand with ⟨rfl, rfl⟩ | ⟨op, rfl, hop, rfl⟩
  · rw [take_closing hs, take_closing hs', State.closeGroup, State.closeGroup, hreduce]
  · obtain ⟨hopen, hclose⟩ := op.token_ne_paren
    simp only [State.take, beq_iff_eq, if_neg hopen, if_neg hclose, Operator.ofToken?_token, hop,
      hs, hs', Bool.false_eq_true, if_false, hreduce]

theorem finish_congr (hs : s.expectOperand = false) (hs' : s'.expectOperand = false)
    (hreduce : s.reduce 0 s.ops = s'.reduce 0 s'.ops) : s.finish = s'.finish := by
  simp only [State.finish, hs, hs', hreduce, Bool.false_eq_true, if_false]

/-! ## One word -/

/-- The complaints that a scan would have of its own stacks. -/
def Complaint.isOfStacks : Complaint → Bool
  | .starved _ => true
  | .surplus => true
  | _ => false

/-- What becomes of a word that finds nothing to apply. -/
inductive Taken (s : State) (word : String) : Except Stop State → Prop
  | refused {trouble : Trouble Complaint} (h : ∀ c, trouble = .fault c → c.isOfStacks = false) :
      Taken s word (.error ⟨trouble, s.steps⟩)
  | opened (hword : word = "(") (hexpect : s.expectOperand = true) :
      Taken s word (.ok { s with ops := .paren :: s.ops })
  | closed {ops : List Pending} (hword : word = ")") (hexpect : s.expectOperand = false)
      (hops : s.ops = .paren :: ops) : Taken s word (.ok { s with ops })
  | negation {op : Operator} (hword : word ≠ "(" ∧ word ≠ ")") (hexpect : s.expectOperand = true)
      (hop : op.isUnary = true) : Taken s word (.ok { s with ops := .op op :: s.ops })
  | join {op : Operator} (hword : word ≠ "(" ∧ word ≠ ")") (hexpect : s.expectOperand = false)
      (hop : op.isUnary = false) :
      Taken s word (.ok { s with ops := .op op :: s.ops, expectOperand := true })
  | number {x : Binary64} (hword : word ≠ "(" ∧ word ≠ ")") (hexpect : s.expectOperand = true) :
      Taken s word (.ok { s with values := x :: s.values, expectOperand := false })

theorem Taken.complain {c : Complaint} (hc : c.isOfStacks = false) : Taken s word (s.complain c) :=
  .refused fun _ h => Trouble.fault.inj h ▸ hc

theorem Taken.pushOp {p : Pending} (h : Taken s word (.ok { s with ops := p :: s.ops })) :
    Taken s word (s.pushOp limit p) := by
  unfold State.pushOp
  split
  · exact .complain rfl
  · exact h

theorem Taken.closeGroup (hreduce : s.reduce 0 s.ops = .ok s) (hexpect : s.expectOperand = false) :
    Taken s ")" s.closeGroup := by
  rw [State.closeGroup, hreduce]
  dsimp only
  split
  · next ops hops => exact .closed rfl hexpect hops
  · exact .complain rfl

theorem Taken.joining (hreduce : s.reduce op.precedence s.ops = .ok s)
    (hexpect : s.expectOperand = false) (hop : op.isUnary = false) :
    Taken s op.token (s.take limit op.token) := by
  obtain ⟨hopen, hclose⟩ := op.token_ne_paren
  simp only [State.take, beq_iff_eq, if_neg hopen, if_neg hclose, Operator.ofToken?_token, hop,
    hexpect, Bool.false_eq_true, if_false, hreduce]
  by_cases hlimit : limit ≤ s.ops.length
  · simp only [State.pushOp, if_pos hlimit]
    exact .complain rfl
  · simp only [State.pushOp, if_neg hlimit]
    exact .join ⟨hopen, hclose⟩ hexpect hop

theorem Taken.take
    (hsettled : ∀ op, ¬ Site.Due ⟨word :: words, s, outer⟩ op) :
    Taken s word (s.take limit word) := by
  by_cases hopen : word = "("
  · subst hopen
    cases hexpect : s.expectOperand with
    | true =>
        simp only [State.take, beq_self_eq_true, if_true, hexpect]
        exact .pushOp (.opened rfl hexpect)
    | false =>
        simp only [State.take, beq_self_eq_true, if_true, hexpect]
        exact .complain rfl
  by_cases hclose : word = ")"
  · subst hclose
    cases hexpect : s.expectOperand with
    | true =>
        simp only [State.take, beq_iff_eq, if_neg hopen, beq_self_eq_true, if_true, hexpect]
        exact .complain rfl
    | false =>
        rw [take_closing hexpect]
        exact .closeGroup (Site.reduce_of_settled hsettled hexpect rfl) hexpect
  cases hop : Operator.ofToken? word with
  | some op =>
      have htoken := Operator.token_of_ofToken hop
      subst htoken
      cases hexpect : s.expectOperand with
      | true =>
          simp only [State.take, beq_iff_eq, if_neg hopen, if_neg hclose, hop, hexpect]
          cases hunary : op.isUnary with
          | true => exact .pushOp (.negation ⟨hopen, hclose⟩ hexpect hunary)
          | false => exact .complain rfl
      | false =>
          cases hunary : op.isUnary with
          | true =>
              simp only [State.take, beq_iff_eq, if_neg hopen, if_neg hclose, hop, hexpect, hunary]
              exact .complain rfl
          | false =>
              have hdemand := demand_token hunary words
              exact .joining (Site.reduce_of_settled hsettled hexpect hdemand) hexpect hunary
  | none =>
      simp only [State.take, beq_iff_eq, if_neg hopen, if_neg hclose, hop]
      cases Number.readNumber word with
      | tooLarge => exact .refused fun c hc => by cases hc
      | notANumber => exact .complain rfl
      | number x =>
          cases hexpect : s.expectOperand with
          | true =>
              by_cases hlimit : limit ≤ s.values.length
              · simp only [State.pushValue, if_pos hlimit]
                exact .complain rfl
              · simp only [State.pushValue, if_neg hlimit]
                exact .number ⟨hopen, hclose⟩ hexpect
          | false => exact .complain rfl

/-- A word that is taken adds one operator at most, and records nothing. -/
theorem Taken.frame (h : Taken s word (.ok s')) :
    s'.steps = s.steps ∧ s'.ops.length ≤ s.ops.length + 1 := by
  cases h with
  | opened => exact ⟨rfl, Nat.le_refl _⟩
  | closed hword hexpect hops =>
      refine ⟨rfl, ?_⟩
      rw [hops, List.length_cons]
      exact Nat.le_add_right _ 2
  | negation => exact ⟨rfl, Nat.le_refl _⟩
  | join => exact ⟨rfl, Nat.le_refl _⟩
  | number => exact ⟨rfl, Nat.le_succ _⟩

/-! ## The run -/

namespace Site

/-- A word that finds nothing to apply keeps the layers: a parenthesis covers them, and when it is
closed they are bare again. -/
theorem InLayers.take (h : InLayers ⟨word :: words, s, outer⟩)
    (htaken : Taken s word (.ok s')) : InLayers ⟨words, s', enclosing word s.values outer⟩ := by
  cases htaken with
  | opened hword hexpect =>
      subst hword
      cases h with
      | before h => exact .before h.paren
      | after h => cases hexpect
  | closed hword hexpect hops =>
      subst hword
      cases h with
      | before h => cases hexpect
      | after h =>
          -- The layer below the parenthesis is the one that it was read on.
          cases hops
          cases h with
          | paren h => exact .after h
  | negation hword hexpect hop =>
      rw [enclosing, if_neg hword.1, if_neg hword.2]
      cases h with
      | before h => exact .before (h.negation hop)
      | after h => cases hexpect
  | join hword hexpect hop =>
      rw [enclosing, if_neg hword.1, if_neg hword.2]
      cases h with
      | before h => cases hexpect
      | after h => exact .before (h.join hop)
  | number hword hexpect =>
      rw [enclosing, if_neg hword.1, if_neg hword.2]
      cases h with
      | before h => exact .after h
      | after h => cases hexpect

/-- One step keeps the layers. -/
theorem Step.inLayers (h : Step limit p q) (hp : p.InLayers) : q.InLayers := by
  cases h with
  | reduction hdue htop happly =>
      obtain ⟨r, s, -, -, happly', -, -, -, hlayers⟩ := hp.reduction hdue htop
      cases happly'.symm.trans happly
      exact hlayers
  | word hsettled htake => exact hp.take (htake ▸ Taken.take hsettled)

theorem InLayers.of_steps (hp : p.InLayers) (h : Relation.ReflTransGen (Step limit) p q) :
    q.InLayers := by
  induction h with
  | refl => exact hp
  | tail _ hstep ih => exact hstep.inLayers ih

/-- What the scan answers from a point on. -/
def answer (limit : Nat) (p : Site) : Except (Trouble Complaint) Bool × List Reduction :=
  match p.state.takeAll limit p.words with
  | .error stop => (.error stop.trouble, stop.steps.reverse)
  | .ok s =>
    match s.finish with
    | .error stop => (.error stop.trouble, stop.steps.reverse)
    | .ok (truth, s) => (.ok truth, s.steps.reverse)

/-- A step does not change the answer. -/
theorem Step.answer_eq (h : Step limit p q) (hp : p.InLayers) :
    p.answer limit = q.answer limit := by
  cases h with
  | reduction hdue htop happly =>
      obtain ⟨r, s, -, -, happly', hops, hafter, -, -⟩ := hp.reduction hdue htop
      cases happly'.symm.trans happly
      obtain ⟨hbefore, -, least, hdemand, hle⟩ := hdue
      have hreduce := reduce_of_apply htop hle happly hops
      obtain ⟨words, state, outer⟩ := p
      cases words with
      | nil =>
          cases hdemand
          simp only [answer, State.takeAll, finish_congr hbefore hafter hreduce]
      | cons word words =>
          simp only [answer, State.takeAll, take_congr hdemand hbefore hafter hreduce limit]
  | word hsettled htake => simp only [answer, State.takeAll, htake]

/-- The steps that a point has before it, at most. -/
def ahead (p : Site) : Nat := 2 * p.words.length + p.state.ops.length

theorem Step.ahead_lt (h : Step limit p q) (hp : p.InLayers) : q.ahead < p.ahead := by
  cases h with
  | reduction hdue htop happly =>
      obtain ⟨r, s, -, -, happly', hops, -, -, -⟩ := hp.reduction hdue htop
      cases happly'.symm.trans happly
      rw [ahead, ahead, htop, List.length_cons, hops]
      exact Nat.lt_succ_self _
  | word hsettled htake =>
      obtain ⟨-, hops⟩ := Taken.frame (htake ▸ Taken.take hsettled)
      simp only [ahead, List.length_cons]
      omega

/-- A scan ends. -/
theorem InLayers.exists_end (limit : Nat) (hp : p.InLayers) :
    ∃ q, Relation.ReflTransGen (Step limit) p q ∧ ∀ q', ¬ Step limit q q' := by
  -- A word takes away two of the steps ahead and adds at most one, a reduction takes away one.
  induction hn : p.ahead using Nat.strong_induction_on generalizing p with
  | _ n ih =>
      by_cases hstep : ∃ q, Step limit p q
      · obtain ⟨q, hstep⟩ := hstep
        obtain ⟨last, hreach, hlast⟩ := ih q.ahead (hn ▸ hstep.ahead_lt hp) (hstep.inLayers hp) rfl
        exact ⟨last, .head hstep hreach, hlast⟩
      · exact ⟨p, .refl, not_exists.mp hstep⟩

/-- A scan that cannot go on has found fault with the words and not with its stacks, or has one
operand left. -/
theorem InLayers.answer_of_stuck (hp : p.InLayers) (hstuck : ∀ q, ¬ Step limit p q) :
    (p.answer limit).2 = p.state.steps.reverse ∧
      ∀ c, (p.answer limit).1 = .error (.fault c) → c.isOfStacks = false := by
  have hsettled : ∀ op, ¬ p.Due op := by
    intro op hdue
    obtain ⟨ops, htop⟩ := hdue.2.1
    obtain ⟨r, s, -, -, happly, -⟩ := hp.reduction hdue htop
    exact hstuck _ (.reduction hdue htop happly)
  obtain ⟨words, s, outer⟩ := p
  cases words with
  | nil =>
      cases hp with
      | before h => exact ⟨rfl, fun c hc => by cases hc; rfl⟩
      | @after _ ops x values steps _ h =>
          have hreduce := reduce_of_settled hsettled rfl (show demand [] = some 0 from rfl)
          simp only [answer, State.takeAll, State.finish, Bool.false_eq_true, if_false, hreduce]
          cases h with
          | nil => exact ⟨rfl, fun c hc => by cases hc⟩
          | paren h => exact ⟨rfl, fun c hc => by cases hc; rfl⟩
          | negation hop h => exact ⟨rfl, fun c hc => by cases hc; rfl⟩
          | join hop h => exact ⟨rfl, fun c hc => by cases hc; rfl⟩
  | cons word words =>
      have htaken : Taken s word (s.take limit word) := Taken.take hsettled
      cases htake : s.take limit word with
      | ok s' => exact absurd (.word hsettled htake) (hstuck _)
      | error stop =>
          rw [htake] at htaken
          cases htaken with
          | @refused trouble hfault =>
              have hanswer : answer limit ⟨word :: words, s, outer⟩ =
                  (.error trouble, s.steps.reverse) := by
                simp only [answer, State.takeAll, htake]
              rw [hanswer]
              exact ⟨rfl, fun c hc => hfault c (Except.error.inj hc)⟩

/-- A word that is taken is taken step by step. -/
theorem InLayers.steps_of_take (hp : InLayers ⟨word :: words, s, outer⟩)
    (htake : s.take limit word = .ok s') :
    ∃ outer', Relation.ReflTransGen (Step limit) ⟨word :: words, s, outer⟩ ⟨words, s', outer'⟩ := by
  -- The reductions come first; each takes one operator away and leaves the word the same to do.
  induction hops : s.ops generalizing s with
  | nil =>
      have hsettled : ∀ op, ¬ Due ⟨word :: words, s, outer⟩ op := by
        rintro op ⟨-, ⟨ops, htop⟩, -⟩
        cases hops.symm.trans htop
      exact ⟨_, .single (.word hsettled htake)⟩
  | cons pending below ih =>
      by_cases hsettled : ∀ op, ¬ Due ⟨word :: words, s, outer⟩ op
      · exact ⟨_, .single (.word hsettled htake)⟩
      · obtain ⟨op, hdue⟩ := not_forall_not.mp hsettled
        obtain ⟨ops, htop⟩ := hdue.2.1
        cases hops.symm.trans htop
        obtain ⟨r, s₁, -, -, happly, hbelow, hafter, -, hlayers⟩ := hp.reduction hdue htop
        have hstep : Step limit ⟨word :: words, s, outer⟩ ⟨word :: words, s₁, outer⟩ :=
          .reduction hdue htop happly
        obtain ⟨hbefore, -, least, hdemand, hle⟩ := hdue
        have hreduce := reduce_of_apply htop hle happly hbelow
        rw [take_congr hdemand hbefore hafter hreduce] at htake
        obtain ⟨outer', hreach⟩ := ih hlayers htake hbelow
        exact ⟨outer', .head hstep hreach⟩

theorem InLayers.steps_of_takeAll {read : List String} (hp : InLayers ⟨read ++ words, s, outer⟩)
    (htake : s.takeAll limit read = .ok s') :
    ∃ outer', Relation.ReflTransGen (Step limit) ⟨read ++ words, s, outer⟩ ⟨words, s', outer'⟩ := by
  induction read generalizing s outer with
  | nil =>
      cases htake
      exact ⟨outer, .refl⟩
  | cons word read ih =>
      rw [State.takeAll] at htake
      cases hword : s.take limit word with
      | error stop => simp [hword] at htake
      | ok s₁ =>
          simp only [hword] at htake
          obtain ⟨outer₁, hfirst⟩ := hp.steps_of_take hword
          obtain ⟨outer', hrest⟩ := ih (hp.of_steps hfirst) htake
          exact ⟨outer', hfirst.trans hrest⟩

end Site

/-! ## Operands and reductions of a scan -/

namespace Reaches

variable {tokens : List String}

theorem inLayers (h : Reaches limit tokens p) : p.InLayers :=
  Site.InLayers.of_steps (.before .nil) h

theorem answer_eq (h : Reaches limit tokens p) : evaluate tokens limit = p.answer limit := by
  induction h with
  | refl => rfl
  | tail hreach hstep ih => exact ih.trans (hstep.answer_eq (inLayers hreach))

/-- Every reduction that is recorded was made at some point before. -/
theorem exists_makes (h : Reaches limit tokens p) :
    ∀ r ∈ p.state.steps, ∃ q, Reaches limit tokens q ∧ q.Due r.op ∧ q.Makes r := by
  induction h with
  | refl => exact List.forall_mem_nil _
  | @tail p q hreach hstep ih =>
      cases hstep with
      | reduction hdue htop happly =>
          obtain ⟨r, s, rfl, hmakes, happly', -, -, hsteps, -⟩ :=
            (inLayers hreach).reduction hdue htop
          cases happly'.symm.trans happly
          rw [hsteps]
          exact List.forall_mem_cons.mpr ⟨⟨p, hreach, hdue, hmakes⟩, ih⟩
      | word hsettled htake =>
          obtain ⟨hsteps, -⟩ := Taken.frame (htake ▸ Taken.take hsettled)
          rwa [hsteps]

/-- The last point of a scan. -/
theorem exists_last (limit : Nat) (tokens : List String) :
    ∃ p, Reaches limit tokens p ∧ (evaluate tokens limit).2 = p.state.steps.reverse ∧
      ∀ c, (evaluate tokens limit).1 = .error (.fault c) → c.isOfStacks = false := by
  have hstart : Site.InLayers ⟨tokens, {}, []⟩ := .before .nil
  obtain ⟨p, hreach, hstuck⟩ := hstart.exists_end limit
  have hanswer : evaluate tokens limit = p.answer limit := answer_eq hreach
  rw [hanswer]
  exact ⟨p, hreach, (hstart.of_steps hreach).answer_of_stuck hstuck⟩

end Reaches

/-- **Reductions find their operands.**  Whatever the words and the limit, no condition is refused
because an operator lacks an operand or because operands are left over.  At every point of the scan
there are as many operands as operators that join two, with one more where no operand is expected;
and an operator that is due finds its operands above those that were there when the innermost open
parenthesis was read.  The points are all that the scan comes to between its words, and all at which
it makes a reduction. -/
theorem reductions_find_operands (tokens : List String) (limit : Nat) :
    (∀ op, (evaluate tokens limit).1 ≠ .error (.fault (.starved op))) ∧
      (evaluate tokens limit).1 ≠ .error (.fault .surplus) ∧
      (∀ p, Reaches limit tokens p →
        p.state.InStep ∧ p.outer.length = p.state.ops.count .paren ∧
          ∀ op, p.Due op → ∃ r, r.op = op ∧ p.Makes r) ∧
      (∀ read words s, read ++ words = tokens → State.takeAll limit {} read = .ok s →
        ∃ outer, Reaches limit tokens ⟨words, s, outer⟩) ∧
      ∀ r ∈ (evaluate tokens limit).2, ∃ p, Reaches limit tokens p ∧ p.Due r.op ∧ p.Makes r := by
  obtain ⟨last, hlast, hsteps, hfault⟩ := Reaches.exists_last limit tokens
  refine ⟨fun op h => ?_, fun h => ?_, fun p hp => ⟨?_, ?_, fun op hdue => ?_⟩,
    fun read words s hread htake => ?_, fun r hr => ?_⟩
  · cases hfault _ h
  · cases hfault _ h
  · exact hp.inLayers.inStep
  · exact hp.inLayers.length_outer
  · obtain ⟨ops, htop⟩ := hdue.2.1
    obtain ⟨r, s, hop, hmakes, -⟩ := hp.inLayers.reduction hdue htop
    exact ⟨r, hop, hmakes⟩
  · subst hread
    exact Site.InLayers.steps_of_takeAll (.before .nil) htake
  · rw [hsteps, List.mem_reverse] at hr
    exact hlast.exists_makes r hr

/-- A condition whose parenthesis is not closed, with an operand outside it. -/
def unclosed : List String := ["2", "-and", "(", "0", "-or", "-not", "3"]

theorem reductions_find_operands_unclosed :
    (∃ p, Reaches 4 unclosed p ∧ p.Due .or ∧ p.Makes ⟨.or, [0, 0], 0⟩) ∧
      ∃ s outer, Reaches 4 unclosed ⟨[], s, outer⟩ ∧ s.values = [3, 0, 2] ∧ s.InStep ∧
        outer.length = 1 := by
  obtain ⟨-, -, hpoints, hwords, hmade⟩ := reductions_find_operands unclosed 4
  refine ⟨hmade ⟨.or, [0, 0], 0⟩ (by decide +kernel), ?_⟩
  have hsome : (State.takeAll 4 {} unclosed).toOption =
      some ⟨[.op .not, .op .or, .paren, .op .and], [3, 0, 2], false, []⟩ := by decide +kernel
  cases htake : State.takeAll 4 {} unclosed with
  | error stop => simp [htake, Except.toOption] at hsome
  | ok s =>
      rw [htake] at hsome
      cases hsome
      obtain ⟨outer, hreach⟩ := hwords unclosed [] _ (List.append_nil _) htake
      obtain ⟨hstep, houter, -⟩ := hpoints _ hreach
      exact ⟨_, outer, hreach, rfl, hstep, houter⟩

end InputScript.Condition
