import InputScript.Script.Scratch
import Mathlib.Data.List.ReduceOption

/-!
# Readers over one scratch

All readers over a scratch share its cursor.  So a line goes to whichever reader asks next, and what
one of them gets may have gaps; a reader that once found nothing gets nothing any more, though others
do.  Taken together, however, they get the stored lines from the first one on, as long as nobody sets
the cursor back: at any time what was delivered since then is what lies before the cursor
(`Scratch.Replayed`).

## Main results

* `Shared.step_replayed` — what one operation does to the lines that were delivered.
* `Shared.answers_untilEnd` — a reader that is asked until it ends gets all that is left.
* `deliveries_in_order` — after any operations the cursor is in bounds, and the deliveries since it
  was set back are the first of the stored lines; a fresh reader gets all of these after a rewind.
-/

namespace InputScript.Script

/-! ## Operations -/

/-- What may be done with a scratch and its readers, which go by numbers. -/
inductive Operation
  | append (line : Line)
  | rewind
  | truncate
  | next (reader : Nat)
deriving DecidableEq, Repr

/-- Whether the operation sets the cursor back. -/
def Operation.restarts : Operation → Bool
  | .rewind => true
  | .truncate => true
  | _ => false

/-- A scratch and the readers over it, those included that were never asked. -/
structure Shared where
  scratch : Scratch := {}
  readers : Nat → Reader := fun _ => {}

namespace Shared

/-- One operation, with the line that it delivers. -/
def step (d : Shared) : Operation → Option Line × Shared
  | .append line => (none, { d with scratch := d.scratch.append line })
  | .rewind => (none, { d with scratch := d.scratch.rewind })
  | .truncate => (none, { d with scratch := d.scratch.truncate })
  | .next i =>
    let (line, scratch, reader) := d.scratch.read (d.readers i)
    (line, { scratch, readers := Function.update d.readers i reader })

/-- What operations leave. -/
def after (d : Shared) (ops : List Operation) : Shared := ops.foldl (fun d op => (d.step op).2) d

/-- What each of the operations delivers. -/
def answers (d : Shared) : List Operation → List (Option Line)
  | [] => []
  | op :: ops => (d.step op).1 :: (d.step op).2.answers ops

/-- The lines that operations deliver, to whichever reader. -/
def delivered (d : Shared) (ops : List Operation) : List Line := (d.answers ops).reduceOption

end Shared

/-- Asks a reader for every line that is left, and once more. -/
def Scratch.untilEnd (s : Scratch) (i : Nat) : List Operation :=
  List.replicate (s.rest.length + 1) (.next i)

/-! ## Reading -/

namespace Scratch

variable {s : Scratch} {r : Reader}

theorem getElem?_cursor (s : Scratch) : s.lines[s.cursor]? = s.rest.head? := List.head?_drop.symm

theorem read_of_ended (hended : r.ended = true) : s.read r = (none, s, r) := if_pos hended

theorem read_of_rest_nil (hopen : r.ended = false) (hrest : s.rest = []) :
    s.read r = (none, s, { ended := true }) := by
  rw [read, if_neg (by simp [hopen]), advance, getElem?_cursor, hrest, List.head?_nil]

theorem read_of_rest_cons (hopen : r.ended = false) {line : Line} {rest : List Line}
    (hrest : s.rest = line :: rest) :
    s.read r = (some line, { s with cursor := s.cursor + 1 }, r) := by
  rw [read, if_neg (by simp [hopen]), advance, getElem?_cursor, hrest, List.head?_cons]

theorem lt_of_rest_cons {line : Line} {rest : List Line} (hrest : s.rest = line :: rest) :
    s.cursor < s.lines.length := by
  have hlength := congrArg List.length hrest
  rw [Scratch.rest, List.length_drop, List.length_cons] at hlength
  omega

/-- The lines are those that were delivered since the cursor was set back. -/
structure Replayed (s : Scratch) (lines : List Line) : Prop where
  inBounds : s.cursor ≤ s.size
  eq_take : lines = s.lines.take s.cursor

namespace Replayed

variable {lines : List Line}

theorem isPrefix (h : s.Replayed lines) : lines <+: s.lines := h.eq_take ▸ List.take_prefix _ _

theorem length_eq (h : s.Replayed lines) : lines.length = s.cursor := by
  rw [h.eq_take]
  exact List.length_take_of_le h.inBounds

theorem start (s : Scratch) (hcursor : s.cursor = 0) : s.Replayed [] := by
  refine ⟨?_, ?_⟩
  · rw [hcursor]
    exact Nat.zero_le _
  · rw [hcursor]
    rfl

/-- A line that is stored behind the others does not count as delivered. -/
theorem append (h : s.Replayed lines) (line : Line) : (s.append line).Replayed lines := by
  have hle : s.cursor ≤ s.lines.length := h.inBounds
  refine ⟨?_, ?_⟩
  · show s.cursor ≤ (s.lines ++ [line]).length
    rw [List.length_append]
    exact Nat.le_add_right_of_le hle
  · show lines = (s.lines ++ [line]).take s.cursor
    rw [List.take_append_of_le_length hle, h.eq_take]

/-- A line that a reader gets is the next one after those that were delivered. -/
theorem read (h : s.Replayed lines) (r : Reader) :
    (s.read r).2.1.Replayed (lines ++ (s.read r).1.toList) := by
  cases hended : r.ended with
  | true =>
      rw [read_of_ended hended, Option.toList_none, List.append_nil]
      exact h
  | false =>
      cases hrest : s.rest with
      | nil =>
          rw [read_of_rest_nil hended hrest, Option.toList_none, List.append_nil]
          exact h
      | cons line rest =>
          rw [read_of_rest_cons hended hrest]
          refine ⟨lt_of_rest_cons hrest, ?_⟩
          show lines ++ [line] = s.lines.take (s.cursor + 1)
          rw [List.take_add_one, getElem?_cursor, hrest, List.head?_cons, Option.toList_some,
            h.eq_take]

end Replayed

end Scratch

/-! ## One operation -/

namespace Shared

variable {d : Shared} {lines : List Line}

/-- An operation adds what it delivers, or sets the cursor back. -/
theorem step_replayed (h : d.scratch.Replayed lines) (op : Operation) :
    (d.step op).2.scratch.Replayed (if op.restarts then [] else lines ++ (d.step op).1.toList) := by
  cases op with
  | append line =>
      show (d.scratch.append line).Replayed (lines ++ [])
      rw [List.append_nil]
      exact h.append line
  | rewind => exact .start _ rfl
  | truncate => exact .start _ rfl
  | next i => exact h.read (d.readers i)

theorem readers_step {i : Nat} {op : Operation} (hop : op ≠ .next i) :
    (d.step op).2.readers i = d.readers i := by
  cases op with
  | append line => rfl
  | rewind => rfl
  | truncate => rfl
  | next j =>
      have hne : i ≠ j := fun h => hop (h ▸ rfl)
      exact Function.update_of_ne hne _ _

/-- A reader that has not ended gets the first line of the rest. -/
theorem step_next {i : Nat} (hopen : (d.readers i).ended = false) {line : Line} {rest : List Line}
    (hrest : d.scratch.rest = line :: rest) :
    d.step (.next i) =
      (some line, ⟨{ d.scratch with cursor := d.scratch.cursor + 1 }, d.readers⟩) := by
  simp only [step, Scratch.read_of_rest_cons hopen hrest, Function.update_eq_self]

/-! ## Many operations -/

theorem after_append (d : Shared) (ops ops' : List Operation) :
    d.after (ops ++ ops') = (d.after ops).after ops' := List.foldl_append

/-- Whatever is done, the deliveries since the cursor was set back lie before it. -/
theorem exists_replayed (h : d.scratch.Replayed lines) (ops : List Operation) :
    ∃ lines', (d.after ops).scratch.Replayed lines' := by
  induction ops generalizing d lines with
  | nil => exact ⟨lines, h⟩
  | cons op ops ih => exact ih (step_replayed h op)

/-- When the cursor was just set back, nothing is delivered yet. -/
theorem replayed_nil {history : List Operation}
    (hlast : ∀ op ∈ history.getLast?, op.restarts = true) :
    (after {} history).scratch.Replayed [] := by
  rcases List.eq_nil_or_concat' history with rfl | ⟨earlier, op, rfl⟩
  · exact .start _ rfl
  · have hop : op.restarts = true := hlast op (by simp)
    obtain ⟨lines, h⟩ := exists_replayed (.start ({} : Shared).scratch rfl) earlier
    have hstep := step_replayed h op
    rw [if_pos hop] at hstep
    rw [after_append]
    exact hstep

theorem delivered_cons (d : Shared) (op : Operation) (ops : List Operation) :
    d.delivered (op :: ops) = (d.step op).1.toList ++ (d.step op).2.delivered ops := by
  unfold delivered
  rw [answers]
  cases (d.step op).1 with
  | none => exact List.reduceOption_cons_of_none _
  | some line => exact List.reduceOption_cons_of_some _ _

/-- As long as the cursor is not set back, the deliveries add up. -/
theorem after_replayed (h : d.scratch.Replayed lines) {ops : List Operation}
    (hops : ∀ op ∈ ops, op.restarts = false) :
    (d.after ops).scratch.Replayed (lines ++ d.delivered ops) := by
  induction ops generalizing d lines with
  | nil => exact (List.append_nil lines).symm ▸ h
  | cons op ops ih =>
      obtain ⟨hop, hops⟩ := List.forall_mem_cons.mp hops
      have hstep := step_replayed h op
      rw [if_neg (by simp [hop])] at hstep
      rw [delivered_cons, ← List.append_assoc]
      exact ih hstep hops

/-- A reader that is not asked does not end. -/
theorem readers_after {i : Nat} {ops : List Operation} (hops : Operation.next i ∉ ops) :
    (d.after ops).readers i = d.readers i := by
  induction ops generalizing d with
  | nil => rfl
  | cons op ops ih =>
      obtain ⟨hop, hops⟩ := not_or.mp (mt List.mem_cons.mpr hops)
      exact (ih hops).trans (readers_step (Ne.symm hop))

/-- A reader that is asked until it ends gets all that is left, and leaves the cursor behind it. -/
theorem answers_untilEnd {i : Nat} (hopen : (d.readers i).ended = false) :
    d.answers (d.scratch.untilEnd i) = d.scratch.readAll.1.map some ++ [none] ∧
      (d.after (d.scratch.untilEnd i)).scratch = d.scratch.readAll.2 := by
  unfold Scratch.untilEnd Scratch.readAll
  induction hrest : d.scratch.rest generalizing d with
  | nil =>
      have hread := Scratch.read_of_rest_nil hopen hrest
      have hend : d.scratch.lines.length ≤ d.scratch.cursor := List.drop_eq_nil_iff.mp hrest
      constructor
      · simp [answers, step, hread]
      · simp [after, step, hread, hend]
  | cons line rest ih =>
      have hstep := step_next hopen hrest
      have hlt := Scratch.lt_of_rest_cons hrest
      have hrest' : ({ d.scratch with cursor := d.scratch.cursor + 1 } : Scratch).rest = rest :=
        List.tail_drop.symm.trans (congrArg List.tail hrest)
      obtain ⟨hanswers, hafter⟩ :=
        ih (d := ⟨{ d.scratch with cursor := d.scratch.cursor + 1 }, d.readers⟩) hopen hrest'
      rw [List.length_cons, List.replicate_succ]
      constructor
      · rw [answers, hstep, hanswers]
        rfl
      · have hmax : max (d.scratch.cursor + 1) d.scratch.lines.length =
            max d.scratch.cursor d.scratch.lines.length := by omega
        rw [after, List.foldl_cons, hstep]
        refine hafter.trans ?_
        rw [hmax]

end Shared

/-- **Deliveries come in order.**  After any operations on a scratch, through any number of readers,
the cursor is not beyond the stored lines.  The lines that were delivered since the cursor was set
back, or since the start, are the stored ones up to the cursor, whichever reader got them.  Once the
cursor is set back, a reader that was never asked gets all stored lines and then ends; reading all at
once does the same. -/
theorem deliveries_in_order (history : List Operation) :
    (Shared.after {} history).scratch.cursor ≤ (Shared.after {} history).scratch.size ∧
      (∀ earlier since, earlier ++ since = history →
        (∀ op ∈ earlier.getLast?, op.restarts = true) → (∀ op ∈ since, op.restarts = false) →
        (Shared.after {} earlier).delivered since <+: (Shared.after {} history).scratch.lines ∧
          ((Shared.after {} earlier).delivered since).length =
            (Shared.after {} history).scratch.cursor) ∧
      ∀ i rewound, Operation.next i ∉ history → rewound = Shared.after {} (history ++ [.rewind]) →
        rewound.answers (rewound.scratch.untilEnd i) =
            (Shared.after {} history).scratch.lines.map some ++ [none] ∧
          rewound.scratch.readAll = ((Shared.after {} history).scratch.lines,
            (rewound.after (rewound.scratch.untilEnd i)).scratch) := by
  refine ⟨?_, ?_, ?_⟩
  · obtain ⟨lines, h⟩ := Shared.exists_replayed (.start ({} : Shared).scratch rfl) history
    exact h.inBounds
  · rintro earlier since rfl hlast hsince
    have h := Shared.after_replayed (Shared.replayed_nil hlast) hsince
    rw [List.nil_append, ← Shared.after_append] at h
    exact ⟨h.isPrefix, h.length_eq⟩
  · rintro i rewound hfresh rfl
    have hopen : ((Shared.after {} (history ++ [.rewind])).readers i).ended = false := by
      rw [Shared.readers_after (by simpa using hfresh)]
    obtain ⟨hanswers, hafter⟩ := Shared.answers_untilEnd hopen
    have hlines : (Shared.after {} (history ++ [.rewind])).scratch.readAll.1 =
        (Shared.after {} history).scratch.lines := by
      rw [Shared.after_append]
      rfl
    rw [hlines] at hanswers
    exact ⟨hanswers, Prod.ext hlines hafter.symm⟩

/-- Reader zero ends before a second line is stored, so that it gets no line after the rewind. -/
def endedEarly : List Operation :=
  [.append ⟨1, "echo a"⟩, .next 0, .next 0, .append ⟨2, "echo b"⟩, .rewind]

theorem deliveries_in_order_endedEarly :
    (Shared.after {} endedEarly).delivered [.next 1, .next 0, .next 2] =
        [⟨1, "echo a"⟩, ⟨2, "echo b"⟩] ∧
      (Shared.after {} endedEarly).delivered [.next 1, .next 0, .next 2] <+:
        (Shared.after {} (endedEarly ++ [.next 1, .next 0, .next 2])).scratch.lines ∧
      Operation.next 3 ∉ endedEarly ∧
      ∃ rewound, rewound = Shared.after {} (endedEarly ++ [.rewind]) ∧
        rewound.answers (rewound.scratch.untilEnd 3) =
          (Shared.after {} endedEarly).scratch.lines.map some ++ [none] := by
  have hlast : ∀ op ∈ endedEarly.getLast?, op.restarts = true := by decide
  have hsince : ∀ op ∈ [Operation.next 1, .next 0, .next 2], op.restarts = false := by decide
  have hfresh : Operation.next 3 ∉ endedEarly := by decide
  obtain ⟨-, hstored, -⟩ := deliveries_in_order (endedEarly ++ [.next 1, .next 0, .next 2])
  obtain ⟨-, -, hreplay⟩ := deliveries_in_order endedEarly
  exact ⟨rfl, (hstored _ _ rfl hlast hsince).1, hfresh, _, rfl, (hreplay 3 _ hfresh rfl).1⟩

end InputScript.Script
