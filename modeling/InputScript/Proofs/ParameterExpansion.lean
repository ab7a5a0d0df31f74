import Mathlib.Data.List.Basic
import InputScript.Word.Check

/-!
# Parameter expansions in a line

The scan for refused characters lets everything through inside a substitution.  What it takes for the
end of a parameter expansion decides what it looks at afterwards.  The shell ends one at the first
`}` that is neither quoted nor escaped; the scan also counts brackets on the way, so a bracket in the
text of the parameter has to be closed first.

For a text without quotes, escapes and further expansions the two agree exactly if the brackets in it
are closed (`IsClosed`).  Then the expansion is as good as a single letter to the scan; otherwise it
never ends there, and hides what follows.

## Main results

* `check_over` — the scan of a text goes on from where the scan of its first part has come to.
* `expansion_transparent_iff` — an expansion is taken for a letter in front of every text exactly if
  its brackets are closed; then no special character behind it is let through.
* `expansion_hides_list` — the expansion of `X#(` hides a second command.
-/

namespace InputScript.Word

variable {c : Char}

/-! ## The scan of a part of a line -/

/-- Scans a part of a line, up to its end.  There is no answer if the scan stops before, or if the
last character escapes the next. -/
def Scan.over (s : Scan) : List Char → Option Scan
  | [] => some s
  | [c] => if s.escapes c || s.startsComment c then none else (s.step c).toOption
  | c :: d :: rest =>
    if s.escapes c then Scan.over { s with wordStart := false } rest
    else
      match s.substitution? c d with
      | some closer => Scan.over { s with closers := closer :: s.closers, wordStart := false } rest
      | none =>
        if s.startsComment c then none
        else
          match s.step c with
          | .error _ => none
          | .ok s => Scan.over s (d :: rest)

/-- A scan within no quote, substitution or backtick. -/
def outside (wordStart : Bool) : Scan := { wordStart }

/-- The text leaves the scan outside of everything. -/
def EndsOutside (text : String) : Prop := ∃ wordStart, Scan.over {} text.toList = some (outside wordStart)

/-- One character. -/
theorem check_cons {s s' : Scan} {seen rest : List Char} (hescape : s.escapes c = false)
    (hopen : ∀ d ∈ rest.head?, s.substitution? c d = none) (hcomment : s.startsComment c = false)
    (hstep : s.step c = .ok s') : check s seen (c :: rest) = check s' (c :: seen) rest := by
  cases rest with
  | nil =>
      simp only [check, hescape, hcomment, hstep]
      rfl
  | cons d rest =>
      have hnone := hopen d rfl
      simp only [check, hescape, hcomment, hstep, hnone]
      rfl

theorem Scan.step_of_toOption {s s' : Scan} (h : (s.step c).toOption = some s') :
    s.step c = .ok s' := by
  cases hs : s.step c with
  | error fault => simp [hs, Except.toOption] at h
  | ok next => simpa [hs, Except.toOption] using h

/-- The scan goes on after a part of a line, unless a dollar sign and a bracket are taken apart. -/
theorem check_over {s s' : Scan} {u v seen : List Char} (h : s.over u = some s')
    (hapart : u.getLast? = some '$' → v.head?.bind closer? = none) :
    check s seen (u ++ v) = check s' (u.reverse ++ seen) v := by
  fun_induction Scan.over s u generalizing seen with
  | case1 s =>
      cases h
      rfl
  | case2 s c hstop => cases h
  | case3 s c hgo =>
      rw [Bool.not_eq_true, Bool.or_eq_false_iff] at hgo
      refine check_cons hgo.1 (fun d hd => ?_) hgo.2 (Scan.step_of_toOption h)
      unfold Scan.substitution?
      split
      · next hdollar =>
          have hc : c = '$' := by simpa using (Bool.and_eq_true_iff.mp hdollar).1
          have hnone := hapart (by rw [hc]; rfl)
          have hhead : v.head? = some d := hd
          rwa [hhead] at hnone
      · rfl
  | case4 s c d rest hescape ih =>
      have hlast := fun hlast => hapart (@List.mem_getLast?_append_of_mem_getLast? _ [c, d] _ _ hlast)
      have hrest := @ih (d :: c :: seen) h hlast
      simpa [check, hescape] using hrest
  | case5 s c d rest hescape closer hopen ih =>
      have hlast := fun hlast => hapart (@List.mem_getLast?_append_of_mem_getLast? _ [c, d] _ _ hlast)
      have hrest := @ih (d :: c :: seen) h hlast
      simpa [check, hescape, hopen] using hrest
  | case6 s c d rest hescape hopen hcomment => cases h
  | case7 s c d rest hescape hopen hcomment fault hstep => cases h
  | case8 s c d rest hescape hopen hcomment next hstep ih =>
      have hlast := fun hlast => hapart (@List.mem_getLast?_append_of_mem_getLast? _ [c] _ _ hlast)
      have hrest := @ih (c :: seen) h hlast
      simpa [check, hescape, hopen, hcomment, hstep] using hrest

/-- What the scan has seen only matters to the part before a comment. -/
theorem check_append_seen (s : Scan) (seen text before : List Char) :
    check s (seen ++ before) text =
      (check s seen text).map (Option.map (· ++ before)) := by
  fun_induction check s seen text with
  | case1 s seen =>
      rw [check]
      cases s.finish <;> rfl
  | case2 s seen c hescape =>
      simp only [check, hescape, if_true]
      cases ({ s with wordStart := false } : Scan).finish <;> rfl
  | case3 s seen c hescape hcomment =>
      simp only [check, hescape, hcomment, if_true]
      rfl
  | case4 s seen c hescape hcomment =>
      simp only [check, hescape, hcomment]
      rcases s.step c with fault | s'
      · rfl
      · simp only [bind, Except.bind]
        cases s'.finish <;> rfl
  | case5 s seen c d rest hescape ih => simpa [check, hescape] using ih
  | case6 s seen c d rest hescape closer hopen ih => simpa [check, hescape, hopen] using ih
  | case7 s seen c d rest hescape hopen hcomment =>
      simp only [check, hescape, hopen, hcomment, if_true]
      rfl
  | case8 s seen c d rest hescape hopen hcomment fault hstep =>
      simp only [check, hescape, hopen, hcomment, hstep]
      rfl
  | case9 s seen c d rest hescape hopen hcomment s' hstep ih =>
      simpa [check, hescape, hopen, hcomment, hstep] using ih

/-- What is left of a text when a scan goes on with it. -/
def commandFrom (s : Scan) (text : String) : Except CheckFault String :=
  match check s [] text.toList with
  | .error fault => .error fault
  | .ok none => .ok text
  | .ok (some seen) => .ok (Text.trimEnd (String.ofList seen.reverse))

/-- Blanks are only trimmed behind the last character that is none. -/
theorem trimEndChars_concat_append (hc : Text.isBlank c = false) (u v : List Char) :
    Text.trimEndChars (u ++ [c] ++ v) = u ++ [c] ++ Text.trimEndChars v := by
  have hkeep : (u ++ [c]).reverse.dropWhile Text.isBlank = (u ++ [c]).reverse := by
    simp [hc]
  unfold Text.trimEndChars
  rw [List.reverse_append, List.dropWhile_append, hkeep]
  split
  · next hempty =>
      rw [List.isEmpty_iff.mp hempty]
      simp
  · simp

variable {u : String}

/-- A line whose first part the scan has gone over, and does not end with a blank. -/
theorem command_append {t : String} {s : Scan} {start : List Char}
    (hu : u.toList = start ++ [c]) (hc : Text.isBlank c = false)
    (hcheck : check {} [] (u.toList ++ t.toList) = check s u.toList.reverse t.toList) :
    command (u ++ t) = (commandFrom s t).map (u ++ ·) := by
  have hseen := check_append_seen s [] t.toList u.toList.reverse
  rw [List.nil_append] at hseen
  unfold command commandFrom
  rw [String.toList_append, hcheck, hseen]
  rcases check s [] t.toList with fault | _ | seen
  · rfl
  · rfl
  · simp only [Except.map, Option.map, Text.trimEnd, String.toList_ofList, List.reverse_append,
      List.reverse_reverse, hu, trimEndChars_concat_append hc]
    rw [String.ofList_append, ← hu, String.ofList_toList]

/-! ## The text of a parameter -/

/-- A character that neither quotes, escapes nor expands, and does not end an expansion. -/
abbrev IsPlain (c : Char) : Prop := c ∉ ['\'', '"', '\\', '$', '`', '\x7d']

/-- The text of a parameter has plain characters only. -/
abbrev IsParameter (p : String) : Prop := ∀ c ∈ p.toList, IsPlain c

-- only the characters of the text are looked at, not all that there are
instance (p : String) : Decidable (IsParameter p) := List.decidableBAll IsPlain p.toList

/-- How many parentheses are open after a text.  A closing one that matches none does not count. -/
def openParens (cs : List Char) : Nat :=
  cs.foldl (fun n c => if c = '(' then n + 1 else if c = ')' then n - 1 else n) 0

/-- The brackets of a text are closed.  In the text of a parameter an opening brace cannot be. -/
abbrev IsClosed (p : String) : Prop := '\x7b' ∉ p.toList ∧ openParens p.toList = 0

/-- The closers that are missing inside an expansion after one more character. -/
def nest (closers : List Char) (c : Char) : List Char :=
  match closer? c, closers with
  | some closer, closers => closer :: closers
  | none, top :: outer => if top == c then outer else top :: outer
  | none, [] => []

/-- The closers that are missing after a text. -/
def missing (cs : List Char) : List Char := cs.foldl nest []

theorem nest_paren (n : Nat) (hc : c ≠ '\x7b') :
    nest (List.replicate n ')') c =
      List.replicate (if c = '(' then n + 1 else if c = ')' then n - 1 else n) ')' := by
  by_cases hopen : c = '('
  · subst hopen
    rfl
  have hcloser : closer? c = none := by simp [closer?, hopen, hc]
  rw [if_neg hopen]
  cases n with
  | zero => simp [nest, hcloser]
  | succ n =>
      by_cases hclose : c = ')'
      · subst hclose
        rfl
      · have htop : ')' ≠ c := fun h => hclose h.symm
        simp [nest, hcloser, hclose, htop, List.replicate_succ]

/-- Without braces only parentheses can be missing. -/
theorem missing_eq_replicate {cs : List Char} (hcs : '\x7b' ∉ cs) :
    missing cs = List.replicate (openParens cs) ')' := by
  have hfrom : ∀ n, cs.foldl nest (List.replicate n ')') =
      List.replicate (cs.foldl (fun n c => if c = '(' then n + 1 else if c = ')' then n - 1 else n)
        n) ')' := by
    induction cs with
    | nil => exact fun n => rfl
    | cons c cs ih =>
        intro n
        simp only [List.mem_cons, not_or] at hcs
        rw [List.foldl_cons, nest_paren n (Ne.symm hcs.1), ih hcs.2, List.foldl_cons]
  exact hfrom 0

/-- The closer of a brace stays missing. -/
theorem mem_foldl_nest {cs : List Char} (hcs : ∀ c ∈ cs, IsPlain c) {closers : List Char}
    (h : '\x7d' ∈ closers) : '\x7d' ∈ cs.foldl nest closers := by
  induction cs generalizing closers with
  | nil => exact h
  | cons c cs ih =>
      obtain ⟨hc, hcs⟩ := List.forall_mem_cons.mp hcs
      refine ih hcs ?_
      unfold nest
      split
      · exact List.mem_cons_of_mem _ h
      · next top outer _ =>
          split
          · next htop =>
              have hne : '\x7d' ≠ top := by
                intro hbrace
                rw [eq_of_beq htop] at hbrace
                exact hc (by simp [← hbrace])
              exact (List.mem_cons.mp h).resolve_left hne
          · exact h
      · exact h

variable {p : String}

/-- No closer is missing exactly if the brackets are closed. -/
theorem missing_eq_nil_iff (hp : IsParameter p) :
    missing p.toList = [] ↔ IsClosed p := by
  by_cases hbrace : '\x7b' ∈ p.toList
  · refine ⟨fun hnil => ?_, fun hclosed => absurd hbrace hclosed.1⟩
    obtain ⟨before, after, hsplit⟩ := List.append_of_mem hbrace
    have hafter : ∀ c ∈ after, IsPlain c := by
      intro c hc
      exact hp c (by simp [hsplit, hc])
    have hmem : '\x7d' ∈ after.foldl nest (nest (before.foldl nest []) '\x7b') := by
      refine mem_foldl_nest hafter ?_
      simp [nest, closer?]
    rw [missing, hsplit, List.foldl_append, List.foldl_cons] at hnil
    rw [hnil] at hmem
    cases hmem
  · rw [missing_eq_replicate hbrace, List.replicate_eq_nil_iff]
    exact ⟨fun hzero => ⟨hbrace, hzero⟩, fun hclosed => hclosed.2⟩

/-! ## The scan of an expansion -/

/-- The scan inside an expansion that misses some closers. -/
def within (closers : List Char) : Scan :=
  { closers := closers ++ ['\x7d'], wordStart := false }

theorem step_within {closers : List Char} (hc : IsPlain c) :
    (within closers).step c = .ok (within (nest closers c)) := by
  simp only [IsPlain, List.mem_cons, List.not_mem_nil, or_false, not_or] at hc
  obtain ⟨hsingle, hdouble, -, -, hbacktick, hbrace⟩ := hc
  cases hopen : closer? c with
  | some closer => simp [Scan.step, within, hsingle, hdouble, hbacktick, nest, hopen]
  | none =>
      cases closers with
      | nil =>
          have htop : '\x7d' ≠ c := fun h => hbrace h.symm
          simp [Scan.step, within, hsingle, hdouble, hbacktick, nest, hopen, Scan.close, htop]
      | cons top outer =>
          by_cases htop : top = c
          · simp [Scan.step, within, hsingle, hdouble, hbacktick, nest, hopen, Scan.close, htop]
          · simp [Scan.step, within, hsingle, hdouble, hbacktick, nest, hopen, Scan.close, htop]

theorem check_within {p : List Char} (hp : ∀ c ∈ p, IsPlain c) (closers seen rest : List Char) :
    check (within closers) seen (p ++ rest) =
      check (within (p.foldl nest closers)) (p.reverse ++ seen) rest := by
  induction p generalizing closers seen with
  | nil => rfl
  | cons c p ih =>
      obtain ⟨hc, hp⟩ := List.forall_mem_cons.mp hp
      have hstep := @step_within c closers hc
      simp only [IsPlain, List.mem_cons, List.not_mem_nil, or_false, not_or] at hc
      have hescape : (within closers).escapes c = false := by simp [Scan.escapes, hc]
      have hopen : ∀ d ∈ (p ++ rest).head?, (within closers).substitution? c d = none := by
        simp [Scan.substitution?, hc]
      have hcomment : (within closers).startsComment c = false := by
        simp [Scan.startsComment, within]
      rw [List.cons_append, check_cons hescape hopen hcomment hstep, ih hp]
      simp

/-- An expansion, as far as the brace that ends it in the shell. -/
def expansion (p : String) : String := "$\x7b" ++ p ++ "\x7d"

theorem check_expansion (hp : IsParameter p) (wordStart : Bool) (seen rest : List Char) :
    check (outside wordStart) seen ((expansion p).toList ++ rest) =
      check (within (missing p.toList)) (p.toList.reverse ++ '\x7b' :: '$' :: seen)
        ('\x7d' :: rest) := by
  have htext : (expansion p).toList ++ rest = '$' :: '\x7b' :: (p.toList ++ '\x7d' :: rest) := by
    simp [expansion]
  rw [htext]
  exact check_within hp [] ('\x7b' :: '$' :: seen) ('\x7d' :: rest)

/-- The brace at the end of an expansion. -/
theorem check_brace {s : Scan} {closers seen rest : List Char}
    (hstep : (within closers).step '\x7d' = .ok s) :
    check (within closers) seen ('\x7d' :: rest) = check s ('\x7d' :: seen) rest := by
  refine check_cons rfl (fun d _ => rfl) ?_ hstep
  simp [Scan.startsComment]

/-- An expansion that is closed leaves the scan as a letter does. -/
theorem check_of_closed (hp : IsParameter p) (hclosed : IsClosed p) (wordStart : Bool)
    (seen rest : List Char) :
    check (outside wordStart) seen ((expansion p).toList ++ rest) =
      check (outside false) ((expansion p).toList.reverse ++ seen) rest := by
  have hstep : (within []).step '\x7d' = .ok (outside false) := rfl
  rw [check_expansion hp, (missing_eq_nil_iff hp).mpr hclosed, check_brace hstep]
  simp [expansion]

/-- An expansion that is not closed goes on after its brace. -/
theorem check_of_not_closed (hp : IsParameter p) (hclosed : ¬IsClosed p) (wordStart : Bool)
    (seen : List Char) :
    ∃ closer, check (outside wordStart) seen (expansion p).toList =
      .error (.openSubstitution closer) := by
  rw [← List.append_nil (expansion p).toList, check_expansion hp]
  cases hmissing : missing p.toList with
  | nil => exact absurd ((missing_eq_nil_iff hp).mp hmissing) hclosed
  | cons top outer =>
      by_cases htop : top = '\x7d'
      · have hstep : (within (top :: outer)).step '\x7d' = .ok (within outer) := by
          simp [Scan.step, within, closer?, Scan.close, htop]
        rw [check_brace hstep]
        cases outer with
        | nil => exact ⟨'\x7d', rfl⟩
        | cons next outer => exact ⟨next, rfl⟩
      · have hstep : (within (top :: outer)).step '\x7d' = .ok (within (top :: outer)) := by
          simp [Scan.step, within, closer?, Scan.close, htop]
        rw [check_brace hstep]
        exact ⟨top, rfl⟩

theorem check_letter (wordStart : Bool) (seen rest : List Char) :
    check (outside wordStart) seen ('x' :: rest) = check (outside false) ('x' :: seen) rest :=
  check_cons rfl (fun _ _ => rfl) rfl rfl

/-- A special character outside of everything. -/
theorem check_special (hc : isSpecial c = true) (wordStart : Bool) (seen rest : List Char) :
    check (outside wordStart) seen (c :: rest) = .error (.illegal c) := by
  simp only [isSpecial, List.contains_eq_mem, List.mem_cons, List.not_mem_nil, or_false,
    decide_eq_true_eq] at hc
  rcases hc with rfl | rfl | rfl | rfl | rfl | rfl | rfl | rfl | rfl <;> cases rest <;> rfl

/-! ## Lines with an expansion -/

/-- A line with an expansion has the same outcome as one with a letter in its place: both are refused
for the same reason, or of the text behind them the same is left. -/
def Transparent (u p t : String) : Prop :=
  ∃ r : Except CheckFault String, command (u ++ expansion p ++ t) = r.map (u ++ expansion p ++ ·) ∧
    command (u ++ "x" ++ t) = r.map (u ++ "x" ++ ·)

theorem command_expansion (hu : EndsOutside u) (hp : IsParameter p) (hclosed : IsClosed p)
    (t : String) :
    command (u ++ expansion p ++ t) =
      (commandFrom (outside false) t).map (u ++ expansion p ++ ·) := by
  obtain ⟨wordStart, hover⟩ := hu
  have hend : (u ++ expansion p).toList = (u.toList ++ ('$' :: '\x7b' :: p.toList)) ++ ['\x7d'] := by
    simp [expansion]
  refine command_append hend (by decide) ?_
  rw [String.toList_append, List.append_assoc,
    check_over hover (fun _ => by simp [expansion, closer?]), List.append_nil,
    check_of_closed hp hclosed, List.reverse_append]

theorem command_letter (hu : EndsOutside u) (t : String) :
    command (u ++ "x" ++ t) = (commandFrom (outside false) t).map (u ++ "x" ++ ·) := by
  obtain ⟨wordStart, hover⟩ := hu
  have hend : (u ++ "x").toList = u.toList ++ ['x'] := by simp
  refine command_append hend (by decide) ?_
  rw [hend, List.append_assoc, check_over hover (fun _ => by simp [closer?]), List.append_nil,
    List.singleton_append, check_letter, List.reverse_append]
  rfl

theorem command_of_not_closed (hu : EndsOutside u) (hp : IsParameter p) (hclosed : ¬IsClosed p) :
    ∃ closer, command (u ++ expansion p) = .error (.openSubstitution closer) := by
  obtain ⟨wordStart, hover⟩ := hu
  obtain ⟨closer, hcheck⟩ := check_of_not_closed hp hclosed wordStart (u.toList.reverse ++ [])
  refine ⟨closer, ?_⟩
  unfold command
  rw [String.toList_append, check_over hover (fun _ => by simp [expansion, closer?]), hcheck]

/-- A special character behind a part of a line that leaves the scan outside of everything. -/
theorem command_special (hu : EndsOutside u) (hc : isSpecial c = true)
    (hapart : u.toList.getLast? = some '$' → closer? c = none) (w : String) :
    command (u ++ (String.singleton c ++ w)) = .error (.illegal c) := by
  obtain ⟨wordStart, hover⟩ := hu
  have htext : (u ++ (String.singleton c ++ w)).toList = u.toList ++ c :: w.toList := by simp
  have hcheck : check {} [] (u.toList ++ c :: w.toList) = .error (.illegal c) := by
    rw [check_over (v := c :: w.toList) hover hapart, check_special hc]
  unfold command
  rw [htext, hcheck]

/-- What is refused behind a letter is refused behind an expansion that is closed. -/
theorem command_eq_error {t : String} {fault : CheckFault} (hu : EndsOutside u) (hp : IsParameter p)
    (hclosed : IsClosed p) (h : command (u ++ "x" ++ t) = .error fault) :
    command (u ++ expansion p ++ t) = .error fault := by
  rw [command_letter hu] at h
  rw [command_expansion hu hp hclosed]
  cases hrest : commandFrom (outside false) t with
  | error fault' =>
      rw [hrest] at h
      exact h
  | ok rest =>
      rw [hrest] at h
      cases h

/-- An expansion is as good as a letter in front of every text exactly if its brackets are closed.
Then a special character that comes behind it, outside of everything, is refused. -/
theorem expansion_transparent_iff {u p : String} (hu : EndsOutside u) (hp : IsParameter p) :
    ((∀ t, Transparent u p t) ↔ IsClosed p) ∧
      (IsClosed p → ∀ v c w, EndsOutside (u ++ "x" ++ v) → isSpecial c = true →
        ((u ++ "x" ++ v).toList.getLast? = some '$' → closer? c = none) →
          command (u ++ expansion p ++ (v ++ (String.singleton c ++ w))) = .error (.illegal c)) := by
  constructor
  · constructor
    · intro hall
      by_cases hclosed : IsClosed p
      · exact hclosed
      -- The empty text is enough: only the letter is a whole line.
      obtain ⟨r, hexpansion, hletter⟩ := hall ""
      obtain ⟨closer, hopen⟩ := command_of_not_closed hu hp hclosed
      rw [String.append_empty, hopen] at hexpansion
      rw [command_letter hu] at hletter
      cases r with
      | error fault => cases hletter
      | ok rest => cases hexpansion
    · intro hclosed t
      exact ⟨commandFrom (outside false) t, command_expansion hu hp hclosed t, command_letter hu t⟩
  · intro hclosed v c w hv hc hapart
    refine command_eq_error hu hp hclosed ?_
    rw [← String.append_assoc]
    exact command_special hv hc hapart w

/-- The parentheses of `X#(y)` are closed, so what stands behind it is looked at. -/
theorem expansion_transparent_prefix :
    (∀ t, Transparent "echo " "X#(y)" t) ∧
      command ("echo " ++ expansion "X#(y)" ++ (" " ++ (String.singleton ';' ++ " id"))) =
        .error (.illegal ';') := by
  have hu : EndsOutside "echo " := ⟨true, by decide⟩
  have hp : IsParameter "X#(y)" := by decide
  have hclosed : IsClosed "X#(y)" := by decide
  have hv : EndsOutside ("echo " ++ "x" ++ " ") := ⟨true, by decide⟩
  have hiff := expansion_transparent_iff hu hp
  exact ⟨hiff.1.mpr hclosed, hiff.2 hclosed " " ';' " id" hv (by decide) (by decide)⟩

/-- The parenthesis of `X#(` is not closed, and the scan takes the command behind it for a part of the
expansion.  The brackets between the quotes let it come to an end. -/
theorem expansion_hides_list :
    EndsOutside "echo " ∧ IsParameter "X#(" ∧
      command ("echo " ++ expansion "X#(" ++ " ; id \")\x7d\"") =
        .ok ("echo " ++ expansion "X#(" ++ " ; id \")\x7d\"") ∧
      command ("echo " ++ "x" ++ " ; id \")\x7d\"") = .error (.illegal ';') ∧
      ¬Transparent "echo " "X#(" " ; id \")\x7d\"" := by
  have haccepted : command ("echo " ++ expansion "X#(" ++ " ; id \")\x7d\"") =
      .ok ("echo " ++ expansion "X#(" ++ " ; id \")\x7d\"") := rfl
  have hrefused : command ("echo " ++ "x" ++ " ; id \")\x7d\"") = .error (.illegal ';') := rfl
  refine ⟨⟨true, by decide⟩, by decide, haccepted, hrefused, ?_⟩
  rintro ⟨r, hexpansion, hletter⟩
  rw [haccepted] at hexpansion
  rw [hrefused] at hletter
  cases r with
  | error fault => cases hexpansion
  | ok rest => cases hletter

end InputScript.Word
