import InputScript.Condition

/-!
# The grammar of conditions

A condition is a number, a condition in parentheses, a condition after `-not`, or two conditions that
a word joins.  How tightly the words bind is a matter of levels: a phrase of level zero stands by
itself, and a phrase of a level above is a phrase of the level below, or one of its own level, a word
of this level and one of the level below.  So words of the same level group to the left.

`Derives` is this grammar.  Beside it stands a parser that reads a condition word by word.  What it
has read is a tree with a hole in it, kept from the hole outwards (`Hole`), and perhaps the phrase
that fills the hole (`Point`).  A word that binds less tightly than the words around the hole first
closes what they join (`climb`).

## Main results

* `parse_eq_some_iff` — the parser answers with a tree exactly if the grammar derives it; so the
  tree of a condition is unique.
-/

namespace InputScript.Condition

/-! ## Trees -/

/-- A condition as it is written. -/
inductive Tree
  | number (x : Binary64)
  | group (inner : Tree)
  | negation (inner : Tree)
  | join (word : String) (left right : Tree)
deriving DecidableEq, Repr

/-- What a joining word says of two numbers. -/
def joined (word : String) (a b : Binary64) : Bool :=
  if word = "-eq" then a.eq b
  else if word = "-ne" then !a.eq b
  else if word = "-lt" then a.lt b
  else if word = "-gt" then b.lt a
  else if word = "-le" then a.le b
  else if word = "-ge" then b.le a
  else if word = "-and" then !a.eq 0 && !b.eq 0
  else !a.eq 0 || !b.eq 0

/-- The number that a condition stands for; what holds is one, what does not is zero. -/
def Tree.value : Tree → Binary64
  | .number x => x
  | .group t => t.value
  | .negation t => ofBool (t.value.eq 0)
  | .join word left right => ofBool (joined word left.value right.value)

/-! ## The grammar -/

/-- The level of the phrases that a word forms: the comparisons bind tightest, then `-and`, then
`-or`.  No other word joins phrases. -/
def joins? (word : String) : Option Nat :=
  if word ∈ ["-eq", "-ne", "-lt", "-gt", "-le", "-ge"] then some 1
  else if word = "-and" then some 2
  else if word = "-or" then some 3
  else none

/-- The words are a phrase of a level, written for the tree. -/
inductive Derives : Nat → List String → Tree → Prop
  | number {word : String} {x : Binary64} (hword : Number.readNumber word = .number x) :
      Derives 0 [word] (.number x)
  | negation {words : List String} {t : Tree} (h : Derives 0 words t) :
      Derives 0 ("-not" :: words) (.negation t)
  | group {words : List String} {t : Tree} (h : Derives 3 words t) :
      Derives 0 ("(" :: (words ++ [")"])) (.group t)
  | tighter {level : Nat} {words : List String} {t : Tree} (h : Derives level words t) :
      Derives (level + 1) words t
  | join {level : Nat} {word : String} {left right : List String} {l r : Tree}
      (hword : joins? word = some (level + 1)) (hleft : Derives (level + 1) left l)
      (hright : Derives level right r) :
      Derives (level + 1) (left ++ word :: right) (.join word l r)

/-- A phrase is one of every level above its own. -/
theorem Derives.mono {m n : Nat} {words : List String} {t : Tree} (h : Derives m words t)
    (hle : m ≤ n) : Derives n words t := by
  induction hle with
  | refl => exact h
  | step _ ih => exact ih.tighter

/-- A condition is a phrase of the highest level. -/
abbrev IsCondition (words : List String) (t : Tree) : Prop := Derives 3 words t

/-! ## The parser -/

/-- What is right around the hole of a tree: a parenthesis, a `-not`, or a word with the phrase on
its left. -/
inductive Hole
  | group
  | negation
  | join (word : String) (left : Tree)

/-- What the words so far have made of the tree: its holes, innermost first, and the phrase that was
read last if it may fill the innermost. -/
inductive Point
  | before (holes : List Hole)
  | after (holes : List Hole) (t : Tree)

/-- The level of a word; of one that joins nothing it is zero. -/
def looseness (word : String) : Nat := (joins? word).getD 0

/-- Fills holes with a phrase, as long as they bind at least as tightly as words of a level. -/
def climb (level : Nat) : List Hole → Tree → List Hole × Tree
  | .negation :: holes, t => climb level holes (.negation t)
  | .join word left :: holes, t =>
    if looseness word ≤ level then climb level holes (.join word left t)
    else (.join word left :: holes, t)
  | holes, t => (holes, t)

namespace Point

/-- Ends a group with a phrase in it. -/
def endGroup : List Hole × Tree → Option Point
  | (.group :: holes, t) => some (.after holes (.group t))
  | _ => none

/-- Goes on with a word. -/
def read : Point → String → Option Point
  | .before holes, word =>
    if word = "(" then some (.before (.group :: holes))
    else if word = "-not" then some (.before (.negation :: holes))
    else
      match Number.readNumber word with
      | .number x => some (.after holes (.number x))
      | _ => none
  | .after holes t, word =>
    if word = ")" then endGroup (climb 3 holes t)
    else
      match joins? word with
      | some level =>
        some (.before (.join word (climb level holes t).2 :: (climb level holes t).1))
      | none => none

/-- Goes on with some words. -/
def readAll (p : Point) (words : List String) : Option Point := words.foldlM read p

/-- The tree, if nothing is missing. -/
def close : Point → Option Tree
  | .before _ => none
  | .after holes t =>
    match climb 3 holes t with
    | ([], t) => some t
    | _ => none

theorem readAll_cons (p : Point) (word : String) (words : List String) :
    p.readAll (word :: words) = (p.read word).bind (readAll · words) := rfl

theorem readAll_append (p : Point) (left right : List String) :
    p.readAll (left ++ right) = (p.readAll left).bind (readAll · right) :=
  List.foldlM_append

end Point

/-- The tree of a condition. -/
def parse (words : List String) : Option Tree := ((Point.before []).readAll words).bind Point.close

/-! ## Words -/

variable {word : String} {words : List String} {level : Nat} {holes : List Hole} {t : Tree}

theorem joins?_le (h : joins? word = some level) :
    0 < level ∧ level ≤ 3 := by
  unfold joins? at h
  split at h
  · cases h; omega
  · split at h
    · cases h; omega
    · split at h
      · cases h; omega
      · cases h

theorem looseness_of_joins (h : joins? word = some level) :
    looseness word = level := by
  rw [looseness, h, Option.getD_some]

theorem ne_close_of_joins (h : joins? word = some level) :
    word ≠ ")" := by
  rintro rfl
  simp [joins?] at h

/-- A number is no parenthesis and no operator. -/
theorem ne_of_readNumber {word other : String} {x : Binary64}
    (h : Number.readNumber word = .number x) (hother : Number.readNumber other = .notANumber) :
    word ≠ other := by
  rintro rfl
  rw [hother] at h
  cases h

theorem readNumber_open : Number.readNumber "(" = .notANumber := by decide +kernel

theorem readNumber_not : Number.readNumber "-not" = .notANumber := by decide +kernel

/-! ## Holes -/

/-- The innermost hole binds less tightly than words of a level. -/
def Settled (level : Nat) : List Hole → Prop
  | .negation :: _ => False
  | .join word _ :: _ => level < looseness word
  | _ => True

theorem climb_of_settled (h : Settled level holes) (t : Tree) :
    climb level holes t = (holes, t) := by
  rcases holes with _ | ⟨_ | _ | ⟨word, left⟩, holes⟩
  · rfl
  · rfl
  · exact h.elim
  · rw [climb, if_neg (Nat.not_le.mpr h)]

theorem Settled.mono {m n : Nat} (h : Settled n holes) (hle : m ≤ n) :
    Settled m holes := by
  rcases holes with _ | ⟨_ | _ | ⟨word, left⟩, holes⟩
  · trivial
  · trivial
  · exact h.elim
  · exact Nat.lt_of_le_of_lt hle h

/-- A phrase of a level may fill the innermost hole.  One that stands by itself fills any. -/
def Fits (level : Nat) (holes : List Hole) : Prop := level = 0 ∨ Settled level holes

theorem Fits.mono {m n : Nat} (h : Fits n holes) (hle : m ≤ n) :
    Fits m holes := by
  rcases h with rfl | h
  · exact .inl (Nat.le_zero.mp hle)
  · exact .inr (h.mono hle)

/-! ## What the grammar derives is parsed -/

/-- Reading a phrase fills the innermost hole, as far as looser words can tell. -/
theorem Derives.readAll (h : Derives level words t) (hfits : Fits level holes) :
    ∃ inner t', (Point.before holes).readAll words = some (.after inner t') ∧
      ∀ looser, level ≤ looser → climb looser inner t' = climb looser holes t := by
  induction h generalizing holes with
  | @number word x hword =>
      refine ⟨holes, .number x, ?_, fun _ _ => rfl⟩
      have hopen := ne_of_readNumber hword readNumber_open
      have hnot := ne_of_readNumber hword readNumber_not
      simp [Point.readAll, Point.read, hopen, hnot, hword]
  | negation _ ih =>
      have hinside : Fits 0 (.negation :: holes) := .inl rfl
      obtain ⟨inner, t', hread, hclimb⟩ := ih hinside
      refine ⟨inner, t', ?_, fun looser hle => ?_⟩
      · rw [Point.readAll_cons]
        exact hread
      · rw [hclimb looser hle, climb]
  | @group words t _ ih =>
      have hinside : Fits 3 (.group :: holes) := .inr trivial
      obtain ⟨inner, t', hread, hclimb⟩ := ih hinside
      refine ⟨holes, .group t, ?_, fun _ _ => rfl⟩
      have hfilled : climb 3 inner t' = (.group :: holes, t) := hclimb 3 (Nat.le_refl 3)
      have hclose : Point.read (.after inner t') ")" = some (.after holes (.group t)) := by
        rw [Point.read, if_pos rfl, hfilled, Point.endGroup]
      have hopen : Point.read (.before holes) "(" = some (.before (.group :: holes)) := rfl
      rw [Point.readAll_cons, hopen, Option.bind_some, Point.readAll_append, hread,
        Option.bind_some, Point.readAll_cons, hclose]
      rfl
  | tighter _ ih =>
      obtain ⟨inner, t', hread, hclimb⟩ := ih (hfits.mono (Nat.le_succ _))
      exact ⟨inner, t', hread, fun looser hle => hclimb looser (Nat.le_of_succ_le hle)⟩
  | @join level word left right l r hword _ _ ihleft ihright =>
      have hsettled : Settled (level + 1) holes := hfits.resolve_left (Nat.succ_ne_zero level)
      obtain ⟨inner, l', hleft, hclimb⟩ := ihleft hfits
      have hfilled : climb (level + 1) inner l' = (holes, l) := by
        rw [hclimb _ (Nat.le_refl _), climb_of_settled hsettled]
      have hloose := looseness_of_joins hword
      have hright : Fits level (.join word l :: holes) := by
        refine .inr ?_
        show level < looseness word
        omega
      obtain ⟨inner', r', hread, hclimb'⟩ := ihright hright
      refine ⟨inner', r', ?_, fun looser hle => ?_⟩
      · have hjoin : Point.read (.after inner l') word = some (.before (.join word l :: holes)) := by
          simp only [Point.read, if_neg (ne_close_of_joins hword), hword, hfilled]
        rw [Point.readAll_append, hleft, Option.bind_some, Point.readAll_cons, hjoin]
        exact hread
      · rw [hclimb' looser (Nat.le_of_succ_le hle), climb, if_pos (by omega)]

theorem parse_of_derives (h : IsCondition words t) :
    parse words = some t := by
  have hfits : Fits 3 [] := .inr trivial
  obtain ⟨inner, t', hread, hclimb⟩ := h.readAll hfits
  have hwhole : climb 3 inner t' = ([], t) := hclimb 3 (Nat.le_refl 3)
  rw [parse, hread, Option.bind_some, Point.close, hwhole]

/-! ## What is parsed the grammar derives -/

/-- The words of the holes, from the outermost on.  What a word joins on its left is a phrase of its
level, and the hole around it binds less tightly. -/
inductive Spelled : List Hole → List String → Prop
  | nil : Spelled [] []
  | group {holes : List Hole} {words : List String} (h : Spelled holes words) :
      Spelled (.group :: holes) (words ++ ["("])
  | negation {holes : List Hole} {words : List String} (h : Spelled holes words) :
      Spelled (.negation :: holes) (words ++ ["-not"])
  | join {holes : List Hole} {words left : List String} {level : Nat} {word : String} {l : Tree}
      (h : Spelled holes words) (hword : joins? word = some (level + 1))
      (hleft : Derives (level + 1) left l) (hsettled : Settled (level + 1) holes) :
      Spelled (.join word l :: holes) (words ++ (left ++ [word]))

/-- The words that were read, with the phrase that was read last. -/
inductive Point.Read : Point → List String → Prop
  | before {holes : List Hole} {words : List String} (h : Spelled holes words) :
      Read (.before holes) words
  | after {holes : List Hole} {words last : List String} {t : Tree} (h : Spelled holes words)
      (hlast : Derives 0 last t) : Read (.after holes t) (words ++ last)

/-- Filling holes makes a longer phrase of the same words. -/
theorem Spelled.climb {words last : List String} {n level : Nat}
    (h : Spelled holes words) (hlast : Derives n last t) (hfits : Fits n holes) (hle : n ≤ level) :
    ∃ before phrase, words ++ last = before ++ phrase ∧
      Spelled (climb level holes t).1 before ∧ Settled level (climb level holes t).1 ∧
      Derives level phrase (climb level holes t).2 := by
  induction h generalizing last t n with
  | nil => exact ⟨[], last, rfl, .nil, trivial, hlast.mono hle⟩
  | @group holes words h ih => exact ⟨_, last, rfl, .group h, trivial, hlast.mono hle⟩
  | @negation holes words h ih =>
      obtain rfl : n = 0 := hfits.resolve_right id
      obtain ⟨before, phrase, hwords, hrest⟩ := ih hlast.negation (.inl rfl) hle
      exact ⟨before, phrase, by simpa using hwords, hrest⟩
  | @join holes words left m word l h hword hleft hsettled ih =>
      have hloose := looseness_of_joins hword
      by_cases hlevel : looseness word ≤ level
      · have hn : n ≤ m := by
          rcases hfits with rfl | hlt
          · exact Nat.zero_le m
          · have hlt' : n < looseness word := hlt
            omega
        have hjoined := Derives.join hword hleft (hlast.mono hn)
        obtain ⟨before, phrase, hwords, hrest⟩ := ih hjoined (.inr hsettled) (by omega)
        rw [Condition.climb, if_pos hlevel]
        exact ⟨before, phrase, by simpa using hwords, hrest⟩
      · rw [Condition.climb, if_neg hlevel]
        exact ⟨_, last, rfl, .join h hword hleft hsettled, Nat.not_le.mp hlevel, hlast.mono hle⟩

theorem Point.Read.read {p q : Point} (h : p.Read words)
    (hread : p.read word = some q) : q.Read (words ++ [word]) := by
  cases h with
  | before h =>
      simp only [Point.read] at hread
      split at hread
      · next hopen =>
          cases hread
          rw [hopen]
          exact .before h.group
      · split at hread
        · next hnot =>
            cases hread
            rw [hnot]
            exact .before h.negation
        · split at hread
          · next x hnumber =>
              cases hread
              exact .after h (.number hnumber)
          · cases hread
  | @after holes words last t h hlast =>
      simp only [Point.read] at hread
      split at hread
      · next hclose =>
          obtain ⟨before, phrase, hwords, hspelled, -, hphrase⟩ :=
            h.climb hlast (.inl rfl) (Nat.zero_le 3)
          unfold Point.endGroup at hread
          split at hread
          · next inner t' hclimb =>
              cases hread
              rw [hclimb] at hspelled hphrase
              cases hspelled with
              | @group _ outside hspelled =>
                  have hspelling : words ++ last ++ [word] =
                      outside ++ ("(" :: (phrase ++ [")"])) := by
                    rw [hwords, hclose]
                    simp
                  rw [hspelling]
                  exact .after hspelled hphrase.group
          · cases hread
      · split at hread
        · next level hword =>
            cases hread
            obtain ⟨n, rfl⟩ := Nat.exists_eq_succ_of_ne_zero (Nat.ne_of_gt (joins?_le hword).1)
            obtain ⟨before, phrase, hwords, hspelled, hsettled, hphrase⟩ :=
              h.climb hlast (.inl rfl) (Nat.zero_le (n + 1))
            rw [hwords, List.append_assoc]
            exact .before (hspelled.join hword hphrase hsettled)
        · cases hread

theorem Point.Read.readAll {p q : Point} {before words : List String} (h : p.Read before)
    (hread : p.readAll words = some q) : q.Read (before ++ words) := by
  induction words generalizing p before with
  | nil =>
      cases hread
      rw [List.append_nil]
      exact h
  | cons word words ih =>
      rw [Point.readAll_cons, Option.bind_eq_some_iff] at hread
      obtain ⟨next, hnext, hrest⟩ := hread
      rw [← List.singleton_append, ← List.append_assoc]
      exact ih (h.read hnext) hrest

theorem derives_of_parse (h : parse words = some t) :
    IsCondition words t := by
  obtain ⟨p, hread, hclose⟩ := Option.bind_eq_some_iff.mp h
  have hwords := (Point.Read.before .nil).readAll hread
  rw [List.nil_append] at hwords
  cases hwords with
  | before _ => cases hclose
  | @after holes outside last t' hspelled hlast =>
      obtain ⟨before, phrase, hsame, hspelled', -, hphrase⟩ :=
        hspelled.climb hlast (.inl rfl) (Nat.zero_le 3)
      simp only [Point.close] at hclose
      split at hclose
      · next t'' hclimb =>
          cases hclose
          rw [hclimb] at hspelled' hphrase
          cases hspelled'
          rw [hsame]
          exact hphrase
      · cases hclose

/-- The parser answers with a tree exactly if the grammar derives it. -/
theorem parse_eq_some_iff :
    parse words = some t ↔ IsCondition words t :=
  ⟨derives_of_parse, parse_of_derives⟩

end InputScript.Condition
