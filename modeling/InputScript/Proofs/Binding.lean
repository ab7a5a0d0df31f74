import InputScript.Proofs.Program

/-!
# Options and arguments of a command

The options of a command stand before its arguments.  They end at the first word that cannot be an
option, or at a mark that is dropped; the value of an option is the next word, whatever it looks
like.  Binding takes these words apart.  Here they are put together again (`Invocation.words`), and
the two are inverse to each other: every word of a command is found in its options, its mark or its
arguments, and what is written down with a mark is bound to what it was.

## Main results

* `takeOptions_ok`, `takeOptions_optionWords` — which words are taken for options.
* `bind_eq_ok_iff` — which words are bound to a command.
* `binding_inverts_writing` — nothing is lost and nothing is invented.
-/

namespace InputScript

/-- The word that gives an option. -/
def Switch.word (s : Switch) : String := "-" ++ s.name

theorem Switch.name_injective : Function.Injective Switch.name := by
  intro s t h
  cases s <;> cases t <;> first | rfl | exact absurd h (by decide)

theorem Switch.toList_word (s : Switch) : s.word.toList = '-' :: s.name.toList := by
  rw [word, String.toList_append]
  rfl

variable {before : List (Switch × Option String)}

namespace Invocation

/-- The words of options, each with its value behind it. -/
def optionWords (options : List (Switch × Option String)) : List String :=
  options.flatMap fun o => o.1.word :: o.2.toList

/-- The mark that ends the options, for a verb that has any. -/
def endMark (verb : Verb) : List String := if verb.acceptsOptions then ["--"] else []

/-- The words of a command, with the end of its options marked. -/
def words (i : Invocation) : List String :=
  i.verb.name :: (optionWords i.options ++ endMark i.verb ++ i.args)

/-- Options that a verb accepts: they are its own, no two have the same name, and those that take a
value have one. -/
structure Accepts (verb : Verb) (options : List (Switch × Option String)) : Prop where
  own : ∀ o ∈ options, o.1 ∈ verb.switches
  valued : ∀ o ∈ options, o.2.isSome = o.1.takesValue
  distinct : (options.map fun o => o.1.name).Nodup

/-- A command that its verb accepts, with as many arguments as the verb may have. -/
structure WellFormed (i : Invocation) : Prop where
  options : Accepts i.verb i.options
  least : i.verb.minArgs ≤ i.args.length
  most : ∀ most, i.verb.maxArgs = some most → i.args.length ≤ most

/-! ## Words that are options -/

/-- A word that may be an option has a dash and something behind it. -/
theorem toList_of_endsOptions {word : String} (h : endsOptions word = .ok false) :
    ∃ cs, word.toList = '-' :: cs := by
  unfold endsOptions at h
  split at h
  · cases h
  · next hword => exact ⟨_, hword⟩
  · cases h

theorem endsOptions_word (s : Switch) : endsOptions s.word = .ok false := by
  cases s <;> rfl

theorem endsOptions_mark : endsOptions "--" = .ok true := rfl

theorem switchOf?_eq_some {verb : Verb} {word : String} {s : Switch}
    (hword : endsOptions word = .ok false) (h : switchOf? verb word = some s) :
    s ∈ verb.switches ∧ word = s.word := by
  obtain ⟨cs, hcs⟩ := toList_of_endsOptions hword
  unfold switchOf? at h
  have hname := List.find?_some h
  refine ⟨List.mem_of_find?_eq_some h, String.toList_inj.mp ?_⟩
  rw [hcs, List.drop_one, List.tail_cons, beq_iff_eq] at hname
  rw [s.toList_word, hname, hcs]

theorem switchOf?_word {verb : Verb} {s : Switch} (h : s ∈ verb.switches) :
    switchOf? verb s.word = some s := by
  cases hfound : switchOf? verb s.word with
  | none =>
      have hnone := List.find?_eq_none.mp hfound s h
      rw [s.toList_word] at hnone
      exact absurd (beq_self_eq_true _) hnone
  | some t =>
      have hword := (switchOf?_eq_some (endsOptions_word s) hfound).2
      have hname : s.name.toList = t.name.toList := by
        have hlist := congrArg String.toList hword
        rw [s.toList_word, t.toList_word] at hlist
        exact (List.cons.inj hlist).2
      rw [Switch.name_injective (String.toList_inj.mp hname)]

/-! ## Options one by one -/

section Options

variable {verb : Verb} {options more : List (Switch × Option String)} {s : Switch}
  {value : Option String}

theorem lookup_eq_none_iff_name :
    options.lookup s = none ↔ s.name ∉ options.map fun o => o.1.name := by
  rw [List.lookup_eq_none_iff, List.mem_map, not_exists]
  constructor
  · rintro h o ⟨ho, hname⟩
    have hne := h o ho
    rw [Switch.name_injective hname] at hne
    simp at hne
  · intro h o ho
    refine bne_iff_ne.mpr fun hs => h o ⟨ho, ?_⟩
    rw [hs]

theorem accepts_nil : Accepts verb [] :=
  ⟨List.forall_mem_nil _, List.forall_mem_nil _, List.nodup_nil⟩

theorem Accepts.sublist (h : Accepts verb options) (hsub : more.Sublist options) :
    Accepts verb more where
  own o ho := h.own o (hsub.mem ho)
  valued o ho := h.valued o (hsub.mem ho)
  distinct := h.distinct.sublist (hsub.map _)

/-- An option is accepted behind others if it was not among them. -/
theorem accepts_concat :
    Accepts verb (options ++ [(s, value)]) ↔
      Accepts verb options ∧ s ∈ verb.switches ∧ value.isSome = s.takesValue ∧
        options.lookup s = none := by
  rw [lookup_eq_none_iff_name]
  constructor
  · rintro ⟨hown, hvalued, hdistinct⟩
    rw [List.forall_mem_append, List.forall_mem_singleton] at hown hvalued
    rw [List.map_append, List.nodup_append] at hdistinct
    obtain ⟨hbefore, -, hnew⟩ := hdistinct
    exact ⟨⟨hown.1, hvalued.1, hbefore⟩, hown.2, hvalued.2,
      fun hmem => hnew _ hmem _ (List.mem_singleton_self _) rfl⟩
  · rintro ⟨⟨hown, hvalued, hdistinct⟩, hs, hvalue, hnew⟩
    refine ⟨?_, ?_, ?_⟩
    · exact List.forall_mem_append.mpr ⟨hown, List.forall_mem_singleton.mpr hs⟩
    · exact List.forall_mem_append.mpr ⟨hvalued, List.forall_mem_singleton.mpr hvalue⟩
    · rw [List.map_append, List.nodup_append]
      refine ⟨hdistinct, List.pairwise_singleton _ _, fun name hname _ hlast => ?_⟩
      rw [List.mem_singleton.mp hlast]
      exact ne_of_mem_of_not_mem hname hnew

/-- The options form a map: each has one value. -/
theorem Accepts.lookup_eq_some_iff (h : Accepts verb options) :
    options.lookup s = some value ↔ (s, value) ∈ options := by
  rw [List.lookup_eq_some_iff]
  constructor
  · rintro ⟨before, after, rfl, -⟩
    exact List.mem_append_right before List.mem_cons_self
  · intro hmem
    obtain ⟨before, after, rfl⟩ := List.append_of_mem hmem
    refine ⟨before, after, rfl, fun o ho => bne_iff_ne.mpr ?_⟩
    have hdistinct := h.distinct
    rw [List.map_append, List.nodup_append] at hdistinct
    rintro rfl
    exact hdistinct.2.2 _ (List.mem_map_of_mem ho) _ List.mem_cons_self rfl

theorem Accepts.perm (h : Accepts verb options) (hperm : more.Perm options) : Accepts verb more where
  own o ho := h.own o (hperm.mem_iff.mp ho)
  valued o ho := h.valued o (hperm.mem_iff.mp ho)
  distinct := (hperm.map _).nodup_iff.mpr h.distinct

/-- The order of the options does not matter to the map. -/
theorem Accepts.lookup_perm (h : Accepts verb options) (hperm : more.Perm options) (s : Switch) :
    more.lookup s = options.lookup s := by
  refine Option.ext fun value => ?_
  rw [(h.perm hperm).lookup_eq_some_iff, h.lookup_eq_some_iff, hperm.mem_iff]

/-- What was taken for options, and what follows them. -/
theorem takeOptions_ok {words rest : List String} (hbefore : Accepts verb before)
    (h : takeOptions verb before words = .ok (options, rest)) :
    Accepts verb options ∧ (∀ word ∈ rest.head?, endsOptions word = .ok true) ∧
      ∃ more, options = before ++ more ∧ words = optionWords more ++ rest := by
  fun_induction takeOptions verb before words with
  | case1 =>
      cases h
      exact ⟨hbefore, nofun, [], (List.append_nil _).symm, rfl⟩
  | case2 | case4 | case5 | case6 => cases h
  | case3 before word rest' hends =>
      cases h
      refine ⟨hbefore, fun _ hword => ?_, [], (List.append_nil _).symm, rfl⟩
      rw [← Option.mem_some.mp hword]
      exact hends
  | case7 before word hoption s hs hnew hvalue value rest' ih =>
      obtain ⟨hown, rfl⟩ := switchOf?_eq_some hoption hs
      have hnone := Option.not_isSome_iff_eq_none.mp hnew
      obtain ⟨haccepts, hends, more, rfl, rfl⟩ :=
        ih (accepts_concat.mpr ⟨hbefore, hown, hvalue.symm, hnone⟩) h
      exact ⟨haccepts, hends, (s, some value) :: more, List.append_assoc _ _ _, rfl⟩
  | case8 before word rest' hoption s hs hnew hvalue ih =>
      obtain ⟨hown, rfl⟩ := switchOf?_eq_some hoption hs
      have hnone := Option.not_isSome_iff_eq_none.mp hnew
      obtain ⟨haccepts, hends, more, rfl, rfl⟩ :=
        ih (accepts_concat.mpr ⟨hbefore, hown, (eq_false_of_ne_true hvalue).symm, hnone⟩) h
      exact ⟨haccepts, hends, (s, none) :: more, List.append_assoc _ _ _, rfl⟩

/-- One option is taken. -/
theorem takeOptions_cons {words : List String} (h : Accepts verb (before ++ [(s, value)])) :
    takeOptions verb before (s.word :: (value.toList ++ words)) =
      takeOptions verb (before ++ [(s, value)]) words := by
  obtain ⟨-, hown, hvalue, hnew⟩ := accepts_concat.mp h
  rw [takeOptions, endsOptions_word, switchOf?_word hown]
  cases value with
  | none => simp [hnew, ← hvalue]
  | some text => simp [hnew, ← hvalue]

/-- Options are taken up to a word that ends them. -/
theorem takeOptions_optionWords {rest : List String} (h : Accepts verb (before ++ more))
    (hends : ∀ word ∈ rest.head?, endsOptions word = .ok true) :
    takeOptions verb before (optionWords more ++ rest) = .ok (before ++ more, rest) := by
  induction more generalizing before with
  | nil =>
      rw [List.append_nil]
      cases rest with
      | nil => rfl
      | cons word rest =>
          show takeOptions verb before (word :: rest) = _
          rw [takeOptions, hends word rfl]
  | cons o more ih =>
      obtain ⟨s, value⟩ := o
      have hfirst : Accepts verb (before ++ [(s, value)]) :=
        h.sublist ((List.Sublist.refl before).append (List.singleton_sublist.mpr List.mem_cons_self))
      have hwords : optionWords ((s, value) :: more) ++ rest =
          s.word :: (value.toList ++ (optionWords more ++ rest)) := by
        simp [optionWords]
      rw [List.append_cons] at h ⊢
      rw [hwords, takeOptions_cons hfirst]
      exact ih h

end Options

/-! ## Commands -/

/-- What may stand between the options and the arguments of a command: the mark, or nothing if the
first argument would not be taken for an option or for the mark.  A verb without options has no
mark. -/
inductive Divides (verb : Verb) (args : List String) : List String → Prop
  | mark (h : verb.acceptsOptions = true) : Divides verb args ["--"]
  | nothing (h : verb.acceptsOptions = true →
      ∀ word ∈ args.head?, word ≠ "--" ∧ endsOptions word = .ok true) : Divides verb args []

section Commands

variable {verb : Verb} {options : List (Switch × Option String)} {words args : List String}

theorem dropMark_eq_iff {rest : List String} :
    dropMark rest = args ↔
      rest = "--" :: args ∨ rest = args ∧ ∀ word ∈ args.head?, word ≠ "--" := by
  unfold dropMark
  split
  · next args' =>
      constructor
      · rintro rfl
        exact .inl rfl
      · rintro (h | ⟨rfl, hne⟩)
        · exact (List.cons.inj h).2
        · exact absurd rfl (hne "--" rfl)
  · next hmark =>
      constructor
      · rintro rfl
        refine .inr ⟨rfl, fun word hword => ?_⟩
        rintro rfl
        obtain ⟨args', hargs⟩ := List.head?_eq_some_iff.mp hword
        exact hmark args' hargs
      · rintro (h | ⟨h, -⟩)
        · exact absurd h (hmark args)
        · exact h

/-- A verb without options accepts none. -/
theorem Accepts.eq_nil (h : Accepts verb options) (hverb : verb.acceptsOptions = false) :
    options = [] := by
  have hnone : verb.switches = [] := by
    rwa [Verb.acceptsOptions, Bool.not_eq_false', List.isEmpty_iff] at hverb
  refine List.eq_nil_iff_forall_not_mem.mpr fun o ho => ?_
  have hown := h.own o ho
  rw [hnone] at hown
  exact List.not_mem_nil hown

/-- Which words are options with arguments behind them. -/
theorem takeArguments_eq_ok_iff :
    takeArguments verb words = .ok (options, args) ↔
      Accepts verb options ∧
        ∃ between, Divides verb args between ∧ words = optionWords options ++ between ++ args := by
  unfold takeArguments
  by_cases hverb : verb.acceptsOptions = true
  · rw [if_pos hverb]
    constructor
    · intro h
      split at h
      · cases h
      · next taken rest htaken =>
          obtain ⟨rfl, hargs⟩ := Prod.mk.inj (Except.ok.inj h)
          obtain ⟨haccepts, hends, more, hmore, rfl⟩ := takeOptions_ok accepts_nil htaken
          obtain rfl : taken = more := hmore
          refine ⟨haccepts, ?_⟩
          rcases dropMark_eq_iff.mp hargs with rfl | ⟨rfl, hne⟩
          · exact ⟨["--"], .mark hverb, by rw [List.append_assoc]; rfl⟩
          · exact ⟨[], .nothing fun _ word hword => ⟨hne word hword, hends word hword⟩,
              by rw [List.append_nil]⟩
    · rintro ⟨haccepts, between, hbetween, rfl⟩
      rw [List.append_assoc]
      cases hbetween with
      | mark =>
          have htaken : takeOptions verb [] (optionWords options ++ ("--" :: args)) =
              .ok (options, "--" :: args) :=
            takeOptions_optionWords haccepts (by rintro word ⟨⟩; exact endsOptions_mark)
          rw [List.singleton_append, htaken]
          rfl
      | nothing hplain =>
          have htaken : takeOptions verb [] (optionWords options ++ args) = .ok (options, args) :=
            takeOptions_optionWords haccepts fun word hword => (hplain hverb word hword).2
          have hargs : dropMark args = args :=
            dropMark_eq_iff.mpr (.inr ⟨rfl, fun word hword => (hplain hverb word hword).1⟩)
          rw [List.nil_append, htaken]
          exact congrArg (fun args' => Except.ok (options, args')) hargs
  · rw [if_neg hverb]
    constructor
    · intro h
      obtain ⟨rfl, rfl⟩ := Prod.mk.inj (Except.ok.inj h)
      exact ⟨accepts_nil, [], .nothing fun h => absurd h hverb, rfl⟩
    · rintro ⟨haccepts, between, hbetween, rfl⟩
      rw [haccepts.eq_nil (eq_false_of_ne_true hverb)]
      cases hbetween with
      | mark h => exact absurd h hverb
      | nothing _ => rfl

theorem checkArity_eq_ok_iff {count : Nat} :
    checkArity verb count = .ok () ↔
      verb.minArgs ≤ count ∧ ∀ most, verb.maxArgs = some most → count ≤ most := by
  unfold checkArity
  by_cases hleast : count < verb.minArgs
  · rw [if_pos hleast]
    exact ⟨nofun, fun h => absurd h.1 (by omega)⟩
  · rw [if_neg hleast]
    cases verb.maxArgs with
    | none => simp; omega
    | some most =>
        by_cases hmost : most < count
        · simp only [if_pos hmost]
          exact ⟨nofun, fun h => absurd (h.2 most rfl) (by omega)⟩
        · simp only [if_neg hmost]
          exact ⟨fun _ => ⟨by omega, fun _ h => by cases h; omega⟩, fun _ => trivial⟩

/-- Which words are bound to a command: its verb, options that the verb accepts, perhaps a mark, and
as many arguments as the verb may have. -/
theorem bind_eq_ok_iff {line : Option Nat} {i : Invocation} :
    bind words line = .ok i ↔
      i.WellFormed ∧ i.line = line ∧ ∃ between, Divides i.verb i.args between ∧
        words = i.verb.name :: (optionWords i.options ++ between ++ i.args) := by
  constructor
  · intro h
    cases words with
    | nil => cases h
    | cons name rest =>
        simp only [bind] at h
        split at h
        · cases h
        · next verb hverb =>
            split at h
            · cases h
            · next options args harguments =>
                split at h
                · cases h
                · next harity =>
                    cases h
                    obtain ⟨haccepts, between, hbetween, rfl⟩ := takeArguments_eq_ok_iff.mp harguments
                    obtain ⟨hleast, hmost⟩ := checkArity_eq_ok_iff.mp harity
                    refine ⟨⟨haccepts, hleast, hmost⟩, rfl, between, hbetween, ?_⟩
                    rw [Verb.name_of_ofName? hverb]
  · rintro ⟨hformed, rfl, between, hbetween, rfl⟩
    have harguments := takeArguments_eq_ok_iff.mpr ⟨hformed.options, between, hbetween, rfl⟩
    have harity := checkArity_eq_ok_iff.mpr ⟨hformed.least, hformed.most⟩
    simp only [bind, Verb.ofName?_name, harguments, harity]

theorem bind_words {i : Invocation} (h : i.WellFormed) : bind i.words i.line = .ok i := by
  refine bind_eq_ok_iff.mpr ⟨h, rfl, endMark i.verb, ?_, rfl⟩
  unfold endMark
  by_cases hverb : i.verb.acceptsOptions = true
  · rw [if_pos hverb]
    exact .mark hverb
  · rw [if_neg hverb]
    exact .nothing fun haccepts => absurd haccepts hverb

end Commands

/-- **Binding loses nothing and invents nothing.**  Words that are bound are the verb, the words of the
options in their order, perhaps one mark if the verb has options, and the arguments; the options have
different names and belong to the verb, and the arguments are as many as the verb may have.
Conversely, a command of this kind that is written down with the mark is bound to itself, in whatever
order its options are written, and the order makes no difference to the value of an option. -/
theorem binding_inverts_writing (i : Invocation) :
    (∀ words line, bind words line = .ok i → i.WellFormed ∧ i.line = line ∧
      ∃ between, (between = [] ∨ between = ["--"] ∧ i.verb.acceptsOptions = true) ∧
        words = i.verb.name :: (optionWords i.options ++ between ++ i.args)) ∧
    (i.WellFormed → bind i.words i.line = .ok i ∧
      ∀ order, order.Perm i.options →
        bind { i with options := order }.words i.line = .ok { i with options := order } ∧
          ∀ s, order.lookup s = i.options.lookup s) := by
  constructor
  · intro words line h
    obtain ⟨hformed, hline, between, hbetween, hwords⟩ := bind_eq_ok_iff.mp h
    refine ⟨hformed, hline, between, ?_, hwords⟩
    cases hbetween with
    | mark hverb => exact .inr ⟨rfl, hverb⟩
    | nothing _ => exact .inl rfl
  · intro h
    refine ⟨bind_words h, fun order horder => ⟨?_, h.options.lookup_perm horder⟩⟩
    have hformed : WellFormed { i with options := order } :=
      ⟨h.options.perm horder, h.least, h.most⟩
    exact bind_words hformed

/-- A command whose values and arguments look like options, numbers and marks. -/
def dashes : Invocation :=
  { verb := .key, options := [(.delay, some "--"), (.count, some "-3")], args := ["-time", "--"] }

theorem binding_inverts_writing_dashes :
    bind ["key", "-delay", "--", "-repeat", "-3", "--", "-time", "--"] = .ok dashes ∧
      dashes.WellFormed ∧
      bind ["key", "-repeat", "-3", "-delay", "--", "--", "-time", "--"] =
        .ok { dashes with options := [(.count, some "-3"), (.delay, some "--")] } := by
  have hbound : bind ["key", "-delay", "--", "-repeat", "-3", "--", "-time", "--"] = .ok dashes := rfl
  obtain ⟨htaken, hwritten⟩ := binding_inverts_writing dashes
  have hformed := (htaken _ _ hbound).1
  exact ⟨hbound, hformed, ((hwritten hformed).2 _ (List.Perm.swap _ _ _)).1⟩

end Invocation

end InputScript
