import LineShell.Command
import Mathlib.Tactic.SplitIfs

/-!
# Commands of words

Words make a command with one redirection at most, because the first operator ends the command.
-/

namespace LineShell.Command

def operators : List (Text × Stream × WriteMode) :=
  [(['>'], .stdout, .truncate), (['1', '>'], .stdout, .truncate), (['>', '>'], .stdout, .append),
    (['1', '>', '>'], .stdout, .append), (['2', '>'], .stderr, .truncate),
    (['2', '>', '>'], .stderr, .append)]

theorem redirectionOperator?_eq_some_iff {word : Text} {stream : Stream} {mode : WriteMode} :
    redirectionOperator? word = some (stream, mode) ↔ (word, stream, mode) ∈ operators := by
  constructor
  · intro hword
    unfold redirectionOperator? at hword
    split_ifs at hword with h h h h h h <;> cases hword <;> simp [operators, h]
  · simp only [operators, List.mem_cons, List.not_mem_nil, or_false, Prod.mk.injEq]
    rintro (⟨rfl, rfl, rfl⟩ | ⟨rfl, rfl, rfl⟩ | ⟨rfl, rfl, rfl⟩ | ⟨rfl, rfl, rfl⟩ |
      ⟨rfl, rfl, rfl⟩ | ⟨rfl, rfl, rfl⟩) <;> rfl

theorem redirectionOperator?_eq_none_iff {word : Text} :
    redirectionOperator? word = none ↔ word ∉ operators.map (·.1) := by
  rw [Option.eq_none_iff_forall_ne_some]
  constructor
  · intro h hword
    obtain ⟨⟨_, stream, mode⟩, hmem, rfl⟩ := List.mem_map.mp hword
    exact h _ (redirectionOperator?_eq_some_iff.mpr hmem)
  · rintro h ⟨stream, mode⟩ hword
    exact h (List.mem_map_of_mem (redirectionOperator?_eq_some_iff.mp hword))

theorem operator_cases (words : List Text) :
    (∀ word ∈ words, redirectionOperator? word = none) ∨
      ∃ before operator after stream mode, words = before ++ operator :: after ∧
        (∀ word ∈ before, redirectionOperator? word = none) ∧
        redirectionOperator? operator = some (stream, mode) := by
  cases hfirst : words.find? fun word => (redirectionOperator? word).isSome with
  | none =>
      left
      intro word hword
      simpa using List.find?_eq_none.mp hfirst word hword
  | some operator =>
      right
      obtain ⟨hoperator, before, after, hwords, hbefore⟩ :=
        List.find?_eq_some_iff_append.mp hfirst
      obtain ⟨⟨stream, mode⟩, hsome⟩ := Option.isSome_iff_exists.mp hoperator
      refine ⟨before, operator, after, stream, mode, hwords, fun word hword => ?_, hsome⟩
      simpa using hbefore word hword

theorem ofWords_cons {word : Text} (hword : redirectionOperator? word = none) (rest : List Text) :
    ofWords (word :: rest) = (ofWords rest).map fun c => { c with argv := word :: c.argv } := by
  rw [ofWords.eq_def]
  simp only [hword]

theorem ofWords_append {argv : List Text} (hargv : ∀ word ∈ argv, redirectionOperator? word = none)
    (tail : List Text) :
    ofWords (argv ++ tail) = (ofWords tail).map fun c => { c with argv := argv ++ c.argv } := by
  induction argv with
  | nil => cases htail : ofWords tail <;> simp [htail, Except.map]
  | cons word rest ih =>
      have hrest : ∀ word ∈ rest, redirectionOperator? word = none :=
        fun other hother => hargv other (List.mem_cons_of_mem word hother)
      rw [List.cons_append, ofWords_cons (hargv word List.mem_cons_self), ih hrest]
      cases ofWords tail <;> rfl

theorem ofWords_plain {argv : List Text} (hargv : ∀ word ∈ argv, redirectionOperator? word = none) :
    ofWords argv = .ok (plain argv) := by
  have happend := ofWords_append hargv []
  rw [List.append_nil] at happend
  rw [happend]
  simp [ofWords, plain, Except.map]

theorem ofWords_redirected {argv : List Text}
    (hargv : ∀ word ∈ argv, redirectionOperator? word = none) {operator : Text} {stream : Stream}
    {mode : WriteMode} (hoperator : redirectionOperator? operator = some (stream, mode))
    (target : Text) (rest : List Text) :
    ofWords (argv ++ operator :: target :: rest) =
      .ok (redirected argv stream ⟨target, mode⟩) := by
  rw [ofWords_append hargv, ofWords.eq_def (operator :: target :: rest)]
  simp only [hoperator]
  cases stream <;> simp [redirected, Except.map]

theorem ofWords_missing {argv : List Text}
    (hargv : ∀ word ∈ argv, redirectionOperator? word = none) {operator : Text} {stream : Stream}
    {mode : WriteMode} (hoperator : redirectionOperator? operator = some (stream, mode)) :
    ofWords (argv ++ [operator]) = .error (.missingTarget operator) := by
  rw [ofWords_append hargv, ofWords.eq_def [operator]]
  simp only [hoperator]
  rfl

@[simp] theorem argv_redirected (argv : List Text) (stream : Stream) (r : Redirection) :
    (redirected argv stream r).argv = argv := by
  cases stream <;> rfl

@[simp] theorem name?_redirected (argv : List Text) (stream : Stream) (r : Redirection) :
    (redirected argv stream r).name? = argv.head? := by
  cases stream <;> rfl

theorem ofWords_cases {words : List Text} {c : Command} (hwords : ofWords words = .ok c) :
    ((∀ word ∈ words, redirectionOperator? word = none) ∧ c = plain words) ∨
      ∃ before operator stream mode target rest, words = before ++ operator :: target :: rest ∧
        (∀ word ∈ before, redirectionOperator? word = none) ∧
        redirectionOperator? operator = some (stream, mode) ∧
        c = redirected before stream ⟨target, mode⟩ := by
  rcases operator_cases words with
    hplain | ⟨before, operator, after, stream, mode, rfl, hbefore, hop⟩
  · rw [ofWords_plain hplain] at hwords
    cases hwords
    exact .inl ⟨hplain, rfl⟩
  · cases after with
    | nil =>
        rw [ofWords_missing hbefore hop] at hwords
        cases hwords
    | cons target rest =>
        rw [ofWords_redirected hbefore hop] at hwords
        cases hwords
        exact .inr ⟨before, operator, stream, mode, target, rest, rfl, hbefore, hop, rfl⟩

theorem plain_or_redirected {words : List Text} {c : Command} (hwords : ofWords words = .ok c) :
    c = plain c.argv ∨ ∃ stream r, c = redirected c.argv stream r := by
  rcases ofWords_cases hwords with
    ⟨-, rfl⟩ | ⟨before, operator, stream, mode, target, rest, -, -, -, rfl⟩
  · exact .inl rfl
  · exact .inr ⟨stream, ⟨target, mode⟩, by rw [argv_redirected]⟩

theorem eq_redirected {words : List Text} {c : Command} {r : Redirection}
    (hwords : ofWords words = .ok c) (hr : c.stdout = some r) :
    c = redirected c.argv .stdout r := by
  rcases plain_or_redirected hwords with hc | ⟨stream, r', hc⟩
  · rw [hc] at hr
    cases hr
  · cases stream with
    | stdout =>
        rw [hc] at hr
        cases hr
        exact hc
    | stderr =>
        rw [hc] at hr
        cases hr

/-! ## The first operator -/

def redirectionOf (c : Command) : Stream → Option Redirection
  | .stdout => c.stdout
  | .stderr => c.stderr

structure Redirects (c : Command) (stream : Stream) (r : Redirection) : Prop where
  redirection : c.redirectionOf stream = some r
  alone : ∀ other ≠ stream, c.redirectionOf other = none

theorem redirects_redirected (argv : List Text) (stream : Stream) (r : Redirection) :
    (redirected argv stream r).Redirects stream r := by
  cases stream with
  | stdout =>
      refine ⟨rfl, fun other hother => ?_⟩
      cases other with
      | stdout => exact absurd rfl hother
      | stderr => rfl
  | stderr =>
      refine ⟨rfl, fun other hother => ?_⟩
      cases other with
      | stdout => rfl
      | stderr => exact absurd rfl hother

structure FirstOperator (words : List Text) (i : Nat) (operator : Text) (stream : Stream)
    (mode : WriteMode) : Prop where
  here : words[i]? = some operator
  redirects : (operator, stream, mode) ∈ operators
  first : ∀ word ∈ words.take i, word ∉ operators.map (·.1)

namespace FirstOperator

variable {words : List Text} {i : Nat} {operator : Text} {stream : Stream} {mode : WriteMode}

theorem ofWords_take (h : FirstOperator words i operator stream mode) {target : Text}
    (htarget : words[i + 1]? = some target) (later : List Text) :
    ofWords (words.take (i + 2) ++ later) =
      .ok (redirected (words.take i) stream ⟨target, mode⟩) := by
  have hfront : words.take (i + 2) ++ later = words.take i ++ operator :: target :: later := by
    simp [List.take_add_one, h.here, htarget]
  rw [hfront]
  exact ofWords_redirected
    (fun word hword => redirectionOperator?_eq_none_iff.mpr (h.first word hword))
    (redirectionOperator?_eq_some_iff.mpr h.redirects) target later

theorem ofWords_last (h : FirstOperator words i operator stream mode)
    (hlast : words[i + 1]? = none) : ofWords words = .error (.missingTarget operator) := by
  have hwords : words = words.take i ++ [operator] := by
    have hall : words.take (i + 1) = words :=
      List.take_of_length_le (List.getElem?_eq_none_iff.mp hlast)
    rw [List.take_add_one, h.here] at hall
    exact hall.symm
  rw [hwords]
  exact ofWords_missing
    (fun word hword => redirectionOperator?_eq_none_iff.mpr (h.first word hword))
    (redirectionOperator?_eq_some_iff.mpr h.redirects)

end FirstOperator

/-- What a command keeps of the words that made it: all of them, or those up to the target of an
operator. -/
inductive Keeps (c : Command) (words : List Text) : Prop
  | all (hargv : c.argv = words) (hnone : ∀ stream, c.redirectionOf stream = none)
  | front {operator target : Text} {stream : Stream} {mode : WriteMode}
      (hoperator : (operator, stream, mode) ∈ operators)
      (hstream : c.Redirects stream ⟨target, mode⟩)
      (hfront : c.argv ++ [operator, target] <+: words)

theorem keeps_of_ofWords {words : List Text} {c : Command} (hwords : ofWords words = .ok c) :
    (∀ word ∈ c.argv, word ∉ operators.map (·.1)) ∧ c.Keeps words := by
  rcases ofWords_cases hwords with
    ⟨hplain, rfl⟩ | ⟨before, operator, stream, mode, target, rest, rfl, hbefore, hop, rfl⟩
  · refine ⟨fun word hword => redirectionOperator?_eq_none_iff.mp (hplain word hword), .all rfl ?_⟩
    rintro (_ | _) <;> rfl
  · have hoperator := redirectionOperator?_eq_some_iff.mp hop
    refine ⟨fun word hword => ?_, .front hoperator (redirects_redirected _ _ _) ?_⟩
    · rw [argv_redirected] at hword
      exact redirectionOperator?_eq_none_iff.mp (hbefore word hword)
    · rw [argv_redirected]
      exact ⟨rest, List.append_assoc before [operator, target] rest⟩

/-- Words are cut at the first operator and nowhere else.  Without an operator they are all of the
command; otherwise the words in front of the first one are, and the word behind it is the target of
the one redirection, whatever that word is and whatever comes then.  Only an operator with no word
behind it makes no command. -/
theorem cut_at_first_operator (words : List Text) :
    ((∀ word ∈ words, word ∉ operators.map (·.1)) → ofWords words = .ok ⟨words, none, none⟩) ∧
    (∀ i operator stream mode, FirstOperator words i operator stream mode →
      (∀ target, words[i + 1]? = some target → ∃ c, ofWords words = .ok c ∧
        c.argv = words.take i ∧ c.Redirects stream ⟨target, mode⟩ ∧
        ∀ later, ofWords (words.take (i + 2) ++ later) = .ok c) ∧
      (words[i + 1]? = none → ofWords words = .error (.missingTarget operator))) ∧
    ∀ c, ofWords words = .ok c →
      (∀ word ∈ c.argv, word ∉ operators.map (·.1)) ∧ c.Keeps words := by
  refine ⟨fun hplain => ?_, fun i operator stream mode hfirst => ⟨fun target htarget => ?_, ?_⟩, ?_⟩
  · exact ofWords_plain fun word hword => redirectionOperator?_eq_none_iff.mpr (hplain word hword)
  · have hmade := hfirst.ofWords_take htarget
    have hwords := hmade (words.drop (i + 2))
    rw [List.take_append_drop] at hwords
    exact ⟨_, hwords, argv_redirected .., redirects_redirected .., hmade⟩
  · exact hfirst.ofWords_last
  · exact fun c hwords => keeps_of_ofWords hwords

end LineShell.Command
