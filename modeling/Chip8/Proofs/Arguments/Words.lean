import Chip8.Arguments
import Chip8.Proofs.Text.Integer

/-! # The words of arguments

    A command line is made of parts that are complete in themselves: an option with its value,
    which stands behind it or is joined to it by an equals sign, a flag, the name of the program
    file.  **`Argument`** is such a part, and **`Argument.words`** are its words.

    Words are sorted by their look alone, so the words of an argument are sorted alike whatever
    stands around them (**`ofWords_flatMap_words`**).  Two things could be taken amiss and are
    not: a negative number is a plain word though a hyphen begins it (**`ofWord_toString`**), and
    a word is cut at its first equals sign, which is the one behind the name of the option, as no
    such name holds one (**`ofWord_joined`**). -/

namespace Chip8

/-! ## Arguments -/

/-- How an option and its value are written. -/
inductive Spelling where
  /-- As two words. -/
  | apart
  /-- As one word, with an equals sign between them. -/
  | joined
  deriving DecidableEq, Repr

/-- The words for an option and its value. -/
def Spelling.words : Spelling → String → String → List String
  | .apart, option, value  => [option, value]
  | .joined, option, value => [option ++ "=" ++ value]

/-- The option that sets a number. -/
def Setting.option : Setting → String
  | .scale   => "--scale"
  | .speed   => "--speed"
  | .timerHz => "--hz"
  | .toneHz  => "--tone"

/-- A part of a command line that is complete in itself. -/
inductive Argument where
  /-- The name of the program file. -/
  | program (name : String)
  /-- A number for a setting. -/
  | number (t : Setting) (n : Int) (spelling : Spelling)
  /-- A level for the log. -/
  | level (l : Log.Level) (spelling : Spelling)
  /-- Drawing waits for the display. -/
  | vsync
  /-- The statistics are not shown. -/
  | noStats
  deriving DecidableEq, Repr

namespace Argument

/-- The words of an argument. -/
def words : Argument → List String
  | .program name        => [name]
  | .number t n spelling => spelling.words t.option (toString n)
  | .level l spelling    => spelling.words "--log-level" l.name
  | .vsync               => ["--vsync"]
  | .noStats             => ["--no-stats"]

/-- An argument that can be read: no hyphen begins the name of a file, and numbers do not have
    more digits than are read. -/
def Readable : Argument → Prop
  | .program name => name.toList.head? ≠ some '-'
  | .number _ n _ => Integer.IsShort n
  | _             => True

instance : DecidablePred Readable
  | .program name => inferInstanceAs (Decidable (name.toList.head? ≠ some '-'))
  | .number _ n _ => inferInstanceAs (Decidable (Integer.IsShort n))
  | .level _ _    => .isTrue trivial
  | .vsync        => .isTrue trivial
  | .noStats      => .isTrue trivial

end Argument

/-! ## Tokens -/

/-- The option that a number is set by. -/
def Setting.choice : Setting → Choice
  | .scale   => .scale
  | .speed   => .speed
  | .timerHz => .timerHz
  | .toneHz  => .toneHz

theorem Setting.lookup_option (t : Setting) :
    Choice.names.lookup t.option = some t.choice := by
  cases t <;> rfl

namespace Token

/-- The tokens for an option and its value. -/
def ofSpelling : Spelling → Choice → String → List Token
  | .apart, c, value  => [.choice c none, .plain value]
  | .joined, c, value => [.choice c (some (.equals value))]

/-- No name of an option has a digit behind its hyphen. -/
theorem isDigit_of_mem_names {p : String × Choice} (hp : p ∈ Choice.names) {d : Char}
    (hd : p.1.toList[1]? = some d) : d.isDigit = false := by
  have hall : ∀ p ∈ Choice.names, p.1.toList[1]?.any Char.isDigit = false := by decide
  have hsecond := hall p hp
  rw [hd] at hsecond
  exact hsecond

/-- No name of an option holds an equals sign. -/
theorem notMem_of_mem_names {p : String × Choice} (hp : p ∈ Choice.names) :
    '=' ∉ p.1.toList := by
  have hall : ∀ p ∈ Choice.names, '=' ∉ p.1.toList := by decide
  exact hall p hp

theorem lookup_eq_none {word : String} (h : ∀ p ∈ Choice.names, p.1 ≠ word) :
    Choice.names.lookup word = none :=
  List.lookup_eq_none_iff.2 fun p hp => bne_iff_ne.2 (h p hp).symm

theorem cut_of_notMem {cs : List Char} (h : '=' ∉ cs) : cut cs = (cs, none) := by
  have hbefore : cs.takeWhile (· != '=') = cs := by
    refine List.takeWhile_eq_self_iff.2 fun c hc => bne_iff_ne.2 ?_
    rintro rfl
    exact h hc
  simp only [cut, hbefore, List.drop_length]

theorem cut_append {stem : List Char} (h : '=' ∉ stem) (value : List Char) :
    cut (stem ++ '=' :: value) = (stem, some value) := by
  have hbefore : (stem ++ '=' :: value).takeWhile (· != '=') = stem := by
    rw [List.takeWhile_append_of_pos, List.takeWhile_cons_of_neg, List.append_nil]
    · decide
    · refine fun c hc => bne_iff_ne.2 ?_
      rintro rfl
      exact h hc
  simp only [cut, hbefore, List.drop_left]

/-! ### Plain words -/

/-- A word that does not begin with a hyphen is plain. -/
theorem ofWord_plain {word : String} (h : word.toList.head? ≠ some '-') :
    ofWord word = .ok (.plain word) := by
  have hbarrier : word ≠ "--" := fun heq => h (heq ▸ rfl)
  rw [ofWord]
  obtain ⟨stem, value⟩ := cut word.toList
  exact (if_neg hbarrier).trans (if_pos h)


theorem candidates_of_digit {d : Char} (hd : d.isDigit) (ds : List Char) :
    candidates ('-' :: d :: ds) = [] := by
  have hone : ('-' :: d :: ds).take 2 ≠ ['-', '-'] := by
    intro heq
    obtain rfl : d = '-' := (List.cons.inj (List.cons.inj heq).2).1
    exact absurd hd (by decide)
  rw [candidates, if_neg hone, List.filterMap_eq_nil_iff]
  rintro ⟨name, c⟩ hmem
  have hsecond : name.toList[1]? ≠ some d := fun heq =>
    absurd hd (Bool.eq_false_iff.1 (isDigit_of_mem_names hmem heq))
  have hletter : name.toList ≠ ('-' :: d :: ds).take 2 := fun heq => hsecond (by rw [heq]; rfl)
  have hstart : ¬ ('-' :: d :: ds).isPrefixOf name.toList := by
    intro hprefix
    obtain ⟨rest, hrest⟩ := List.isPrefixOf_iff_prefix.1 hprefix
    exact hsecond (by rw [← hrest]; rfl)
  show (if _ then _ else if _ then _ else _) = _
  rw [if_neg hletter, if_neg hstart]

theorem looksNegative_of_digits {ds : List Char} (hne : ds ≠ []) (hds : ∀ c ∈ ds, c.isDigit) :
    looksNegative ('-' :: ds) = true := by
  have hlast : ds.getLast? ≠ some '\n' := fun heq =>
    absurd (hds _ (List.mem_of_getLast? heq)) (by decide)
  have hwhole : ds.takeWhile (· != '.') = ds := by
    refine List.takeWhile_eq_self_iff.2 fun c hc => bne_iff_ne.2 ?_
    rintro rfl
    exact absurd (hds _ hc) (by decide)
  have hall : ds.all Digit.isDigit = true :=
    List.all_eq_true.2 fun c hc => Integer.digit_of_isDigit (hds c hc)
  have hnumeral : isNumeral ds = true := by
    simp [isNumeral, hall, hne]
  simp only [looksNegative, if_neg hlast, hwhole, List.drop_length, hnumeral]

theorem ofWord_of_negative {word : String} {d : Char} {ds : List Char}
    (hword : word.toList = '-' :: d :: ds) (hdigits : ∀ c ∈ d :: ds, c.isDigit) :
    ofWord word = .ok (.plain word) := by
  have hd : d.isDigit := hdigits d List.mem_cons_self
  have hbarrier : word ≠ "--" := by
    rintro rfl
    obtain rfl : '-' = d := (List.cons.inj (List.cons.inj hword).2).1
    exact absurd hd (by decide)
  have hlookup : Choice.names.lookup word = none := by
    refine lookup_eq_none fun p hp heq => ?_
    have hsecond : p.1.toList[1]? = some d := by
      rw [heq, hword]
      rfl
    exact absurd hd (Bool.eq_false_iff.1 (isDigit_of_mem_names hp hsecond))
  have hcut : cut ('-' :: d :: ds) = ('-' :: d :: ds, none) := by
    refine cut_of_notMem fun hmem => ?_
    rcases List.mem_cons.1 hmem with heq | hmem
    · exact absurd heq (by decide)
    · exact absurd (hdigits _ hmem) (by decide)
  simp only [ofWord, hword, hcut, if_neg hbarrier, hlookup, candidates_of_digit hd,
    looksNegative_of_digits (List.cons_ne_nil d ds) hdigits]
  rfl

theorem ofWord_toString (n : Int) : ofWord (toString n) = .ok (.plain (toString n)) := by
  have hlist := Integer.toList_toString n
  cases hdigits : Nat.toDigits 10 n.natAbs with
  | nil => exact absurd hdigits Nat.toDigits_ne_nil
  | cons d ds =>
      have hall : ∀ c ∈ d :: ds, c.isDigit := fun c hc => Integer.isDigit_of_mem (hdigits ▸ hc)
      by_cases hneg : n < 0
      · rw [if_pos hneg, hdigits] at hlist
        exact ofWord_of_negative hlist hall
      · rw [if_neg hneg, hdigits] at hlist
        refine ofWord_plain ?_
        rw [hlist]
        rintro ⟨⟩
        exact absurd (hall '-' List.mem_cons_self) (by decide)

/-! ### Options -/

theorem head?_of_long {cs : List Char} (hlong : cs.take 2 = ['-', '-']) (more : List Char) :
    (cs ++ more).head? = some '-' := by
  rw [← List.take_append_drop 2 cs, hlong]
  rfl

theorem ofWord_option {option : String} {c : Choice} (hlong : option.toList.take 2 = ['-', '-'])
    (hoption : Choice.names.lookup option = some c) :
    ofWord option = .ok (.choice c none) := by
  have hbarrier : option ≠ "--" := by
    rintro rfl
    cases hoption
  have hhead : option.toList.head? = some '-' := by
    simpa only [List.append_nil] using head?_of_long hlong []
  rw [ofWord]
  obtain ⟨stem, value⟩ := cut option.toList
  simp only [if_neg hbarrier, hhead, hoption]
  rfl

theorem ofWord_joined {option : String} {c : Choice} (hlong : option.toList.take 2 = ['-', '-'])
    (hoption : Choice.names.lookup option = some c) (value : String) :
    ofWord (option ++ "=" ++ value) = .ok (.choice c (some (.equals value))) := by
  have hword : (option ++ "=" ++ value).toList = option.toList ++ '=' :: value.toList := by simp
  have hmem : (option, c) ∈ Choice.names := by
    obtain ⟨before, behind, hnames, -⟩ := List.lookup_eq_some_iff.1 hoption
    exact hnames ▸ List.mem_append_right _ List.mem_cons_self
  have hbarrier : option ++ "=" ++ value ≠ "--" := fun heq => by
    have hequals : '=' ∈ (option ++ "=" ++ value).toList := by simp [hword]
    rw [heq] at hequals
    exact absurd hequals (by decide)
  have hhead : (option.toList ++ '=' :: value.toList).head? = some '-' := head?_of_long hlong _
  have hlookup : Choice.names.lookup (option ++ "=" ++ value) = none := by
    refine lookup_eq_none fun p hp heq => notMem_of_mem_names hp ?_
    rw [heq, hword]
    exact List.mem_append_right _ List.mem_cons_self
  simp only [ofWord, hword, cut_append (notMem_of_mem_names hmem), if_neg hbarrier, hhead, hlookup,
    String.ofList_toList, hoption, attachedTo, hlong]
  rfl

/-- The words for an option and its value are sorted whatever stands behind them. -/
theorem ofWords_spelling {option value : String} {c : Choice} {words : List String}
    {tokens : List Token} (spelling : Spelling) (hlong : option.toList.take 2 = ['-', '-'])
    (hoption : Choice.names.lookup option = some c)
    (hvalue : ofWord value = .ok (.plain value)) (hwords : ofWords words = .ok tokens) :
    ofWords (spelling.words option value ++ words) =
      .ok (ofSpelling spelling c value ++ tokens) := by
  cases spelling with
  | apart =>
      simp only [Spelling.words, List.cons_append, List.nil_append, ofWords,
        ofWord_option hlong hoption, hvalue, hwords]
      rfl
  | joined =>
      simp only [Spelling.words, List.cons_append, List.nil_append, ofWords,
        ofWord_joined hlong hoption, hwords]
      rfl

end Token

namespace Argument

/-- The tokens of an argument. -/
def tokens : Argument → List Token
  | .program name        => [.plain name]
  | .number t n spelling => Token.ofSpelling spelling t.choice (toString n)
  | .level l spelling    => Token.ofSpelling spelling .logLevel l.name
  | .vsync               => [.choice .vsync none]
  | .noStats             => [.choice .noStats none]

theorem ofWords_words {a : Argument} (ha : a.Readable) {words : List String}
    {tokens : List Token} (hwords : Token.ofWords words = .ok tokens) :
    Token.ofWords (a.words ++ words) = .ok (a.tokens ++ tokens) := by
  cases a with
  | program name =>
      simp only [Argument.words, List.singleton_append, Token.ofWords, Token.ofWord_plain ha,
        hwords]
      rfl
  | number t n spelling =>
      exact Token.ofWords_spelling spelling (by cases t <;> rfl) t.lookup_option
        (Token.ofWord_toString n) hwords
  | level l spelling =>
      exact Token.ofWords_spelling spelling rfl rfl (Token.ofWord_plain (by cases l <;> decide))
        hwords
  | vsync =>
      have hvsync : Token.ofWord "--vsync" = .ok (.choice .vsync none) := rfl
      simp only [Argument.words, List.singleton_append, Token.ofWords, hvsync, hwords]
      rfl
  | noStats =>
      have hnoStats : Token.ofWord "--no-stats" = .ok (.choice .noStats none) := rfl
      simp only [Argument.words, List.singleton_append, Token.ofWords, hnoStats, hwords]
      rfl

theorem barrier_notMem_tokens (args : List Argument) :
    Token.barrier ∉ args.flatMap tokens := by
  have hspelling (spelling : Spelling) (c : Choice) (value : String) :
      Token.barrier ∉ Token.ofSpelling spelling c value := by
    cases spelling <;> simp [Token.ofSpelling]
  rw [List.mem_flatMap]
  rintro ⟨a, -, ha⟩
  cases a with
  | program name => exact absurd ha (by simp [tokens])
  | number t n spelling => exact hspelling _ _ _ ha
  | level l spelling => exact hspelling _ _ _ ha
  | vsync => exact absurd ha (by simp [tokens])
  | noStats => exact absurd ha (by simp [tokens])

/-- **THE WORDS OF ARGUMENTS ARE SORTED ONE ARGUMENT AFTER THE OTHER.** -/
theorem ofWords_flatMap_words {args : List Argument} (hargs : ∀ a ∈ args, a.Readable) :
    Token.ofWords (args.flatMap words) = .ok (args.flatMap tokens) := by
  induction args with
  | nil => rfl
  | cons a args ih =>
      obtain ⟨ha, hrest⟩ := List.forall_mem_cons.1 hargs
      exact ofWords_words ha (ih hrest)

end Argument

end Chip8
