import Mathlib.Data.List.Perm.Basic
import Chip8.Proofs.Arguments.Words
import Chip8.Proofs.Boot.Start

/-! # Settings read back from a command line

    Settings can be written out on a command line, all of them and in any order.
    **`command_line_round_trips`** says that they are read back from it, and what is read from
    arguments of any kind and number: of several numbers for one setting the last counts, and of
    none the standard one.

    * What arguments ask for is told from the list of them as a whole
      (**`Argument.settings`**, **`Argument.lastLevel`**, **`Argument.programs`**), and what one
      more argument changes in that is a lemma for each.
    * The tokens of an argument are taken from the left of any others, and change a scan in a way
      that depends on the argument alone (**`run_tokens`**).  So a scan of arguments reads what
      they ask for (**`foldl_take`**).
    * An order of the arguments for some settings does not change what they ask for
      (**`settings_of_perm`**). -/

namespace Chip8

/-! ## What arguments ask for -/

namespace Argument

/-- The name of a program file in an argument. -/
def program? : Argument → Option String
  | .program name => some name
  | _             => none

/-- The number in an argument for a setting. -/
def number? (t : Setting) : Argument → Option Int
  | .number u n _ => if u = t then some n else none
  | _             => none

/-- The level in an argument. -/
def level? : Argument → Option Log.Level
  | .level l _ => some l
  | _          => none

/-- The names of program files in arguments. -/
def programs (args : List Argument) : List String := args.filterMap program?

/-- The last number for a setting, or else the standard one. -/
def lastNumber (args : List Argument) (t : Setting) : Int :=
  ((args.filterMap (number? t)).getLast?).getD (Settings.standard.number t)

/-- The settings that arguments ask for. -/
def settings (args : List Argument) : Settings where
  scale := lastNumber args .scale
  speed := lastNumber args .speed
  timerHz := lastNumber args .timerHz
  toneHz := lastNumber args .toneHz
  vsync := decide (.vsync ∈ args)
  showStats := decide (.noStats ∉ args)

/-- The level that arguments ask for: the last one, or else the usual one. -/
def lastLevel (args : List Argument) : Log.Level :=
  ((args.filterMap level?).getLast?).getD .warning

end Argument

/-- The choices with a number chosen for a setting. -/
def Choices.set (c : Choices) (t : Setting) (n : Int) : Choices :=
  match t with
  | .scale   => { c with scale := some n }
  | .speed   => { c with speed := some n }
  | .timerHz => { c with timerHz := some n }
  | .toneHz  => { c with toneHz := some n }

/-- The choices with one more argument. -/
def Choices.take (c : Choices) : Argument → Choices
  | .number t n _ => c.set t n
  | .vsync        => { c with vsync := true }
  | .noStats      => { c with showStats := false }
  | _             => c

namespace Argument

/-- What is told last is told by the last argument, if it tells of it at all. -/
theorem getLast?_filterMap_concat {α : Type} (f : Argument → Option α) (args : List Argument)
    (a : Argument) :
    ((args ++ [a]).filterMap f).getLast? = (f a).or (args.filterMap f).getLast? := by
  rw [List.filterMap_append]
  cases h : f a with
  | none => simp [h]
  | some told => simp [h]

theorem lastNumber_concat (args : List Argument) (a : Argument) (t : Setting) :
    lastNumber (args ++ [a]) t = (a.number? t).getD (lastNumber args t) := by
  rw [lastNumber, getLast?_filterMap_concat]
  cases a.number? t <;> rfl

theorem lastLevel_concat (args : List Argument) (a : Argument) :
    lastLevel (args ++ [a]) = a.level?.getD (lastLevel args) := by
  rw [lastLevel, getLast?_filterMap_concat]
  cases a.level? <;> rfl

theorem programs_concat (args : List Argument) (a : Argument) :
    programs (args ++ [a]) = programs args ++ a.program?.toList := by
  simp only [programs, List.filterMap_append]
  cases h : a.program? <;> simp [h]

/-- The choice that arguments make, with one more behind them. -/
theorem choices_concat (args : List Argument) (a : Argument) :
    (settings (args ++ [a])).choices = (settings args).choices.take a := by
  cases a with
  | number t n spelling =>
      cases t <;> simp [settings, Settings.choices, lastNumber_concat, number?, Choices.take,
        Choices.set]
  | _ => simp [settings, Settings.choices, lastNumber_concat, number?, Choices.take]

theorem number_settings (args : List Argument) (t : Setting) :
    (settings args).number t = lastNumber args t := by
  cases t <;> rfl

end Argument

/-! ## Scans -/

namespace Scan

variable {d : Dialect}

/-- The command line and the settings have the same standard. -/
theorem defaults_eq : defaults = Settings.standard.choices := rfl

/-- A scan that has read one more argument. -/
def take (s : Scan) : Argument → Scan
  | .program name => s.takeWord name
  | .level l _    => { s with level := some l }
  | a             => { s with choices := s.choices.take a }

theorem run_spelling {s s' : Scan} {c : Choice} {value : String} (spelling : Spelling)
    (hc : takesValue c) (hvalue : value ≠ "--") (hset : s.setValue c value = .ok s')
    (tokens : List Token) :
    run d (Token.ofSpelling spelling c value ++ tokens) s = run d tokens s' := by
  cases spelling with
  | apart =>
      simp only [Token.ofSpelling, List.cons_append, List.nil_append, run, if_pos hc, hset]
      rfl
  | joined =>
      have hjoined : s.setJoined d c value = .ok s' := by
        have hnothing : ¬ (d.dropsHyphens && value == "--") = true := by
          rw [beq_eq_false_iff_ne.2 hvalue, Bool.and_false]
          exact Bool.false_ne_true
        exact (if_neg hnothing).trans hset
      simp only [Token.ofSpelling, List.cons_append, List.nil_append, run, hjoined]
      rfl

/-- A flag takes nothing of what stands behind it. -/
theorem run_flag {s s' : Scan} {c : Choice} (hc : takesValue c = false)
    (hset : s.setBare c = .ok s') (tokens : List Token) :
    run d (.choice c none :: tokens) s = run d tokens s' := by
  cases tokens with
  | nil =>
      simp only [run, hset]
      rfl
  | cons token behind =>
      cases token with
      | plain value =>
          conv_lhs => rw [run, hc, if_neg Bool.false_ne_true, hset]
          rfl
      | choice d attached => simp only [run, hset]; rfl
      | unknown word => simp only [run, hset]; rfl
      | barrier => simp only [run, hset]; rfl

theorem setValue_number {n : Int} (hn : Integer.IsShort n) (s : Scan) (t : Setting) :
    s.setValue t.choice (toString n) = .ok { s with choices := s.choices.set t n } := by
  cases t <;> (simp only [setValue, Setting.choice, Integer.read?_toString hn]; rfl)

theorem run_program {tokens : List Token} (htokens : Token.barrier ∉ tokens) (s : Scan)
    (name : String) : run d (.plain name :: tokens) s = run d tokens (s.takeWord name) := by
  cases tokens with
  | nil => rfl
  | cons token behind =>
      cases token with
      | barrier => exact absurd List.mem_cons_self htokens
      | plain word => rfl
      | choice c attached => rfl
      | unknown word => rfl

/-- **AN ARGUMENT IS TAKEN FROM THE LEFT**, and it alone says what is read. -/
theorem run_tokens {a : Argument} (ha : a.Readable) {tokens : List Token}
    (htokens : Token.barrier ∉ tokens) (s : Scan) :
    run d (a.tokens ++ tokens) s = run d tokens (s.take a) := by
  cases a with
  | program name => exact run_program htokens s name
  | number t n spelling =>
      have hvalue : toString n ≠ "--" := fun heq => by
        have hplain := Token.ofWord_toString n
        rw [heq] at hplain
        cases hplain
      exact run_spelling spelling (by cases t <;> rfl) hvalue (setValue_number ha s t) tokens
  | level l spelling =>
      exact run_spelling spelling rfl (by cases l <;> decide) (by cases l <;> rfl) tokens
  | vsync => exact run_flag rfl rfl tokens
  | noStats => exact run_flag rfl rfl tokens

theorem run_flatMap_tokens {args : List Argument} (hargs : ∀ a ∈ args, a.Readable) (s : Scan) :
    run d (args.flatMap Argument.tokens) s = .ok (args.foldl take s) := by
  induction args generalizing s with
  | nil => rfl
  | cons a args ih =>
      obtain ⟨ha, hrest⟩ := List.forall_mem_cons.1 hargs
      rw [List.flatMap_cons, run_tokens ha (Argument.barrier_notMem_tokens args), ih hrest]
      rfl

/-- What is read of arguments. -/
def ofArguments (args : List Argument) : Scan where
  program := (Argument.programs args).head?
  choices := (Argument.settings args).choices
  level := some (Argument.lastLevel args)
  extras := (Argument.programs args).tail

theorem ofArguments_concat (args : List Argument) (a : Argument) :
    ofArguments (args ++ [a]) = (ofArguments args).take a := by
  simp only [ofArguments, Argument.choices_concat, Argument.lastLevel_concat,
    Argument.programs_concat]
  cases a with
  | program name => cases Argument.programs args <;> rfl
  | _ =>
      simp only [Argument.program?, Option.toList_none, List.append_nil]
      rfl

/-- **WHAT IS READ CAN BE TOLD FROM THE ARGUMENTS AS A WHOLE.** -/
theorem foldl_take (args : List Argument) : args.foldl take start = ofArguments args := by
  induction args using List.reverseRecOn with
  | nil =>
      show start = ⟨none, Settings.standard.choices, some .warning, []⟩
      rw [start, defaults_eq]
  | append_singleton args a ih => rw [List.foldl_concat, ih, ofArguments_concat]

end Scan

/-! ## Settings -/

/-- Settings and the name of a program file as arguments: the file first, each number in its
    spelling, and the flags that the settings call for. -/
def Settings.written (s : Settings) (name : String) (spelling : Setting → Spelling) :
    List Argument :=
  .program name ::
    [Setting.scale, .speed, .timerHz, .toneHz].map (fun t => .number t (s.number t) (spelling t)) ++
    (if s.vsync then [.vsync] else []) ++ (if s.showStats then [] else [.noStats])

namespace Settings

variable {s : Settings}

/-- Numbers that are all given are refused only if one of them is not positive. -/
theorem exists_not_positive_iff :
    (∃ t, s.choices.settings = .error (.notPositive t)) ↔ ∃ t, s.number t ≤ 0 := by
  cases hunfit : s.choices.unfit? with
  | none =>
      have hpositive := unfit?_choices_eq_none_iff.1 hunfit
      rw [settings_choices_of_pos hpositive]
      constructor
      · rintro ⟨t, ht⟩
        cases ht
      · rintro ⟨t, ht⟩
        exact absurd (hpositive t) (not_lt.2 ht)
  | some t =>
      have hnone : ¬ ∀ t, 0 < s.number t := fun hpositive => by
        rw [unfit?_choices_eq_none_iff.2 hpositive] at hunfit
        cases hunfit
      rw [Choices.settings_of_unfit hunfit, Choices.complaint, number?_choices]
      exact ⟨fun _ => (not_forall.1 hnone).imp fun _ => not_lt.1, fun _ => ⟨t, rfl⟩⟩

end Settings

/-! ## Command lines -/

namespace Argument

variable {d : Dialect}

/-- A command line of arguments is read as a whole. -/
theorem parse_words {args : List Argument} (hargs : ∀ a ∈ args, a.Readable) :
    Arguments.parse d (args.flatMap words) = (Scan.ofArguments args).finish := by
  rw [Arguments.parse, ofWords_flatMap_words hargs]
  show (Scan.run d _ _ >>= _) = _
  rw [Scan.run_flatMap_tokens hargs, Scan.foldl_take]
  rfl

theorem parse_words_of_program {args : List Argument} {name : String}
    (hargs : ∀ a ∈ args, a.Readable) (hname : programs args = [name]) :
    Arguments.parse d (args.flatMap words) =
      .ok (Launch.arguments ⟨name, settings args, lastLevel args⟩) := by
  simp only [parse_words hargs, Scan.finish, Scan.ofArguments, hname]
  rfl

variable {s : Settings} {name : String} {spelling : Setting → Spelling} {args : List Argument}

theorem filterMap_number_written (s : Settings) (name : String) (spelling : Setting → Spelling)
    (t : Setting) : (s.written name spelling).filterMap (number? t) = [s.number t] := by
  rw [Settings.written]
  cases t <;> cases s.vsync <;> cases s.showStats <;> rfl

theorem mem_written {a : Argument} : a ∈ s.written name spelling ↔
    a = .program name ∨ (∃ t, a = .number t (s.number t) (spelling t)) ∨
      (a = .vsync ∧ s.vsync = true) ∨ (a = .noStats ∧ s.showStats = false) := by
  have hall (t : Setting) : t ∈ [Setting.scale, .speed, .timerHz, .toneHz] := by
    cases t <;> decide
  have hnumbers : a ∈ [Setting.scale, .speed, .timerHz, .toneHz].map
      (fun t => Argument.number t (s.number t) (spelling t)) ↔
        ∃ t, a = .number t (s.number t) (spelling t) := by
    simp only [List.mem_map, hall, true_and, eq_comm]
  have hvsync : a ∈ (if s.vsync then [Argument.vsync] else []) ↔ a = .vsync ∧ s.vsync = true := by
    cases s.vsync <;> simp
  have hstats : a ∈ (if s.showStats then [] else [Argument.noStats]) ↔
      a = .noStats ∧ s.showStats = false := by
    cases s.showStats <;> simp
  rw [Settings.written, List.mem_append, List.mem_append, List.mem_cons, hnumbers, hvsync, hstats,
    or_assoc, or_assoc]

/-- Settings are found again in any order of the arguments for them. -/
theorem settings_of_perm (h : args.Perm (s.written name spelling)) : settings args = s := by
  have hlast (t : Setting) : lastNumber args t = s.number t := by
    have hnumbers := h.filterMap (number? t)
    rw [filterMap_number_written, List.perm_singleton] at hnumbers
    rw [lastNumber, hnumbers]
    rfl
  have hvsync : decide (Argument.vsync ∈ args) = s.vsync := by
    simp [h.mem_iff, mem_written]
  have hstats : decide (Argument.noStats ∉ args) = s.showStats := by
    simp [h.mem_iff, mem_written]
  calc settings args
      = { scale := s.scale, speed := s.speed, timerHz := s.timerHz, toneHz := s.toneHz
          vsync := s.vsync, showStats := s.showStats } := by
        rw [settings, hlast, hlast, hlast, hlast, hvsync, hstats]
        rfl
    _ = s := rfl

theorem programs_of_perm (h : args.Perm (s.written name spelling)) : programs args = [name] := by
  have hnames := h.filterMap program?
  have hwritten : (s.written name spelling).filterMap program? = [name] := by
    rw [Settings.written]
    cases s.vsync <;> cases s.showStats <;> rfl
  rw [hwritten, List.perm_singleton] at hnames
  exact hnames

theorem readable_of_perm (h : args.Perm (s.written name spelling))
    (hname : name.toList.head? ≠ some '-') (hshort : ∀ t, Integer.IsShort (s.number t)) :
    ∀ a ∈ args, a.Readable := by
  intro a ha
  rw [h.mem_iff, mem_written] at ha
  rcases ha with rfl | ⟨t, rfl⟩ | ⟨rfl, -⟩ | ⟨rfl, -⟩
  · exact hname
  · exact hshort t
  · trivial
  · trivial

/-- **THE COMMAND LINE ROUND-TRIPS.**  Let positive settings and the name of a program file be
    written out, each number in either spelling and all in any order.  Then just these settings
    and this name are read from it.

    In general, of any arguments with one program file among them, the last number for a setting
    is read, or else the standard one, and each flag that stands anywhere.  A session can run
    with the settings read, unless one of their numbers is not positive: then that is what they
    are refused for. -/
theorem command_line_round_trips (d : Dialect) :
    (∀ (s : Settings) (name : String) (spelling : Setting → Spelling) (args : List Argument),
      (∀ t, 0 < s.number t ∧ Integer.IsShort (s.number t)) → name.toList.head? ≠ some '-' →
      args.Perm (s.written name spelling) →
      ∃ a, Arguments.parse d (args.flatMap words) = .ok a ∧ a.program = name ∧
        a.choices.settings = .ok s) ∧
    ∀ (args : List Argument) (name : String),
      (∀ a ∈ args, a.Readable) → args.filterMap program? = [name] →
      ∃ a asked, Arguments.parse d (args.flatMap words) = .ok a ∧ a.program = name ∧
        a.choices = asked.choices ∧
        (∀ t, asked.number t =
          ((args.filterMap (number? t)).getLast?).getD (Settings.standard.number t)) ∧
        (asked.vsync = true ↔ .vsync ∈ args) ∧ (asked.showStats = false ↔ .noStats ∈ args) ∧
        a.level = some (((args.filterMap level?).getLast?).getD .warning) ∧
        ((∀ t, 0 < asked.number t) → a.choices.settings = .ok asked) ∧
        ((∃ t, a.choices.settings = .error (.notPositive t)) ↔ ∃ t, asked.number t ≤ 0) := by
  refine ⟨fun s name spelling args hnumbers hname hperm => ?_, fun args name hargs honce => ?_⟩
  · have hargs := readable_of_perm hperm hname fun t => (hnumbers t).2
    refine ⟨_, parse_words_of_program hargs (programs_of_perm hperm), rfl, ?_⟩
    show (settings args).choices.settings = .ok s
    rw [settings_of_perm hperm]
    exact Settings.settings_choices_of_pos fun t => (hnumbers t).1
  · refine ⟨_, settings args, parse_words_of_program hargs honce, rfl, rfl, number_settings args,
      decide_eq_true_iff, ?_, rfl, Settings.settings_choices_of_pos,
      Settings.exists_not_positive_iff⟩
    rw [settings, decide_eq_false_iff_not, not_not]

/-- A command line with all options in both spellings, and one on which the last of two numbers
    cannot be had. -/
theorem command_line_of_both_spellings :
    let s : Settings := ⟨4, 20, 30, 880, true, false⟩
    let spelling : Setting → Spelling := fun t => if t = .toneHz then .joined else .apart
    let args : List Argument :=
      [ .number .toneHz 880 .joined, .noStats, .number .scale 4 .apart, .program "game.ch8",
        .number .timerHz 30 .apart, .vsync, .number .speed 20 .apart ]
    let twice : List Argument :=
      [.number .speed 7 .apart, .program "game.ch8", .number .speed (-3) .joined]
    args.flatMap words =
      [ "--tone=880", "--no-stats", "--scale", "4", "game.ch8", "--hz", "30", "--vsync",
        "--speed", "20" ] ∧
    twice.flatMap words = ["--speed", "7", "game.ch8", "--speed=-3"] ∧
    (∀ t, 0 < s.number t ∧ Integer.IsShort (s.number t)) ∧
    args.Perm (s.written "game.ch8" spelling) ∧
    (∃ a, Arguments.parse .earlier (args.flatMap words) = .ok a ∧ a.program = "game.ch8" ∧
      a.choices.settings = .ok s) ∧
    (∀ a ∈ twice, a.Readable) ∧
    ∃ a, Arguments.parse .earlier (twice.flatMap words) = .ok a ∧
      ∃ t, a.choices.settings = .error (.notPositive t) := by
  intro s spelling args twice
  have hnumbers : ∀ t, 0 < s.number t ∧ Integer.IsShort (s.number t) := by
    intro t
    cases t <;> decide
  have hperm : args.Perm (s.written "game.ch8" spelling) := by decide
  have hreadable : ∀ a ∈ twice, a.Readable := by decide
  refine ⟨by decide, by decide, hnumbers, hperm,
    (command_line_round_trips .earlier).1 s "game.ch8" spelling args hnumbers (by decide) hperm,
    hreadable, ?_⟩
  obtain ⟨a, asked, hparse, -, -, hasked, -, -, -, -, hrefused⟩ :=
    (command_line_round_trips .earlier).2 twice "game.ch8" hreadable rfl
  exact ⟨a, hparse, hrefused.2 ⟨.speed, by rw [hasked]; decide⟩⟩

end Argument

end Chip8
