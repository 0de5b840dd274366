import Chip8.Boot
import Chip8.Proofs.Arguments.Words
import Chip8.Proofs.Boot.Interval
import Chip8.Proofs.Machine.Load
import Chip8.Proofs.Session.Picture

/-! # What starting up comes to

    Starting up is a chain of steps, each of which can end it: the words of the command line,
    the settings, the file, the program in it, the window.  **`starting_is_exact`** tells for
    all command lines, files and hosts which step that is and what it leaves.  It is assembled
    from

    * what choices say of themselves: which of them is unfit (**`unfit?`**), and whether a window
      opens with the settings chosen (**`Opens`**);
    * the console that a program starts on (**`Launch.console`**), which is what loading it
      into a fresh machine gives;
    * what a launch comes to (**`launched`**), once the words ask for one.

    Positive settings may still be such that no window opens: frames can come so fast that no
    binary number is their interval (**`rate_without_interval`**). -/

namespace Chip8

/-! ## The settings asked for -/

namespace Settings

/-- The number that a setting is set to. -/
def number (s : Settings) : Setting → Int
  | .scale   => s.scale
  | .speed   => s.speed
  | .timerHz => s.timerHz
  | .toneHz  => s.toneHz

/-- A window can be opened with the settings: the host has room for its picture
    (`Screen.Standard.roomFor_iff`), and its frames have an interval (`interval_eq`). -/
def Opens (host : HostMemory) (s : Settings) : Prop :=
  (Screen.dark screenColumns screenRows).roomFor host s.scale = .ok () ∧
    (s.timerHz : Rat) < Binary64.overflow

instance (host : HostMemory) (s : Settings) : Decidable (s.Opens host) :=
  match h : (Screen.dark screenColumns screenRows).roomFor host s.scale with
  | .ok () => decidable_of_iff ((s.timerHz : Rat) < Binary64.overflow) (and_iff_right h).symm
  | .error _ => .isFalse fun hopens => nomatch h.symm.trans hopens.1

end Settings

/-! ## The choices made -/

namespace Choices

/-- The number chosen for a setting. -/
def number? (c : Choices) : Setting → Option Int
  | .scale   => c.scale
  | .speed   => c.speed
  | .timerHz => c.timerHz
  | .toneHz  => c.toneHz

/-- The first setting that is set to nothing or to a number that is not positive. -/
def unfit? (c : Choices) : Option Setting :=
  [Setting.scale, .speed, .timerHz, .toneHz].find? fun t => !(c.number? t).any (0 < ·)

/-- What is said against a choice that is unfit. -/
def complaint (c : Choices) (t : Setting) : Error :=
  match c.number? t with
  | none   => .nothing t
  | some _ => .notPositive t

variable {c : Choices} {t : Setting}

theorem exists_positive (h : (c.number? t).any (0 < ·) = true) :
    ∃ n, c.number? t = some n ∧ positive t (c.number? t) = .ok n := by
  obtain ⟨n, hn, hpos⟩ := (Option.any_eq_true _ _).1 h
  exact ⟨n, hn, positive_eq_ok.2 ⟨hn, of_decide_eq_true hpos⟩⟩

theorem positive_of_unfit (h : (c.number? t).any (0 < ·) = false) :
    positive t (c.number? t) = .error (c.complaint t) := by
  rw [complaint]
  cases hn : c.number? t with
  | none => rfl
  | some n =>
      rw [hn] at h
      exact if_pos (not_lt.1 (of_decide_eq_false h))

/-- The choices are checked one after the other. -/
theorem settings_eq :
    c.settings =
      (positive .scale (c.number? .scale)).bind fun scale =>
      (positive .speed (c.number? .speed)).bind fun speed =>
      (positive .timerHz (c.number? .timerHz)).bind fun timerHz =>
      (positive .toneHz (c.number? .toneHz)).bind fun toneHz =>
      .ok ⟨scale, speed, timerHz, toneHz, c.vsync, c.showStats⟩ := rfl

/-- The first choice that is unfit is what all are refused for. -/
theorem settings_of_unfit (h : c.unfit? = some t) : c.settings = .error (c.complaint t) := by
  have hfirst (u : Setting) (ts : List Setting) {β : Type} (f : Int → Except Error β)
      (hu : (u :: ts).find? (fun t => !(c.number? t).any (0 < ·)) = some t) :
      (positive u (c.number? u)).bind f = .error (c.complaint t) ∨
        ∃ n, (positive u (c.number? u)).bind f = f n ∧
          ts.find? (fun t => !(c.number? t).any (0 < ·)) = some t := by
    rw [List.find?_cons] at hu
    cases hfit : (c.number? u).any (0 < ·) with
    | true =>
        obtain ⟨n, -, hn⟩ := exists_positive hfit
        rw [hfit] at hu
        rw [hn]
        exact .inr ⟨n, rfl, hu⟩
    | false =>
        rw [hfit] at hu
        cases hu
        rw [positive_of_unfit hfit]
        exact .inl rfl
  rw [settings_eq]
  obtain hend | ⟨scale, heq, h⟩ := hfirst .scale _ _ h
  · exact hend
  rw [heq]
  obtain hend | ⟨speed, heq, h⟩ := hfirst .speed _ _ h
  · exact hend
  rw [heq]
  obtain hend | ⟨rate, heq, h⟩ := hfirst .timerHz _ _ h
  · exact hend
  rw [heq]
  obtain hend | ⟨tone, heq, h⟩ := hfirst .toneHz _ _ h
  · exact hend
  cases h

/-- Choices of which none is unfit are those of settings. -/
theorem settings_of_fit (h : c.unfit? = none) : ∃ s, c = s.choices ∧ c.settings = .ok s := by
  have hfit (t : Setting) : ∃ n, c.number? t = some n ∧ positive t (c.number? t) = .ok n := by
    refine exists_positive ?_
    have hall := List.find?_eq_none.1 h
    cases t <;> simpa using hall _ (by decide)
  obtain ⟨scale, hscale, hscaleOk⟩ := hfit .scale
  obtain ⟨speed, hspeed, hspeedOk⟩ := hfit .speed
  obtain ⟨rate, hrate, hrateOk⟩ := hfit .timerHz
  obtain ⟨tone, htone, htoneOk⟩ := hfit .toneHz
  refine ⟨⟨scale, speed, rate, tone, c.vsync, c.showStats⟩, ?_, ?_⟩
  · obtain ⟨scale', speed', rate', tone', vsync, stats⟩ := c
    cases hscale
    cases hspeed
    cases hrate
    cases htone
    rfl
  · rw [settings_eq, hscaleOk, hspeedOk, hrateOk, htoneOk]
    rfl

end Choices

namespace Settings

variable {s : Settings}

theorem number?_choices (s : Settings) (t : Setting) :
    s.choices.number? t = some (s.number t) := by
  cases t <;> rfl

/-- Numbers that are all given are fit if they are positive. -/
theorem unfit?_choices_eq_none_iff : s.choices.unfit? = none ↔ ∀ t, 0 < s.number t := by
  rw [Choices.unfit?, List.find?_eq_none]
  simp only [number?_choices, Option.any_some, Bool.not_eq_true', decide_eq_false_iff_not, not_not]
  constructor
  · intro h t
    cases t <;> exact h _ (by decide)
  · exact fun h t _ => h t

theorem eq_of_choices_eq {s' : Settings} (h : s.choices = s'.choices) : s = s' := by
  simp only [choices, Choices.mk.injEq, Option.some.injEq] at h
  obtain ⟨hscale, hspeed, hrate, htone, hvsync, hstats⟩ := h
  cases s
  cases s'
  simp_all only

theorem settings_choices_of_pos (h : ∀ t, 0 < s.number t) : s.choices.settings = .ok s := by
  obtain ⟨s', heq, hsettings⟩ := Choices.settings_of_fit (unfit?_choices_eq_none_iff.2 h)
  rw [hsettings, eq_of_choices_eq heq]

end Settings

/-- What a command line says that asks for a launch. -/
def Launch.arguments (l : Launch) : Arguments := ⟨l.program, l.settings.choices, some l.level⟩

theorem Launch.arguments_injective {l l' : Launch} (h : l.arguments = l'.arguments) : l = l' := by
  obtain ⟨program, settings, level⟩ := l
  obtain ⟨program', settings', level'⟩ := l'
  simp only [Launch.arguments, Arguments.mk.injEq, Option.some.injEq] at h
  obtain ⟨rfl, hchoices, rfl⟩ := h
  rw [Settings.eq_of_choices_eq hchoices]

/-- The entries of a log that are seen. -/
def Launch.seen (l : Launch) (log : List Log.Entry) : List Log.Entry :=
  log.filter (·.visible l.level)

/-- The console that a program starts on: its machine is field by field what it should be, nobody
    else listens, and the buzzer is silent. -/
def Launch.console (l : Launch) (program : List UInt8) (random : RandomStream) : Console where
  machine := .starting l.settings.speed l.settings.toneHz program random
  handlers := [⟨.machine, false⟩]
  buzzer := { player := none, frequency := none, created := 0 }

/-! ## What starting up comes to -/

namespace Boot

variable {d : Dialect} {host : HostMemory} {l : Launch} {program : List UInt8}
variable {random : RandomStream} {clock : Extended}

/-- A session runs on a program: its window was opened once, with the settings, and then waits
    for events, while nothing has happened yet on the console that the program starts on. -/
structure Opened (host : HostMemory) (l : Launch) (random : RandomStream) (program : List UInt8)
    (boot : Boot) (session : Session) : Prop where
  runs : ∃ seconds, l.settings.interval = .ok seconds ∧
    boot = .running (l.seen [.loading l.program, .loaded program.length])
      [ .window l.settings.windowWidth l.settings.windowHeight l.settings.vsync,
        .image l.settings.windowWidth l.settings.windowHeight session.picture,
        .label session.frameLabel, .label session.speedLabel,
        .schedule .frame seconds, .schedule .statistics (.real (.finite 1)), .loop ]
      session
  settings : session.settings = l.settings
  memory : session.host = host
  console : session.console = l.console program random
  picture : Session.pictureOf host session.console.machine l.settings.scale = .ok session.picture
  unclosed : session.closed = false

/-- What a launch comes to, by what the file gives. -/
def Launched (host : HostMemory) (l : Launch) (random : RandomStream)
    (contents : Except FileError (List UInt8)) (boot : Boot) : Prop :=
  match contents with
  | .error e    =>
      boot = .rejected (l.seen [.loading l.program, .unreadable l.program e]) ∧ boot.status = 1
  | .ok program =>
      if programCapacity < program.length then
        boot = .rejected (l.seen [.loading l.program,
          .rejected l.program (.oversized program.length programCapacity)]) ∧ boot.status = 1
      else if l.settings.Opens host then
        boot.status = 0 ∧ ∃ session, Opened host l random program boot session
      else boot.status = 1 ∧ ∃ e, boot = .broken (.window e)

theorem launch_unreadable (e : FileError) :
    launch host l (.error e) random clock =
      .rejected (l.seen [.loading l.program, .unreadable l.program e]) :=
  congrArg rejected (List.filter_append ..).symm

theorem launch_oversized (hbig : programCapacity < program.length) :
    launch host l (.ok program) random clock =
      .rejected (l.seen [.loading l.program,
        .rejected l.program (.oversized program.length programCapacity)]) := by
  simp only [launch, Machine.loadFile, Machine.load_of_oversized hbig]
  exact congrArg rejected (List.filter_append ..).symm

theorem launch_fits (hfit : program.length ≤ programCapacity) :
    launch host l (.ok program) random clock =
      match Session.create host (l.console program random) l.settings l.level clock with
      | .error e             => .broken (.window e)
      | .ok (session, calls) =>
          .running (l.seen [.loading l.program, .loaded program.length]) (calls ++ [.loop])
            session := by
  simp only [launch, Machine.loadFile, Machine.load_of_fits hfit, Machine.loaded_fresh hfit]
  rfl

theorem launch_opens (hpositive : ∀ t, 0 < l.settings.number t) (hopens : l.settings.Opens host)
    (hfit : program.length ≤ programCapacity) :
    ∃ session,
      Opened host l random program (launch host l (.ok program) random clock) session := by
  have hroom : (l.console program random).machine.screen.roomFor host l.settings.scale = .ok () :=
    hopens.1
  have hinterval : l.settings.interval.isOk = true := by
    rw [Settings.interval_eq (hpositive .timerHz), if_neg (not_le.2 hopens.2)]
    rfl
  obtain ⟨session, opening, hcreate⟩ :=
    Session.exists_create (l.console program random) hroom hinterval l.level clock
  obtain ⟨hconsole, hsettings, hmemory, hopen, hpicture, seconds, hseconds, rfl⟩ :=
    Session.of_create hcreate
  refine ⟨session, ⟨seconds, hseconds, ?_⟩, hsettings, hmemory, hconsole, hconsole ▸ hpicture,
    hopen⟩
  rw [launch_fits hfit, hcreate]
  rfl

theorem launch_breaks (hpositive : ∀ t, 0 < l.settings.number t)
    (hopens : ¬ l.settings.Opens host) (hfit : program.length ≤ programCapacity) :
    ∃ e, launch host l (.ok program) random clock = .broken (.window e) := by
  rw [launch_fits hfit]
  cases hcreate : Session.create host (l.console program random) l.settings l.level clock with
  | error e => exact ⟨e, rfl⟩
  | ok created =>
      obtain ⟨session, opening⟩ := created
      obtain ⟨-, -, -, -, hpicture, seconds, hseconds, -⟩ := Session.of_create hcreate
      have hroom := (Screen.image_eq_ok_iff.1 hpicture).1
      rw [Settings.interval_eq (hpositive .timerHz)] at hseconds
      have hrate : ¬ Binary64.overflow ≤ (l.settings.timerHz : Rat) := fun hbig =>
        nomatch (if_pos hbig).symm.trans hseconds
      exact absurd ⟨hroom, not_le.1 hrate⟩ hopens

/-- **A LAUNCH** with positive settings comes to what the file, the settings and the host
    allow. -/
theorem launched (hpositive : ∀ t, 0 < l.settings.number t)
    (contents : Except FileError (List UInt8)) :
    Launched host l random contents (launch host l contents random clock) := by
  cases contents with
  | error e =>
      show _ = _ ∧ _
      rw [launch_unreadable]
      exact ⟨rfl, rfl⟩
  | ok program =>
      rw [Launched]
      split_ifs with hbig hopens
      · rw [launch_oversized hbig]
        exact ⟨rfl, rfl⟩
      · obtain ⟨session, hsession⟩ := launch_opens hpositive hopens (Nat.not_lt.1 hbig)
        obtain ⟨seconds, -, hruns⟩ := hsession.runs
        exact ⟨congrArg status hruns, session, hsession⟩
      · obtain ⟨e, he⟩ := launch_breaks hpositive hopens (Nat.not_lt.1 hbig)
        exact ⟨congrArg status he, e, he⟩

/-! ### Command lines that launch nothing -/

/-- The words alone decide what starting up comes to, whatever memory the host has: no machine
    is made, and no file looked at. -/
def Decided (d : Dialect) (words : List String) (boot : Boot) : Prop :=
  ∀ host, accepted d host words = .error boot

/-- What words come to that ask for a launch.  A machine is made, for which there must be room
    for a screen; then the file is looked at, unless its name cannot be one. -/
def Tried (d : Dialect) (host : HostMemory) (words : List String)
    (read : String → Except FileError (List UInt8)) (random : RandomStream) (l : Launch)
    (boot : Boot) : Prop :=
  match Screen.make host screenColumns screenRows with
  | .error e =>
      accepted d host words = .error boot ∧ boot = .broken (.screen e) ∧ boot.status = 1
  | .ok _    =>
      if '\x00' ∈ l.program.toList then
        accepted d host words = .error boot ∧ boot = .broken .nullInName ∧ boot.status = 1
      else Launched host l random (read l.program) boot

theorem accepted_of_parse {words : List String} {a : Arguments}
    (h : Arguments.parse d words = .ok a) : accepted d host words = ofArguments host a := by
  rw [accepted, h]

theorem start_of_refused {words : List String} {b : Boot}
    (h : accepted d host words = .error b) (read : String → Except FileError (List UInt8))
    (random : RandomStream) (clock : Extended) :
    start d host words read random clock = b := by
  rw [start, h]

theorem start_of_accepted {words : List String} (h : accepted d host words = .ok l)
    (read : String → Except FileError (List UInt8)) (random : RandomStream) (clock : Extended) :
    start d host words read random clock = launch host l (read l.program) random clock := by
  rw [start, h]

theorem ofArguments_of_unfit {a : Arguments} {level : Log.Level} {t : Setting}
    (hlevel : a.level = some level) (hunfit : a.choices.unfit? = some t) :
    ofArguments host a =
      match a.choices.number? t with
      | none   => .error (.broken (.nothing t))
      | some _ => .error (.usage (Choices.Error.notPositive t).message) := by
  rw [ofArguments, hlevel, Choices.settings_of_unfit hunfit, Choices.complaint]
  cases a.choices.number? t <;> rfl

theorem ofArguments_arguments (hpositive : ∀ t, 0 < l.settings.number t) :
    ofArguments host l.arguments =
      match Screen.make host screenColumns screenRows with
      | .error e => .error (.broken (.screen e))
      | .ok _    =>
          if l.program.toList.contains '\x00' then .error (.broken .nullInName) else .ok l := by
  rw [ofArguments, Launch.arguments]
  generalize hasked : Choices.settings _ = asked
  cases hasked.symm.trans (Settings.settings_choices_of_pos hpositive)
  rfl

theorem tried {words : List String} (hparse : Arguments.parse d words = .ok l.arguments)
    (hpositive : ∀ t, 0 < l.settings.number t)
    (read : String → Except FileError (List UInt8)) (random : RandomStream) (clock : Extended) :
    Tried d host words read random l (start d host words read random clock) := by
  have haccepted : accepted d host words = _ :=
    (accepted_of_parse hparse).trans (ofArguments_arguments hpositive)
  have hends {b : Boot} (h : accepted d host words = .error b) :
      accepted d host words = .error (start d host words read random clock) ∧
        start d host words read random clock = b ∧
        (start d host words read random clock).status = b.status := by
    rw [start_of_refused h]
    exact ⟨h, rfl, rfl⟩
  rw [Tried]
  cases hmake : Screen.make host screenColumns screenRows with
  | error e =>
      rw [hmake] at haccepted
      exact hends haccepted
  | ok screen =>
      rw [hmake] at haccepted
      show if _ then _ else _
      split_ifs with hname
      · exact hends (haccepted.trans (if_pos (List.contains_iff_mem.2 hname)))
      · have hlaunch := haccepted.trans (if_neg (mt List.contains_iff_mem.1 hname))
        rw [start_of_accepted hlaunch]
        exact launched hpositive _

/-- **STARTING UP IS EXACT.**  Whatever the words of the command line are, the dialect in which
    they are read, and the memory of the host:

    * help is given if it is asked for, and words that make no command line are refused, for
      the reason found;
    * starting up breaks off if the level of the log is set to nothing;
    * the first setting that is unfit is reported if it is set to a number, and starting up
      breaks off if it is set to nothing;
    * otherwise, where there is room for a screen, of a program file whose name can be one, it
      is logged if it cannot be read, or if what it gives does not fit, and there is no window;
      if it fits, a session runs on it, if a window can be opened with the settings, and else
      starting up breaks off. -/
theorem starting_is_exact (d : Dialect) (host : HostMemory) (words : List String)
    (read : String → Except FileError (List UInt8)) (random : RandomStream) (clock : Extended) :
    let boot := start d host words read random clock
    (Arguments.parse d words = .error .help →
      Decided d words boot ∧ boot = .help ∧ boot.status = 0) ∧
    (∀ e, Arguments.parse d words = .error (.usage e) →
      Decided d words boot ∧ boot = .usage e.message ∧ boot.status = 2) ∧
    ∀ a, Arguments.parse d words = .ok a →
      (a.level = none → Decided d words boot ∧ boot = .broken .noLevel ∧ boot.status = 1) ∧
      ∀ level, a.level = some level →
        (∀ t, a.choices.unfit? = some t → Decided d words boot ∧
          match a.choices.number? t with
          | none   => boot = .broken (.nothing t) ∧ boot.status = 1
          | some _ => boot = .usage (Choices.Error.notPositive t).message ∧ boot.status = 2) ∧
        (a.choices.unfit? = none →
          ∃ l : Launch, a = l.arguments ∧ Tried d host words read random l boot) := by
  intro boot
  have hends {b : Boot} (h : Decided d words b) :
      Decided d words boot ∧ boot = b ∧ boot.status = b.status := by
    have hboot : boot = b := start_of_refused (h host) ..
    exact ⟨hboot ▸ h, hboot, congrArg status hboot⟩
  refine ⟨fun hparse => ?_, fun e hparse => ?_, fun a hparse => ⟨fun hlevel => ?_,
    fun level hlevel => ⟨fun t hunfit => ?_, fun hfit => ?_⟩⟩⟩
  · exact hends fun _ => by rw [accepted, hparse]
  · exact hends fun _ => by rw [accepted, hparse]
  · exact hends fun _ => (accepted_of_parse hparse).trans (by rw [ofArguments, hlevel])
  · have haccepted (host : HostMemory) : accepted d host words = _ :=
      (accepted_of_parse hparse).trans (ofArguments_of_unfit hlevel hunfit)
    cases hnumber : a.choices.number? t with
    | none =>
        rw [hnumber] at haccepted
        exact hends haccepted
    | some n =>
        rw [hnumber] at haccepted
        exact hends haccepted
  · obtain ⟨s, hchoices, -⟩ := Choices.settings_of_fit hfit
    obtain ⟨program, choices, given⟩ := a
    obtain rfl : choices = s.choices := hchoices
    obtain rfl : given = some level := hlevel
    exact ⟨⟨program, s, level⟩, rfl,
      tried hparse (Settings.unfit?_choices_eq_none_iff.1 hfit) read random clock⟩

/-- Two hyphens joined to an option set it to nothing in one dialect, and are no number in the
    other. -/
example (host : HostMemory) (random : RandomStream) (clock : Extended) :
    let boot (d : Dialect) :=
      start d host ["game.ch8", "--scale=--"] (fun _ => .ok []) random clock
    boot .earlier = .broken (.nothing .scale) ∧ (boot .later).status = 2 :=
  ⟨rfl, rfl⟩

/-- A program file named alone starts a session with the standard settings. -/
theorem started_as_standard :
    let l : Launch := ⟨"game.ch8", .standard, .warning⟩
    let program : List UInt8 := [0x12, 0x00]
    let boot := start .earlier .boundless ["game.ch8"] (fun _ => .ok program) (.cycling [])
      (.finite 0)
    Arguments.parse .earlier ["game.ch8"] = .ok l.arguments ∧
      l.arguments.level = some .warning ∧ l.arguments.choices.unfit? = none ∧
      l.settings.Opens .boundless ∧ boot.status = 0 ∧
      ∃ session, Opened .boundless l (.cycling []) program boot session := by
  intro l program boot
  have hparse : Arguments.parse .earlier ["game.ch8"] = .ok l.arguments := rfl
  have hfit : l.arguments.choices.unfit? = none := by decide
  have hopens : l.settings.Opens .boundless :=
    ⟨(Screen.standard_dark.roomFor_iff (by decide)).2 ⟨by decide, rfl, rfl⟩, by decide +kernel⟩
  have hstart := starting_is_exact .earlier .boundless ["game.ch8"] (fun _ => .ok program)
    (.cycling []) (.finite 0)
  obtain ⟨l', heq, htried⟩ := ((hstart.2.2 l.arguments hparse).2 .warning rfl).2 hfit
  obtain rfl : l' = l := Launch.arguments_injective heq.symm
  have hmake : Screen.make .boundless screenColumns screenRows =
      .ok (.dark screenColumns screenRows) := rfl
  simp only [Tried, hmake] at htried
  rw [if_neg (by decide), Launched, if_neg (by decide), if_pos hopens] at htried
  exact ⟨hparse, rfl, hfit, hopens, htried⟩

/-! ## A rate that no interval has -/

/-- A program file and a rate for it. -/
theorem parse_rate {name rate : String} {n : Int} (hname : name.toList.head? ≠ some '-')
    (hplain : rate.toList.head? ≠ some '-') (hread : Integer.read? rate = some n) :
    Arguments.parse d [name, "--hz", rate] =
      .ok (Launch.arguments ⟨name, { Settings.standard with timerHz := n }, .warning⟩) := by
  have hwords : Token.ofWords [name, "--hz", rate] =
      .ok [.plain name, .choice .timerHz none, .plain rate] := by
    have hrate : Token.ofWord "--hz" = .ok (.choice .timerHz none) := rfl
    simp only [Token.ofWords, Token.ofWord_plain hname, Token.ofWord_plain hplain, hrate]
    rfl
  have hset : Scan.setValue (Scan.start.takeWord name) .timerHz rate =
      .ok { Scan.start.takeWord name with choices.timerHz := some n } := by
    simp only [Scan.setValue, hread]
    rfl
  have hrun : Scan.run d [.plain name, .choice .timerHz none, .plain rate] Scan.start =
      .ok { Scan.start.takeWord name with choices.timerHz := some n } := by
    simp only [Scan.run, Scan.takesValue, if_true, hset]
    rfl
  rw [Arguments.parse, hwords]
  show (Scan.run d [.plain name, .choice .timerHz none, .plain rate] Scan.start >>= _) = _
  rw [hrun]
  rfl

theorem create_of_no_interval {console : Console} {settings : Settings} {e : Quantity.Error}
    (hroom : console.machine.screen.roomFor host settings.scale = .ok ())
    (hinterval : settings.interval = .error e) (level : Log.Level) :
    Session.create host console settings level clock = .error (.interval e) := by
  obtain ⟨image, himage⟩ := Screen.exists_image hroom true .white
  have hpicture : Session.pictureOf host console.machine settings.scale = .ok image := himage
  rw [Session.create, hpicture, hinterval]
  rfl

/-- **A RATE CAN BE TOO HIGH FOR A SESSION**, positive though it is. -/
theorem rate_without_interval :
    let rate := String.ofList (List.replicate 309 '9')
    let words := ["game.ch8", "--hz", rate]
    let l : Launch := ⟨"game.ch8", { Settings.standard with timerHz := 10 ^ 309 - 1 }, .warning⟩
    let program : List UInt8 := [0x12, 0x00]
    let boot := start .earlier .boundless words (fun _ => .ok program) (.cycling []) (.finite 0)
    Arguments.parse .earlier words = .ok l.arguments ∧ l.arguments.choices.unfit? = none ∧
      program.length ≤ programCapacity ∧
      boot = .broken (.window (.interval .tooLarge)) ∧ boot.status = 1 ∧
      ¬ ∃ log calls session, boot = .running log calls session := by
  intro rate words l program boot
  have hread : Integer.read? rate = some (10 ^ 309 - 1) := by
    show Integer.read? (String.ofList _) = _
    rw [Integer.read?, String.toList_ofList]
    decide +kernel
  have hplain : rate.toList.head? ≠ some '-' := by
    show (String.ofList _).toList.head? ≠ _
    rw [String.toList_ofList]
    decide
  have hparse : Arguments.parse .earlier words = .ok l.arguments :=
    parse_rate (by decide) hplain hread
  have hfit : l.arguments.choices.unfit? = none := by decide +kernel
  have hpositive := Settings.unfit?_choices_eq_none_iff.1 hfit
  have haccepted : accepted .earlier .boundless words = .ok l := by
    rw [accepted_of_parse hparse, ofArguments_arguments hpositive]
    exact if_neg (by decide)
  have hroom : (l.console program (.cycling [])).machine.screen.roomFor .boundless
      l.settings.scale = .ok () :=
    (Screen.standard_dark.roomFor_iff (by decide)).2 ⟨by decide, rfl, rfl⟩
  have hinterval : l.settings.interval = .error .tooLarge := by
    rw [Settings.interval_eq (by decide +kernel)]
    exact if_pos (by decide +kernel)
  have hboot : boot = .broken (.window (.interval .tooLarge)) := by
    refine (start_of_accepted haccepted _ _ _).trans ((launch_fits (by decide)).trans ?_)
    rw [create_of_no_interval hroom hinterval]
  refine ⟨hparse, hfit, by decide, hboot, congrArg status hboot, ?_⟩
  rintro ⟨log, calls, session, hruns⟩
  cases hboot.symm.trans hruns

end Boot

end Chip8
