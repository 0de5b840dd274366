import Chip8.Buzzer

/-! # The buzzer and its players

    On a device that refuses nothing, a buzzer that is ordered to sound a tone, or none, sounds
    it, with no call to the device if it did so already (**`obey_again`**).

    The calls are a ledger of players: the one that was created and not deleted is the one that
    the buzzer holds, and a new one is created exactly where a tone begins (**`obeyed`**). -/

namespace Chip8

namespace DeviceCall

/-- The player that a call creates, if it creates one. -/
def created? : DeviceCall → Option Nat
  | .create p => some p
  | _         => none

/-- The players that are there after a call: created, and not deleted since. -/
def ledger (players : List Nat) : DeviceCall → List Nat
  | .create p => p :: players
  | .delete p => players.erase p
  | _         => players

end DeviceCall

/-- The order to sound a whole frequency, or to be silent. -/
def Command.ofTone : Option Int → Command
  | some hertz => .play (.whole hertz)
  | none       => .stop

namespace Buzzer

def Report.call? : Report → Option DeviceCall
  | .call c => some c
  | _       => none

/-- The calls to the device among reports. -/
def calls (reports : List Report) : List DeviceCall := reports.filterMap Report.call?

/-- The buzzer sounds a whole frequency, or is silent. -/
def Sounds (b : Buzzer) (tone : Option Int) : Prop :=
  b.frequency = tone.map .whole ∧ b.playing = tone.isSome

theorem sounds_silent : silent.Sounds none := ⟨rfl, rfl⟩

theorem issue_willing (cs : List DeviceCall) : issue willing cs = (cs, none) := by
  induction cs with
  | nil => rfl
  | cons c rest ih =>
      rw [issue, ih]
      rfl

variable {b : Buzzer} {tone : Option Int} {p : Nat}

theorem player_of_sounds (h : b.Sounds none) : b.player = none :=
  Option.isNone_iff_eq_none.1 (Option.isSome_eq_false_iff.1 h.2)

theorem exists_player_of_sounds {hertz : Int} (h : b.Sounds (some hertz)) :
    ∃ p, b.player = some p :=
  Option.isSome_iff_exists.1 h.2

/-- The buzzer is silent, or it sounds something else. -/
theorem ne_some_iff_of_sounds (h : b.Sounds tone) (hertz : Int) :
    tone ≠ some hertz ↔ b.playing = false ∨ b.frequency ≠ some (.whole hertz) := by
  rw [h.1, h.2]
  cases tone with
  | none => exact ⟨fun _ => Or.inl rfl, fun _ he => nomatch he⟩
  | some old =>
      constructor
      · intro hne
        refine Or.inr fun he => hne ?_
        exact congrArg some (Quantity.whole.inj (Option.some.inj he))
      · rintro (hsilent | hother)
        · exact nomatch hsilent
        · exact fun he => hother (congrArg (Option.map Quantity.whole) he)

/-! ## Starting and stopping -/

/-- The buzzer that a new player has been added to. -/
def started (b : Buzzer) (hertz : Int) : Buzzer :=
  ⟨some (b.created + 1), some (.whole hertz), b.created + 1⟩

/-- The buzzer that holds no player any more. -/
def stopped (b : Buzzer) : Buzzer := ⟨none, none, b.created⟩

theorem start_willing (b : Buzzer) (hertz : Int) :
    b.start willing (.whole hertz)
      = ⟨b.started hertz, (startCalls (b.created + 1) (.whole hertz)).map .call
          ++ [.entry (.toneOn hertz)], none⟩ := by
  simp only [start, issue_willing]
  rfl

theorem stop_of_silent (hp : b.player = none) :
    b.stop willing = ⟨b, [.command .stop], none⟩ := by
  simp only [stop, hp]
  rfl

theorem stop_of_playing (hp : b.player = some p) :
    b.stop willing
      = ⟨b.stopped, .command .stop :: (stopCalls p).map .call ++ [.entry .toneOff], none⟩ := by
  simp only [stop, hp, issue_willing]
  rfl

/-! ## Obeying an order -/

/-- **A TONE THAT SOUNDS ALREADY IS LEFT ALONE**, and so is silence. -/
theorem obey_again (h : b.Sounds tone) :
    b.obey willing (.ofTone tone) = ⟨b, [.command (.ofTone tone)], none⟩ := by
  cases tone with
  | none => exact stop_of_silent (player_of_sounds h)
  | some hertz =>
      obtain ⟨p, hp⟩ := exists_player_of_sounds h
      have hsame : (b.frequency == some (.whole hertz)) = true := by
        rw [h.1]
        exact (Quantity.whole_beq_whole hertz hertz).2 rfl
      simp only [obey, Command.ofTone, play, hp, hsame, if_true]
      rfl

theorem obey_stop (hp : b.player = some p) :
    b.obey willing (.ofTone none)
      = ⟨b.stopped, .command .stop :: (stopCalls p).map .call ++ [.entry .toneOff], none⟩ :=
  stop_of_playing hp

theorem obey_start (hp : b.player = none) (hertz : Int) :
    b.obey willing (.ofTone (some hertz))
      = ⟨b.started hertz, .command (.play (.whole hertz))
          :: (startCalls (b.created + 1) (.whole hertz)).map .call ++ [.entry (.toneOn hertz)],
        none⟩ := by
  simp only [obey, Command.ofTone, play, hp, start_willing]
  rfl

theorem obey_restart {hertz : Int} (h : b.Sounds tone) (hne : tone ≠ some hertz)
    (hp : b.player = some p) :
    b.obey willing (.ofTone (some hertz))
      = ⟨b.started hertz, .command (.play (.whole hertz))
          :: (.command .stop :: (stopCalls p).map .call ++ [.entry .toneOff])
          ++ (startCalls (b.created + 1) (.whole hertz)).map .call ++ [.entry (.toneOn hertz)],
        none⟩ := by
  have hother : (b.frequency == some (.whole hertz)) = false := by
    rw [h.1]
    cases tone with
    | none => rfl
    | some old =>
        refine Bool.eq_false_iff.2 fun hsame => hne ?_
        exact congrArg some ((Quantity.whole_beq_whole old hertz).1 hsame)
  simp only [obey, Command.ofTone, play, hp, hother, Bool.false_eq_true, if_false,
    stop_of_playing hp, Outcome.andThen, start_willing]
  rfl

/-- What is true of a buzzer after an order to sound a tone, or none. -/
structure Obeyed (b : Buzzer) (tone wanted : Option Int) (o : Result) : Prop where
  failure : o.failure = none
  sounds : o.state.Sounds wanted
  /-- Of the players created, the one that is held is the only one not deleted. -/
  ledger : (calls o.reports).foldl DeviceCall.ledger b.player.toList = o.state.player.toList
  /-- A player is created where a tone begins. -/
  created : (calls o.reports).filterMap DeviceCall.created?
    = if wanted.isSome ∧ tone ≠ wanted then [b.created + 1] else []

/-- **THE BUZZER OBEYS.** -/
theorem obeyed (h : b.Sounds tone) (wanted : Option Int) :
    Obeyed b tone wanted (b.obey willing (.ofTone wanted)) := by
  by_cases hsame : tone = wanted
  · subst hsame
    rw [obey_again h]
    exact ⟨rfl, h, rfl, (if_neg fun hnew => hnew.2 rfl).symm⟩
  · cases wanted with
    | none =>
        cases tone with
        | none => exact absurd rfl hsame
        | some old =>
            obtain ⟨p, hp⟩ := exists_player_of_sounds h
            rw [obey_stop hp]
            refine ⟨rfl, ⟨rfl, rfl⟩, ?_, rfl⟩
            rw [hp]
            show [p].erase p = []
            rw [List.erase_cons_head]
    | some hertz =>
        have hnew : (some hertz).isSome ∧ tone ≠ some hertz := ⟨rfl, hsame⟩
        cases hp : b.player with
        | none =>
            rw [obey_start hp]
            refine ⟨rfl, ⟨rfl, rfl⟩, ?_, (if_pos hnew).symm⟩
            rw [hp]
            rfl
        | some p =>
            rw [obey_restart h hsame hp]
            refine ⟨rfl, ⟨rfl, rfl⟩, ?_, (if_pos hnew).symm⟩
            rw [hp]
            show (b.created + 1) :: [p].erase p = [b.created + 1]
            rw [List.erase_cons_head]

end Buzzer

end Chip8
