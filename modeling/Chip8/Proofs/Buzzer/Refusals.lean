import Chip8.Proofs.Buzzer.Lives

/-! # The lives of the players when calls are refused

    The device may refuse any call, and which ones it refuses may change from one command to the
    next.  A player may then never be created, have its start cut short, or be stopped in vain;
    each leaves its own trace on the player (**`Sounding`**, **`Over`**), and what the buzzer
    holds is told apart by it (**`Fated`**, kept by every command: **`Fated.obey`**).

    What is lost is said by **`refusals_are_contained`**: a player whose start was cut short is
    never deleted, and one whose stop was refused halfway is held although it may not sound. -/

namespace Chip8

/-- Whether a call starts or pauses a player. -/
def DeviceCall.isTransport : DeviceCall → Bool
  | .play _ _ | .pause _ => true
  | _                    => false

namespace Buzzer

/-- A call to the device, and whether it was carried out. -/
structure Attempt where
  call : DeviceCall
  accepted : Bool

/-- A command, and the calls that the device refuses while it is obeyed. -/
structure Request where
  command : Command
  refuses : DeviceCall → Bool

/-- The calls that were made, and whether each was carried out. -/
def attempts (refuses : DeviceCall → Bool) (o : Result) : List Attempt :=
  (calls o.reports).map fun call => ⟨call, !refuses call⟩

def asked (b : Buzzer) (r : Request) : Result := b.obey r.refuses r.command

/-- The buzzer after requests, whatever became of each. -/
def askedAll (b : Buzzer) (rs : List Request) : Buzzer := rs.foldl (fun b r => (b.asked r).state) b

/-- The calls that were made for requests, and whether each was carried out. -/
def attemptsFor (b : Buzzer) : List Request → List Attempt
  | []      => []
  | r :: rs => attempts r.refuses (b.asked r) ++ attemptsFor (b.asked r).state rs

/-- The device refused a call. -/
def Refused (o : Result) : Prop := ∃ call, o.failure = some (.refused call)

/-- The attempts on one player. -/
def attemptsOn (p : Nat) (trace : List Attempt) : List Attempt :=
  trace.filter fun a => a.call.player? = some p

/-- The attempts to start or to pause one player. -/
def transports (p : Nat) (trace : List Attempt) : List Attempt :=
  (attemptsOn p trace).filter fun a => a.call.isTransport

variable {b : Buzzer} {f g : Quantity} {p q : Nat} {trace t : List Attempt}
  {refuses : DeviceCall → Bool}

theorem attemptsOn_append (p : Nat) (t t' : List Attempt) :
    attemptsOn p (t ++ t') = attemptsOn p t ++ attemptsOn p t' :=
  List.filter_append ..

theorem mem_attemptsOn {a : Attempt} (hp : a.call.player? = some p) :
    a ∈ attemptsOn p trace ↔ a ∈ trace := by
  rw [attemptsOn, List.mem_filter, decide_eq_true_iff]
  exact and_iff_left hp

/-! ## What happens to a player -/

/-- A player is created, gets its source queued, and plays. -/
def begun (p : Nat) (f : Quantity) : List Attempt :=
  [⟨.create p, true⟩, ⟨.queue p f, true⟩, ⟨.play p true, true⟩]

/-- The attempts on a player that plays, or has at most been stopped in vain. -/
inductive Sounding (p : Nat) (f : Quantity) : List Attempt → Prop
  | started : Sounding p f (begun p f)
  | unpaused {t : List Attempt} (h : Sounding p f t) : Sounding p f (t ++ [⟨.pause p, false⟩])
  | undeleted {t : List Attempt} (h : Sounding p f t) :
      Sounding p f (t ++ [⟨.pause p, true⟩, ⟨.delete p, false⟩])

/-- The attempts on a player that will not be called again: it was not created, its start was cut
    short when its source was made or queued or when it was to play, or it has been stopped. -/
inductive Over (p : Nat) : List Attempt → Prop
  | uncreated : Over p [⟨.create p, false⟩]
  | sourceless : Over p [⟨.create p, true⟩]
  | unqueued (f : Quantity) : Over p [⟨.create p, true⟩, ⟨.queue p f, false⟩]
  | unplayed (f : Quantity) :
      Over p [⟨.create p, true⟩, ⟨.queue p f, true⟩, ⟨.play p true, false⟩]
  | stopped {f : Quantity} {t : List Attempt} (h : Sounding p f t) :
      Over p (t ++ [⟨.pause p, true⟩, ⟨.delete p, true⟩])

theorem Sounding.begun_subset (h : Sounding p f t) : begun p f ⊆ t := by
  induction h with
  | started => exact List.Subset.refl _
  | unpaused _ ih => exact List.subset_append_of_subset_left _ ih
  | undeleted _ ih => exact List.subset_append_of_subset_left _ ih

/-- A player that has not been stopped in vain was told to play last. -/
theorem Sounding.transports_cases (h : Sounding p f t) :
    (t.filter fun a => a.call.isTransport).getLast? = some ⟨.play p true, true⟩ ∨
      ⟨.pause p, false⟩ ∈ t ∨ ⟨.delete p, false⟩ ∈ t := by
  cases h with
  | started => exact Or.inl rfl
  | unpaused _ => exact Or.inr (Or.inl (by simp))
  | undeleted _ => exact Or.inr (Or.inr (by simp))

theorem Sounding.not_deleted (h : Sounding p f t) : ⟨.delete p, true⟩ ∉ t := by
  induction h with
  | started => simp [begun]
  | unpaused _ ih => simp [ih]
  | undeleted _ ih => simp [ih]

/-- A player that is not called again was deleted if it ever played. -/
theorem Over.deleted_iff (h : Over p t) : ⟨.delete p, true⟩ ∈ t ↔ ⟨.play p true, true⟩ ∈ t := by
  cases h with
  | stopped h =>
      have hplayed := h.begun_subset (show ⟨.play p true, true⟩ ∈ begun p _ by simp [begun])
      simp [hplayed]
  | _ => simp

/-! ## Starting and stopping -/

/-- Calls up to the first that is refused. -/
def tried (refuses : DeviceCall → Bool) : List DeviceCall → List Attempt
  | []            => []
  | call :: calls =>
      if refuses call then [⟨call, false⟩] else ⟨call, true⟩ :: tried refuses calls

/-- Issuing calls ends with the first that is refused. -/
theorem issue_eq (refuses : DeviceCall → Bool) (cs : List DeviceCall) :
    (issue refuses cs).1.map (fun call => ⟨call, !refuses call⟩) = tried refuses cs ∧
      (issue refuses cs).2 = (cs.find? refuses).map .refused := by
  induction cs with
  | nil => exact ⟨rfl, rfl⟩
  | cons call rest ih =>
      obtain ⟨hmade, hrefusal⟩ := ih
      cases hcall : refuses call with
      | true => simp [issue, tried, hcall]
      | false => simp [issue, tried, hcall, hmade, hrefusal]

theorem player?_of_mem_tried {cs : List DeviceCall} (h : ∀ call ∈ cs, ∀ q, call.player? = some q →
    q = p) : ∀ a ∈ tried refuses cs, ∀ q, a.call.player? = some q → q = p := by
  induction cs with
  | nil => exact fun _ ha => nomatch ha
  | cons call rest ih =>
      obtain ⟨hcall, hrest⟩ := List.forall_mem_cons.1 h
      rw [tried]
      split
      · exact List.forall_mem_cons.2 ⟨hcall, fun _ ha => nomatch ha⟩
      · exact List.forall_mem_cons.2 ⟨hcall, ih hrest⟩

theorem attempts_start (refuses : DeviceCall → Bool) (b : Buzzer) (f : Quantity) :
    attempts refuses (b.start refuses f) = tried refuses (startCalls (b.created + 1) f) := by
  rw [← (issue_eq _ _).1, attempts, start]
  rcases issue refuses (startCalls (b.created + 1) f) with ⟨made, _ | refusal⟩
  · simp only [calls_append, calls_map_call, calls_onsetNotes, List.append_nil]
  · simp only [calls_map_call]

/-- A start that is refused leaves no player with the buzzer. -/
theorem start_refused {call : DeviceCall}
    (h : (startCalls (b.created + 1) f).find? refuses = some call) :
    (b.start refuses f).failure = some (.refused call) ∧
      (b.start refuses f).state = { b with created := b.created + 1 } := by
  have hrefusal := (issue_eq refuses (startCalls (b.created + 1) f)).2
  rw [h] at hrefusal
  rw [start]
  generalize issue refuses (startCalls (b.created + 1) f) = issued at hrefusal ⊢
  obtain ⟨made, _⟩ := issued
  obtain rfl := hrefusal
  exact ⟨rfl, rfl⟩

/-- Any other has it hold the new one. -/
theorem start_accepted (h : (startCalls (b.created + 1) f).find? refuses = none) :
    (b.start refuses f).failure = none ∧ (b.start refuses f).state = b.sounding f := by
  have hrefusal := (issue_eq refuses (startCalls (b.created + 1) f)).2
  rw [h] at hrefusal
  rw [start]
  generalize issue refuses (startCalls (b.created + 1) f) = issued at hrefusal ⊢
  obtain ⟨made, _⟩ := issued
  obtain rfl := hrefusal
  exact ⟨rfl, rfl⟩

/-- A start is refused at one of four calls, or at none. -/
theorem tried_startCalls (refuses : DeviceCall → Bool) (p : Nat) (f : Quantity) :
    let t := attemptsOn p (tried refuses (startCalls p f))
    (∃ call, (startCalls p f).find? refuses = some call ∧ Over p t) ∨
      ((startCalls p f).find? refuses = none ∧ t = begun p f) := by
  intro t
  -- one case for each call, in the order in which they are made; the source is no player's call,
  -- so a refusal of it shows only in what does not come after
  cases hcreate : refuses (.create p) with
  | true =>
      have ht : t = [⟨.create p, false⟩] := by
        simp [t, startCalls, tried, attemptsOn, DeviceCall.player?, hcreate]
      exact Or.inl ⟨.create p, by simp [startCalls, hcreate], ht ▸ .uncreated⟩
  | false =>
  cases hsource : refuses (.source f) with
  | true =>
      have ht : t = [⟨.create p, true⟩] := by
        simp [t, startCalls, tried, attemptsOn, DeviceCall.player?, hcreate, hsource]
      exact Or.inl ⟨.source f, by simp [startCalls, hcreate, hsource], ht ▸ .sourceless⟩
  | false =>
  cases hqueue : refuses (.queue p f) with
  | true =>
      have ht : t = [⟨.create p, true⟩, ⟨.queue p f, false⟩] := by
        simp [t, startCalls, tried, attemptsOn, DeviceCall.player?, hcreate, hsource, hqueue]
      exact Or.inl ⟨.queue p f, by simp [startCalls, hcreate, hsource, hqueue], ht ▸ .unqueued f⟩
  | false =>
  cases hplay : refuses (.play p true) with
  | true =>
      have ht : t = [⟨.create p, true⟩, ⟨.queue p f, true⟩, ⟨.play p true, false⟩] := by
        simp [t, startCalls, tried, attemptsOn, DeviceCall.player?, hcreate, hsource, hqueue, hplay]
      refine Or.inl ⟨.play p true, ?_, ht ▸ .unplayed f⟩
      simp [startCalls, hcreate, hsource, hqueue, hplay]
  | false =>
      refine Or.inr ⟨?_, ?_⟩
      · simp [startCalls, hcreate, hsource, hqueue, hplay]
      · simp [t, startCalls, tried, attemptsOn, DeviceCall.player?, hcreate, hsource, hqueue, hplay,
          begun]

/-- A start is cut short by a refusal, or comes to an end. -/
theorem start_cases (refuses : DeviceCall → Bool) (b : Buzzer) (f : Quantity) :
    let o := b.start refuses f
    let t := attemptsOn (b.created + 1) (attempts refuses o)
    (Refused o ∧ o.state = { b with created := b.created + 1 } ∧ Over (b.created + 1) t) ∨
      (o.failure = none ∧ o.state = b.sounding f ∧ t = begun (b.created + 1) f) := by
  intro o t
  -- what the log shows of the tone comes after the last call, so the calls alone decide
  have ht : t = attemptsOn (b.created + 1) (tried refuses (startCalls (b.created + 1) f)) :=
    congrArg _ (attempts_start refuses b f)
  rw [ht]
  rcases tried_startCalls refuses (b.created + 1) f with ⟨call, hfind, hover⟩ | ⟨hfind, hbegun⟩
  · obtain ⟨hfailure, hstate⟩ := start_refused hfind
    exact Or.inl ⟨⟨call, hfailure⟩, hstate, hover⟩
  · obtain ⟨hdone, hstate⟩ := start_accepted hfind
    exact Or.inr ⟨hdone, hstate, hbegun⟩

theorem attempts_stop (hp : b.player = some p) :
    attempts refuses (b.stop refuses) = tried refuses (stopCalls p) := by
  have hcommand : calls [.command .stop] = [] := rfl
  have hentry : calls [.entry .toneOff] = [] := rfl
  rw [← (issue_eq _ _).1, attempts, stop, hp]
  dsimp only [Outcome.after]
  rcases issue refuses (stopCalls p) with ⟨made, _ | refusal⟩
  · simp only [calls_append, calls_map_call, hcommand, hentry, List.nil_append, List.append_nil]
  · simp only [calls_append, calls_map_call, hcommand, List.nil_append]

/-- Nobody is called in silence. -/
theorem stop_silent (hp : b.player = none) (refuses : DeviceCall → Bool) :
    let o := b.stop refuses
    o.failure = none ∧ o.state = b ∧ attempts refuses o = [] := by
  simp only [stop, hp]
  exact ⟨rfl, rfl, rfl⟩

/-- A stop is refused at one of two calls, and leaves the buzzer as it was, or at none. -/
theorem stop_cases (hp : b.player = some p) (refuses : DeviceCall → Bool) :
    let o := b.stop refuses
    let t := attempts refuses o
    (Refused o ∧ o.state = b ∧
        (t = [⟨.pause p, false⟩] ∨ t = [⟨.pause p, true⟩, ⟨.delete p, false⟩])) ∨
      (o.failure = none ∧ o.state = b.stopped ∧ t = [⟨.pause p, true⟩, ⟨.delete p, true⟩]) := by
  intro o t
  have ht : t = tried refuses (stopCalls p) := attempts_stop hp
  cases hpause : refuses (.pause p) with
  | true =>
      have ho : o = ⟨b, [.command .stop, .call (.pause p)], some (.refused (.pause p))⟩ := by
        simp [o, stop, hp, stopCalls, issue, hpause, Outcome.after]
      refine Or.inl ⟨⟨.pause p, by rw [ho]⟩, by rw [ho], Or.inl ?_⟩
      rw [ht]
      simp [stopCalls, tried, hpause]
  | false =>
  cases hdelete : refuses (.delete p) with
  | true =>
      have ho : o = ⟨b, [.command .stop, .call (.pause p), .call (.delete p)],
          some (.refused (.delete p))⟩ := by
        simp [o, stop, hp, stopCalls, issue, hpause, hdelete, Outcome.after]
      refine Or.inl ⟨⟨.delete p, by rw [ho]⟩, by rw [ho], Or.inr ?_⟩
      rw [ht]
      simp [stopCalls, tried, hpause, hdelete]
  | false =>
      have ho : o = ⟨b.stopped, [.command .stop, .call (.pause p), .call (.delete p),
          .entry .toneOff], none⟩ := by
        simp [o, stop, hp, stopCalls, issue, hpause, hdelete, Outcome.after, stopped]
      refine Or.inr ⟨by rw [ho], by rw [ho], ?_⟩
      rw [ht]
      simp [stopCalls, tried, hpause, hdelete]

/-! ## The invariant -/

/-- What the buzzer holds is told apart by the attempts on each player: the one that is held
    sounds or was stopped in vain, every other is over or has not been asked for. -/
structure Fated (b : Buzzer) (trace : List Attempt) : Prop where
  held : ∀ p, b.player = some p →
    p ≤ b.created ∧ ∃ g, b.frequency = some g ∧ Sounding p g (attemptsOn p trace)
  ended : ∀ p, b.player ≠ some p → attemptsOn p trace = [] ∨ Over p (attemptsOn p trace)
  unasked : ∀ p, b.created < p → attemptsOn p trace = []

theorem fated_silent : Fated silent [] where
  held _ hp := nomatch hp
  ended _ _ := Or.inl rfl
  unasked _ _ := rfl

/-- Attempts on one player leave those on the others as they were. -/
theorem attemptsOn_of_own (hown : ∀ a ∈ t, ∀ q, a.call.player? = some q → q = p) (hq : q ≠ p) :
    attemptsOn q (trace ++ t) = attemptsOn q trace := by
  have hnone : attemptsOn q t = [] := by
    refine List.filter_eq_nil_iff.2 fun a ha hplayer => hq ?_
    exact hown a ha q (of_decide_eq_true hplayer)
  rw [attemptsOn_append, hnone, List.append_nil]

/-- The attempts on a player that has not been asked for are all new. -/
theorem Fated.attemptsOn_new (h : Fated b trace) (t : List Attempt) :
    attemptsOn (b.created + 1) (trace ++ t) = attemptsOn (b.created + 1) t := by
  rw [attemptsOn_append, h.unasked _ (Nat.lt_succ_self _), List.nil_append]

theorem Fated.start (h : Fated b trace) (hp : b.player = none) (refuses : DeviceCall → Bool)
    (f : Quantity) :
    Fated (b.start refuses f).state (trace ++ attempts refuses (b.start refuses f)) := by
  have hothers {q : Nat} (hq : q ≠ b.created + 1) :
      attemptsOn q (trace ++ attempts refuses (b.start refuses f)) = attemptsOn q trace := by
    refine attemptsOn_of_own ?_ hq
    rw [attempts_start]
    refine player?_of_mem_tried ?_
    simp [startCalls, DeviceCall.player?]
  have hunasked : ∀ q, b.created + 1 < q →
      attemptsOn q (trace ++ attempts refuses (b.start refuses f)) = [] := by
    intro q hq
    rw [hothers (Nat.ne_of_gt hq)]
    exact h.unasked q (Nat.lt_of_succ_lt hq)
  have hsilent (q : Nat) : b.player ≠ some q := by
    rw [hp]
    exact (Option.some_ne_none q).symm
  rcases start_cases refuses b f with ⟨_, hstate, hover⟩ | ⟨_, hstate, hbegun⟩
  · -- the number of the player is used up, although nobody holds it
    rw [hstate]
    refine ⟨fun q hq => absurd hq (hsilent q), fun q _ => ?_, hunasked⟩
    by_cases hq : q = b.created + 1
    · rw [hq, h.attemptsOn_new]
      exact Or.inr hover
    · rw [hothers hq]
      exact h.ended q (hsilent q)
  · rw [hstate]
    refine ⟨?_, fun q hother => ?_, hunasked⟩
    · rintro q hq
      obtain rfl : b.created + 1 = q := Option.some.inj hq
      rw [h.attemptsOn_new, hbegun]
      exact ⟨Nat.le_refl _, f, rfl, .started⟩
    · have hq : q ≠ b.created + 1 := fun heq => hother (congrArg some heq.symm)
      rw [hothers hq]
      exact h.ended q (hsilent q)

theorem Fated.stop (h : Fated b trace) (refuses : DeviceCall → Bool) :
    Fated (b.stop refuses).state (trace ++ attempts refuses (b.stop refuses)) := by
  cases hp : b.player with
  | none =>
      obtain ⟨_, hstate, ht⟩ := stop_silent hp refuses
      rw [hstate, ht, List.append_nil]
      exact h
  | some p =>
      obtain ⟨hcreated, g, hf, hsounding⟩ := h.held p hp
      have hothers {q : Nat} (hq : q ≠ p) :
          attemptsOn q (trace ++ attempts refuses (b.stop refuses)) = attemptsOn q trace := by
        refine attemptsOn_of_own ?_ hq
        rw [attempts_stop hp]
        refine player?_of_mem_tried ?_
        simp [stopCalls, DeviceCall.player?]
      have hunasked : ∀ q, b.created < q →
          attemptsOn q (trace ++ attempts refuses (b.stop refuses)) = [] := by
        intro q hq
        rw [hothers (by omega)]
        exact h.unasked q hq
      have hover {q : Nat} (hq : q ≠ p) : attemptsOn q trace = [] ∨ Over q (attemptsOn q trace) :=
        h.ended q fun heq => hq (Option.some.inj (heq.symm.trans hp))
      have hown (t : List Attempt) (ht : ∀ a ∈ t, a.call.player? = some p) :
          attemptsOn p (trace ++ t) = attemptsOn p trace ++ t := by
        rw [attemptsOn_append]
        exact congrArg _ (List.filter_eq_self.2 fun a ha => decide_eq_true (ht a ha))
      rcases stop_cases hp refuses with ⟨_, hstate, ht⟩ | ⟨_, hstate, ht⟩
      · -- refused: the player stays held, paused or not, and goes on with one more vain stop
        rw [hstate]
        refine ⟨fun q hq => ?_, fun q hq => ?_, hunasked⟩
        · obtain rfl : p = q := Option.some.inj (hp.symm.trans hq)
          refine ⟨hcreated, g, hf, ?_⟩
          rcases ht with ht | ht
          · rw [ht, hown _ (by simp [DeviceCall.player?])]
            exact .unpaused hsounding
          · rw [ht, hown _ (by simp [DeviceCall.player?])]
            exact .undeleted hsounding
        · have hne : q ≠ p := fun heq => hq (heq ▸ hp)
          rw [hothers hne]
          exact hover hne
      · rw [hstate]
        refine ⟨fun q hq => absurd hq.symm (Option.some_ne_none q), fun q _ => ?_, hunasked⟩
        by_cases hq : q = p
        · rw [hq, ht, hown _ (by simp [DeviceCall.player?])]
          exact Or.inr (.stopped hsounding)
        · rw [hothers hq]
          exact hover hq

/-! ## Commands -/

theorem attempts_after {reports : List Report} (h : calls reports = []) (o : Result) :
    attempts refuses (o.after reports) = attempts refuses o := by
  rw [attempts, Outcome.after, calls_append, h, List.nil_append, attempts]

theorem attempts_andThen {o : Result} (hok : o.failure = none) (next : Buzzer → Result) :
    attempts refuses (o.andThen next) = attempts refuses o ++ attempts refuses (next o.state) := by
  rw [Outcome.andThen_of_success hok, attempts, Outcome.after, calls_append, List.map_append,
    attempts, attempts]

/-- In silence a tone is started. -/
theorem play_silent (hp : b.player = none) (refuses : DeviceCall → Bool) (f : Quantity) :
    let o := b.play refuses f
    let started := b.start refuses f
    o.failure = started.failure ∧ o.state = started.state ∧
      attempts refuses o = attempts refuses started := by
  intro o started
  have ho : o = started.after [.command (.play f)] := by
    simp only [o, started, play, hp]
  rw [ho]
  exact ⟨rfl, rfl, attempts_after rfl _⟩

/-- Otherwise the tone sounds already, or the stop of the old one is refused, or a start follows
    on the stop. -/
theorem play_cases (hp : b.player = some p) (refuses : DeviceCall → Bool) (f : Quantity) :
    let o := b.play refuses f
    let ended := b.stop refuses
    let started := b.stopped.start refuses f
    ((b.frequency == some f) = true ∧ o.failure = none ∧ o.state = b ∧ attempts refuses o = []) ∨
    (Refused ended ∧ o.failure = ended.failure ∧ o.state = ended.state ∧
      attempts refuses o = attempts refuses ended) ∨
    (ended.failure = none ∧ o.failure = started.failure ∧ o.state = started.state ∧
      attempts refuses o = attempts refuses ended ++ attempts refuses started) := by
  intro o ended started
  have hcommand : calls [.command (.play f)] = [] := rfl
  cases hsame : b.frequency == some f with
  | true =>
      have ho : o = Outcome.after [.command (.play f)] (.done b) := by
        simp only [o, play, hp, hsame, if_true]
      rw [ho, attempts_after hcommand]
      exact Or.inl ⟨rfl, rfl, rfl, rfl⟩
  | false =>
      have ho : o = (ended.andThen (start refuses f)).after [.command (.play f)] := by
        simp only [o, ended, play, hp, hsame, Bool.false_eq_true, if_false]
      rw [ho, attempts_after hcommand]
      rcases stop_cases hp refuses with ⟨⟨call, hrefused⟩, _, _⟩ | ⟨hok, hstate, _⟩
      · -- the start is never reached, and what the stop leaves is what is left
        have hend : ended.andThen (start refuses f) = ended := by
          simp only [Outcome.andThen, ended, hrefused]
        rw [hend]
        exact Or.inr (Or.inl ⟨⟨call, hrefused⟩, rfl, rfl, rfl⟩)
      · refine Or.inr (Or.inr ⟨hok, ?_⟩)
        rw [attempts_andThen hok, Outcome.andThen_of_success hok, hstate]
        exact ⟨rfl, rfl, rfl⟩

/-- What is true after a command to sound a tone. -/
theorem Fated.play (h : Fated b trace) (refuses : DeviceCall → Bool) (f : Quantity) :
    let o := b.play refuses f
    Fated o.state (trace ++ attempts refuses o) ∧
      (o.failure = none → ∃ p g, o.state.player = some p ∧ o.state.frequency = some g ∧
        g.value = f.value) := by
  have hstart {b : Buzzer} (hdone : (b.start refuses f).failure = none) :
      ∃ p g, (b.start refuses f).state.player = some p ∧
        (b.start refuses f).state.frequency = some g ∧ g.value = f.value := by
    rcases start_cases refuses b f with ⟨⟨_, hrefused⟩, _⟩ | ⟨_, hstate, _⟩
    · exact absurd (hrefused.symm.trans hdone) (Option.some_ne_none _)
    · rw [hstate]
      exact ⟨_, f, rfl, rfl, rfl⟩
  intro o
  cases hp : b.player with
  | none =>
      obtain ⟨hfailure, hstate, ht⟩ := play_silent hp refuses f
      rw [hfailure, hstate, ht]
      exact ⟨h.start hp refuses f, hstart⟩
  | some p =>
      rcases play_cases hp refuses f with
        ⟨hsame, _, hstate, ht⟩ | ⟨⟨_, hrefused⟩, hfailure, hstate, ht⟩ |
          ⟨hok, hfailure, hstate, ht⟩
      · obtain ⟨_, g, hf, _⟩ := h.held p hp
        rw [hf] at hsame
        rw [hstate, ht, List.append_nil]
        exact ⟨h, fun _ => ⟨p, g, hp, hf, ((Quantity.beq_iff g f).1 hsame).1⟩⟩
      · rw [hfailure, hstate, ht]
        refine ⟨h.stop refuses, fun hdone => ?_⟩
        exact absurd (hrefused.symm.trans hdone) (Option.some_ne_none _)
      · have hstop := h.stop refuses
        rcases stop_cases hp refuses with ⟨⟨_, hrefused⟩, _⟩ | ⟨_, hstopped, _⟩
        · exact nomatch hok.symm.trans hrefused
        · rw [hstopped] at hstop
          rw [hfailure, hstate, ht, ← List.append_assoc]
          exact ⟨hstop.start rfl refuses f, hstart⟩

/-- **A COMMAND KEEPS FATES TOLD APART**, whichever calls are refused. -/
theorem Fated.obey (h : Fated b trace) (r : Request) :
    Fated (b.asked r).state (trace ++ attempts r.refuses (b.asked r)) := by
  rw [asked]
  cases r.command with
  | play f => exact (h.play r.refuses f).1
  | stop => exact h.stop r.refuses

theorem Fated.obeyAll (h : Fated b trace) (rs : List Request) :
    Fated (b.askedAll rs) (trace ++ b.attemptsFor rs) := by
  induction rs generalizing b trace with
  | nil =>
      rw [attemptsFor, List.append_nil]
      exact h
  | cons r rest ih =>
      rw [attemptsFor, ← List.append_assoc]
      exact ih (h.obey r)

theorem attemptsFor_append (b : Buzzer) (rs : List Request) (r : Request) :
    b.attemptsFor (rs ++ [r])
      = b.attemptsFor rs ++ attempts r.refuses ((b.askedAll rs).asked r) := by
  induction rs generalizing b with
  | nil => exact List.append_nil _
  | cons first rest ih =>
      rw [List.cons_append, attemptsFor, ih, ← List.append_assoc]
      rfl

/-! ## Everything together -/

/-- **WHAT REFUSALS LEAVE BEHIND.**  A fresh buzzer is asked for tones and for silence, and the
    device refuses any calls, others each time.  After every request:

    * if it did not fail, a request for a tone leaves a player held whose tone has the value that
      was asked for, and a request for silence leaves none held;
    * the player that is held was created, got the source of its tone queued and played, and has
      not been deleted; it was told to play last, unless its pause or its deletion was refused;
    * of the other players, just those have been deleted that ever played: only a player whose
      start was cut short after its creation stays. -/
theorem refusals_are_contained (rs : List Request) (r : Request) :
    let o := (silent.askedAll rs).asked r
    let trace := silent.attemptsFor (rs ++ [r])
    (o.failure = none →
      (∀ f, r.command = .play f → ∃ p g, o.state.player = some p ∧ o.state.frequency = some g ∧
        g.value = f.value) ∧
      (r.command = .stop → o.state.player = none)) ∧
    (∀ p, o.state.player = some p → ∃ g, o.state.frequency = some g ∧
      (⟨.create p, true⟩ ∈ trace ∧ ⟨.queue p g, true⟩ ∈ trace ∧ ⟨.play p true, true⟩ ∈ trace) ∧
      ⟨.delete p, true⟩ ∉ trace ∧
      ((transports p trace).getLast? = some ⟨.play p true, true⟩ ∨
        ⟨.pause p, false⟩ ∈ trace ∨ ⟨.delete p, false⟩ ∈ trace)) ∧
    ∀ p, o.state.player ≠ some p →
      (⟨.delete p, true⟩ ∈ trace ↔ ⟨.play p true, true⟩ ∈ trace) := by
  intro o trace
  have hbefore : Fated (silent.askedAll rs) (silent.attemptsFor rs) := fated_silent.obeyAll rs
  have h : Fated o.state trace := by
    rw [show trace = _ from attemptsFor_append silent rs r]
    exact hbefore.obey r
  refine ⟨fun hdone => ⟨fun f hcommand => ?_, fun hcommand => ?_⟩, fun p hp => ?_, fun p hp => ?_⟩
  · have ho : o = (silent.askedAll rs).play r.refuses f := by
      rw [show o = (silent.askedAll rs).obey r.refuses r.command from rfl, hcommand]
      rfl
    rw [ho] at hdone ⊢
    exact (hbefore.play r.refuses f).2 hdone
  · have ho : o = (silent.askedAll rs).stop r.refuses := by
      rw [show o = (silent.askedAll rs).obey r.refuses r.command from rfl, hcommand]
      rfl
    rw [ho] at hdone ⊢
    cases hp : (silent.askedAll rs).player with
    | none =>
        rw [(stop_silent hp r.refuses).2.1]
        exact hp
    | some p =>
        rcases stop_cases hp r.refuses with ⟨⟨_, hrefused⟩, _⟩ | ⟨_, hstate, _⟩
        · exact absurd (hrefused.symm.trans hdone) (Option.some_ne_none _)
        · rw [hstate]
          rfl
  · obtain ⟨_, g, hf, hsounding⟩ := h.held p hp
    have hbegun {a : Attempt} (ha : a ∈ begun p g) (hplayer : a.call.player? = some p) :
        a ∈ trace := (mem_attemptsOn hplayer).1 (hsounding.begun_subset ha)
    refine ⟨g, hf, ⟨?_, ?_, ?_⟩, ?_, ?_⟩
    · exact hbegun (by simp [begun]) rfl
    · exact hbegun (by simp [begun]) rfl
    · exact hbegun (by simp [begun]) rfl
    · exact fun hdeleted => hsounding.not_deleted ((mem_attemptsOn rfl).2 hdeleted)
    · refine hsounding.transports_cases.imp id (Or.imp ?_ ?_)
      · exact (mem_attemptsOn rfl).1
      · exact (mem_attemptsOn rfl).1
  · refine (mem_attemptsOn (p := p) rfl).symm.trans (Iff.trans ?_ (mem_attemptsOn rfl))
    rcases h.ended p hp with hnone | hover
    · rw [hnone]
      exact iff_of_false List.not_mem_nil List.not_mem_nil
    · exact hover.deleted_iff

/-- A device that refuses the calls with a name. -/
def refusing (name : String) (call : DeviceCall) : Bool := call.name == name

/-- A source was refused to the first player and a deletion to the second: another tone is left to
    the third, the second is deleted, and the first never is. -/
theorem tone_after_refusals :
    let rs : List Request := [⟨.play (.whole 440), refusing "source"⟩,
      ⟨.play (.whole 440), willing⟩, ⟨.stop, refusing "delete"⟩]
    let r : Request := ⟨.play (.whole 880), willing⟩
    let trace := silent.attemptsFor (rs ++ [r])
    let o := (silent.askedAll rs).asked r
    o.failure = none ∧ o.state.player = some 3 ∧
      (∃ p g, o.state.player = some p ∧ o.state.frequency = some g ∧
        g.value = (Quantity.whole 880).value) ∧
      ⟨.play 3 true, true⟩ ∈ trace ∧ ⟨.delete 2, true⟩ ∈ trace ∧ ⟨.delete 1, true⟩ ∉ trace := by
  intro rs r trace o
  obtain ⟨hreturned, hheld, hothers⟩ := refusals_are_contained rs r
  have hdone : o.failure = none := rfl
  have hplayer : ((silent.askedAll rs).asked r).state.player = some 3 := rfl
  have htrace : trace = [⟨.create 1, true⟩, ⟨.source (.whole 440), false⟩, ⟨.create 2, true⟩,
      ⟨.source (.whole 440), true⟩, ⟨.queue 2 (.whole 440), true⟩, ⟨.play 2 true, true⟩,
      ⟨.pause 2, true⟩, ⟨.delete 2, false⟩, ⟨.pause 2, true⟩, ⟨.delete 2, true⟩,
      ⟨.create 3, true⟩, ⟨.source (.whole 880), true⟩, ⟨.queue 3 (.whole 880), true⟩,
      ⟨.play 3 true, true⟩] := rfl
  obtain ⟨g, _, ⟨_, _, hplays⟩, _⟩ := hheld 3 hplayer
  refine ⟨hdone, hplayer, (hreturned hdone).1 (.whole 880) rfl, hplays, (hothers 2 ?_).2 ?_,
    fun hdeleted => ?_⟩
  · rw [hplayer]
    decide
  · rw [show silent.attemptsFor (rs ++ [r]) = _ from htrace]
    simp
  · have hplayed := (hothers 1 (by rw [hplayer]; decide)).1 hdeleted
    rw [show silent.attemptsFor (rs ++ [r]) = _ from htrace] at hplayed
    simp at hplayed

/-- A tone is asked for again after its deletion was refused: nothing is called, although the
    player was paused last.  And a player is left behind by silence after its source was
    refused. -/
theorem refusals_leave_players :
    let stopped : List Request := [⟨.play (.whole 440), willing⟩, ⟨.stop, refusing "delete"⟩]
    let again : Request := ⟨.play (.whole 440), willing⟩
    let cut : List Request := [⟨.play (.whole 440), refusing "source"⟩]
    let silence : Request := ⟨.stop, willing⟩
    (((silent.askedAll stopped).asked again).failure = none ∧
      ((silent.askedAll stopped).asked again).state.player = some 1 ∧
      (transports 1 (silent.attemptsFor (stopped ++ [again]))).getLast?
        = some ⟨.pause 1, true⟩) ∧
    ((silent.askedAll cut).asked silence).failure = none ∧
      ((silent.askedAll cut).asked silence).state.player = none ∧
      ⟨.create 1, true⟩ ∈ silent.attemptsFor (cut ++ [silence]) ∧
      ⟨.delete 1, true⟩ ∉ silent.attemptsFor (cut ++ [silence]) := by
  intro stopped again cut silence
  have htrace : silent.attemptsFor (cut ++ [silence])
      = [⟨.create 1, true⟩, ⟨.source (.whole 440), false⟩] := rfl
  refine ⟨⟨rfl, rfl, rfl⟩, rfl, rfl, ?_, ?_⟩
  · rw [htrace]
    exact List.mem_cons_self
  · rw [htrace]
    simp

end Buzzer

end Chip8
