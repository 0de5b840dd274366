import Chip8.Proofs.Buzzer.Refusals

/-! # What the buzzer holds when calls are refused

    The buzzer writes down a player and its tone, or that there is none, after the last call of a
    start or a stop.  So a request whose calls are refused somewhere leaves both as they were, or
    neither (**`start_refusal`**, **`stop_refusal`**, **`play_refusal`**), and what is held was
    started in full (**`Paired`**, kept by every request: **`Paired.asked`**).

    A player that could not be stopped is not forgotten: it stays held until it has been paused
    and deleted (**`kept_or_ended`**). -/

namespace Chip8

/-- Whether a call queues a source. -/
def DeviceCall.isQueue : DeviceCall → Bool
  | .queue _ _ => true
  | _          => false

namespace Buzzer

variable {b : Buzzer} {f : Quantity} {p : Nat} {trace t : List Attempt} {call : DeviceCall}
  {refuses : DeviceCall → Bool}

/-- Calls all of which were carried out. -/
def carriedOut (cs : List DeviceCall) : List Attempt := cs.map fun call => ⟨call, true⟩

/-- What was queued on a player, and whether it was accepted. -/
def queuedOn (p : Nat) (trace : List Attempt) : List Attempt :=
  (attemptsOn p trace).filter fun a => a.call.isQueue

theorem tried_of_none_refused {cs : List DeviceCall} (h : cs.find? refuses = none) :
    tried refuses cs = carriedOut cs := by
  induction cs with
  | nil => rfl
  | cons call rest ih =>
      obtain ⟨hcall, hrest⟩ := List.forall_mem_cons.1 (List.find?_eq_none.1 h)
      rw [tried, if_neg hcall, ih (List.find?_eq_none.2 hrest)]
      rfl

/-- Only the source that the player was started with is ever queued on it. -/
theorem Sounding.queued (h : Sounding p f t) :
    t.filter (fun a => a.call.isQueue) = [⟨.queue p f, true⟩] := by
  induction h with
  | started => rfl
  | unpaused _ ih =>
      rw [List.filter_append, ih]
      rfl
  | undeleted _ ih =>
      rw [List.filter_append, ih]
      rfl

/-! ## Where a request was refused -/

/-- A start that is refused ends at one of its calls, and nothing is held. -/
theorem start_refusal (hp : b.player = none) (hf : b.frequency = none)
    (h : (b.start refuses f).failure = some (.refused call)) :
    call ∈ startCalls (b.created + 1) f ∧
      (b.start refuses f).state.player = none ∧ (b.start refuses f).state.frequency = none := by
  cases hfind : (startCalls (b.created + 1) f).find? refuses with
  | none => exact absurd (h.symm.trans (start_accepted hfind).1) (Option.some_ne_none _)
  | some refused =>
      obtain ⟨hfailure, hstate⟩ := start_refused hfind
      obtain rfl : refused = call := Error.refused.inj (Option.some.inj (hfailure.symm.trans h))
      rw [hstate]
      exact ⟨List.mem_of_find?_eq_some hfind, hp, hf⟩

theorem failure_stop (hp : b.player = some p) (refuses : DeviceCall → Bool) :
    (b.stop refuses).failure = ((stopCalls p).find? refuses).map .refused := by
  rw [← (issue_eq refuses (stopCalls p)).2, stop, hp]
  dsimp only [Outcome.after]
  rcases issue refuses (stopCalls p) with ⟨made, _ | refusal⟩
  · rfl
  · rfl

/-- A stop that is refused ends at one of its calls, and leaves the buzzer as it was. -/
theorem stop_refusal (h : (b.stop refuses).failure = some (.refused call)) :
    (b.stop refuses).state = b ∧ ∃ p, b.player = some p ∧ call ∈ stopCalls p := by
  cases hp : b.player with
  | none => exact nomatch (stop_silent hp refuses).1.symm.trans h
  | some p =>
      obtain ⟨refused, hfind, hsame⟩ :=
        Option.map_eq_some_iff.1 ((failure_stop hp refuses).symm.trans h)
      obtain rfl : refused = call := Error.refused.inj hsame
      rcases stop_cases hp refuses with ⟨_, hstate, _⟩ | ⟨hok, _⟩
      · exact ⟨hstate, p, rfl, List.mem_of_find?_eq_some hfind⟩
      · exact nomatch hok.symm.trans h

/-- A tone that is refused is refused where the old one is stopped, or where it is started. -/
theorem play_refusal (htogether : b.player = none → b.frequency = none)
    (h : (b.play refuses f).failure = some (.refused call)) :
    (∃ p, b.player = some p ∧ call ∈ stopCalls p ∧ (b.play refuses f).state = b) ∨
    (call ∈ startCalls (b.created + 1) f ∧ (b.play refuses f).state.player = none ∧
      (b.play refuses f).state.frequency = none) := by
  cases hp : b.player with
  | none =>
      obtain ⟨hfailure, hstate, _⟩ := play_silent hp refuses f
      rw [hstate]
      exact Or.inr (start_refusal hp (htogether hp) (hfailure.symm.trans h))
  | some p =>
      rcases play_cases hp refuses f with
        ⟨_, hok, _, _⟩ | ⟨_, hfailure, hstate, _⟩ | ⟨_, hfailure, hstate, _⟩
      · exact nomatch hok.symm.trans h
      · obtain ⟨hsame, q, hq, hmem⟩ := stop_refusal (hfailure.symm.trans h)
        obtain rfl : p = q := Option.some.inj (hp.symm.trans hq)
        exact Or.inl ⟨p, rfl, hmem, hstate.trans hsame⟩
      · rw [hstate]
        exact Or.inr (start_refusal (b := b.stopped) rfl rfl (hfailure.symm.trans h))

/-! ## The invariant -/

/-- A tone is held with its player only, and the player was started with it in full. -/
structure Paired (b : Buzzer) (trace : List Attempt) : Prop where
  together : b.player = none → b.frequency = none
  started : ∀ p f, b.player = some p → b.frequency = some f →
    carriedOut (startCalls p f) <:+: trace

theorem paired_silent : Paired silent [] := ⟨fun _ => rfl, fun _ _ hp => nomatch hp⟩

theorem Paired.append (h : Paired b trace) (t : List Attempt) : Paired b (trace ++ t) where
  together := h.together
  started p f hp hf := (h.started p f hp hf).trans (List.infix_append' [] trace t)

theorem paired_start (hp : b.player = none) (hf : b.frequency = none)
    (refuses : DeviceCall → Bool) (f : Quantity) (trace : List Attempt) :
    Paired (b.start refuses f).state (trace ++ attempts refuses (b.start refuses f)) := by
  rw [attempts_start]
  cases hfind : (startCalls (b.created + 1) f).find? refuses with
  | some call =>
      rw [(start_refused hfind).2]
      exact ⟨fun _ => hf, fun q _ hq => nomatch hp.symm.trans hq⟩
  | none =>
      rw [(start_accepted hfind).2, tried_of_none_refused hfind]
      refine ⟨fun hnone => (nomatch hnone), fun q g hq hg => ?_⟩
      obtain rfl : b.created + 1 = q := Option.some.inj hq
      obtain rfl : f = g := Option.some.inj hg
      exact (List.suffix_append trace _).isInfix

theorem Paired.stop (h : Paired b trace) (refuses : DeviceCall → Bool) :
    Paired (b.stop refuses).state (trace ++ attempts refuses (b.stop refuses)) := by
  cases hp : b.player with
  | none =>
      rw [(stop_silent hp refuses).2.1]
      exact h.append _
  | some p =>
      rcases stop_cases hp refuses with ⟨_, hstate, _⟩ | ⟨_, hstate, _⟩
      · rw [hstate]
        exact h.append _
      · rw [hstate]
        exact ⟨fun _ => rfl, fun _ _ hq => nomatch hq⟩

theorem Paired.play (h : Paired b trace) (refuses : DeviceCall → Bool) (f : Quantity) :
    Paired (b.play refuses f).state (trace ++ attempts refuses (b.play refuses f)) := by
  cases hp : b.player with
  | none =>
      obtain ⟨_, hstate, ht⟩ := play_silent hp refuses f
      rw [hstate, ht]
      exact paired_start hp (h.together hp) refuses f trace
  | some p =>
      rcases play_cases hp refuses f with
        ⟨_, _, hstate, _⟩ | ⟨_, _, hstate, ht⟩ | ⟨_, _, hstate, ht⟩
      · rw [hstate]
        exact h.append _
      · rw [hstate, ht]
        exact h.stop refuses
      · rw [hstate, ht, ← List.append_assoc]
        exact paired_start (b := b.stopped) rfl rfl refuses f _

/-- **A REQUEST KEEPS PLAYER AND TONE TOGETHER**, whichever calls are refused. -/
theorem Paired.asked (h : Paired b trace) (r : Request) :
    Paired (b.asked r).state (trace ++ attempts r.refuses (b.asked r)) := by
  rw [Buzzer.asked]
  cases r.command with
  | play f => exact h.play r.refuses f
  | stop => exact h.stop r.refuses

theorem Paired.askedAll (h : Paired b trace) (rs : List Request) :
    Paired (b.askedAll rs) (trace ++ b.attemptsFor rs) := by
  induction rs generalizing b trace with
  | nil =>
      rw [attemptsFor, List.append_nil]
      exact h
  | cons r rest ih =>
      rw [attemptsFor, ← List.append_assoc]
      exact ih (h.asked r)

/-! ## Until a player is ended -/

/-- A request leaves a buzzer that holds a player as it was, or begins with pausing and deleting
    that player. -/
theorem same_or_ended (hp : b.player = some p) (r : Request) :
    (b.asked r).state = b ∨ carriedOut (stopCalls p) <+: attempts r.refuses (b.asked r) := by
  rw [asked]
  cases r.command with
  | stop =>
      rcases stop_cases hp r.refuses with ⟨_, hstate, _⟩ | ⟨_, _, ht⟩
      · exact Or.inl hstate
      · exact Or.inr (ht ▸ List.prefix_rfl)
  | play f =>
      rcases play_cases hp r.refuses f with
        ⟨_, _, hstate, _⟩ | ⟨⟨_, hrefused⟩, _, hstate, _⟩ | ⟨hok, _, _, ht⟩
      · exact Or.inl hstate
      · exact Or.inl (hstate.trans (stop_refusal hrefused).1)
      · rcases stop_cases hp r.refuses with ⟨⟨_, hrefused⟩, _⟩ | ⟨_, _, hended⟩
        · exact absurd (hrefused.symm.trans hok) (Option.some_ne_none _)
        · refine Or.inr ?_
          show _ <+: attempts r.refuses (b.play r.refuses f)
          rw [ht, hended]
          exact List.prefix_append _ _

/-- **A PLAYER IS HELD UNTIL IT HAS BEEN PAUSED AND DELETED.** -/
theorem kept_or_ended (hp : b.player = some p) (rs : List Request) :
    b.askedAll rs = b ∨ carriedOut (stopCalls p) <:+: b.attemptsFor rs := by
  induction rs with
  | nil => exact Or.inl rfl
  | cons r rest ih =>
      show (b.asked r).state.askedAll rest = b ∨
        _ <:+: attempts r.refuses (b.asked r) ++ (b.asked r).state.attemptsFor rest
      rcases same_or_ended hp r with hstate | hended
      · rw [hstate]
        refine ih.imp_right fun hlater => ?_
        exact hlater.trans (List.suffix_append _ _).isInfix
      · exact Or.inr (hended.isInfix.trans (List.prefix_append _ _).isInfix)

/-- On a device that refuses no pause and no deletion, silence comes. -/
theorem stop_unrefused (hstops : ∀ q, ∀ call ∈ stopCalls q, refuses call = false)
    (htogether : b.player = none → b.frequency = none) :
    (b.stop refuses).failure = none ∧ (b.stop refuses).state = b.stopped ∧
      attempts refuses (b.stop refuses)
        = carriedOut (b.player.toList.flatMap stopCalls) := by
  cases hp : b.player with
  | none =>
      obtain ⟨hok, hstate, ht⟩ := stop_silent hp refuses
      refine ⟨hok, ?_, ht⟩
      rw [hstate, stopped, ← hp, ← htogether hp]
  | some p =>
      have hnone : (stopCalls p).find? refuses = none :=
        List.find?_eq_none.2 fun call hmem => by simp [hstops p call hmem]
      have hok : (b.stop refuses).failure = none := by
        rw [failure_stop hp, hnone]
        rfl
      rcases stop_cases hp refuses with ⟨⟨_, hrefused⟩, _⟩ | ⟨_, hstate, ht⟩
      · exact absurd (hrefused.symm.trans hok) (Option.some_ne_none _)
      · exact ⟨hok, hstate, ht⟩

/-- The player that a buzzer holds has been paused and deleted by the end of a later stop on such a
    device, and by that stop itself if it was held until then. -/
theorem Paired.ended_by_stop (h : Paired b trace) (hp : b.player = some p) (later : List Request)
    (hstops : ∀ q, ∀ call ∈ stopCalls q, refuses call = false) :
    let b' := b.askedAll later
    let stop : Request := ⟨.stop, refuses⟩
    let o' := b'.asked stop
    (b'.player = some p → attempts refuses o' = carriedOut (stopCalls p)) ∧
    carriedOut (stopCalls p) <:+: b.attemptsFor (later ++ [stop]) ∧
    o'.failure = none ∧ o'.state.player = none ∧ o'.state.frequency = none := by
  intro b' stop o'
  obtain ⟨hok, hstate, ht⟩ := stop_unrefused hstops (h.askedAll later).together
  have hended (hp' : b'.player = some p) : attempts refuses o' = carriedOut (stopCalls p) := by
    rw [hp'] at ht
    exact ht
  refine ⟨hended, ?_, hok, congrArg Buzzer.player hstate, congrArg Buzzer.frequency hstate⟩
  rw [attemptsFor_append]
  rcases kept_or_ended hp later with hkept | hbefore
  · have hthere : b'.player = some p := (congrArg Buzzer.player hkept).trans hp
    rw [show attempts refuses o' = carriedOut (stopCalls p) from hended hthere]
    exact (List.suffix_append _ _).isInfix
  · exact hbefore.trans (List.prefix_append _ _).isInfix

/-! ## Everything together -/

/-- **PLAYER AND TONE ARE NEVER HALF CHANGED.**  A fresh buzzer is asked for tones and for silence,
    and the device refuses any calls, others each time.  Between requests:

    * either neither a player nor a tone is held, or a player is that was created, got the source
      of the tone queued and no other, and played, and that has not been deleted;
    * a request for silence that fails leaves the buzzer as it was.  By the end of any later one
      for which the device refuses no pause and no deletion, the same player has been paused and
      deleted, and nothing is held;
    * a request for a tone that is refused, at a call that stops the old tone, leaves the buzzer as
      it was, and at a call that starts the new one, leaves nothing held: never the new player. -/
theorem pair_is_never_half_changed (rs : List Request) (r : Request) :
    let b := silent.askedAll rs
    let trace := silent.attemptsFor rs
    let o := b.asked r
    ((b.player = none ∧ b.frequency = none) ∨
      ∃ p f, b.player = some p ∧ b.frequency = some f ∧
        carriedOut (startCalls p f) <:+: trace ∧ queuedOn p trace = [⟨.queue p f, true⟩] ∧
        ⟨.delete p, true⟩ ∉ trace) ∧
    (r.command = .stop → o.failure ≠ none → o.state = b ∧ ∃ p, b.player = some p ∧
      ∀ (later : List Request) (refuses : DeviceCall → Bool),
        (∀ q, ∀ call ∈ stopCalls q, refuses call = false) →
        let b' := o.state.askedAll later
        let stop : Request := ⟨.stop, refuses⟩
        let o' := b'.asked stop
        (b'.player = some p → attempts refuses o' = carriedOut (stopCalls p)) ∧
        carriedOut (stopCalls p) <:+: o.state.attemptsFor (later ++ [stop]) ∧
        o'.failure = none ∧ o'.state.player = none ∧ o'.state.frequency = none) ∧
    ∀ f, r.command = .play f → ∀ call, o.failure = some (.refused call) →
      ((∃ p, b.player = some p ∧ call ∈ stopCalls p ∧ o.state = b) ∨
        (call ∈ startCalls (b.created + 1) f ∧ o.state.player = none ∧
          o.state.frequency = none)) ∧
      o.state.player ≠ some (b.created + 1) := by
  intro b trace o
  have hfated : Fated b trace := fated_silent.obeyAll rs
  have hpaired : Paired b trace := paired_silent.askedAll rs
  refine ⟨?_, fun hcommand hfailed => ?_, fun f hcommand call hrefused => ?_⟩
  · cases hp : b.player with
    | none => exact Or.inl ⟨rfl, hpaired.together hp⟩
    | some p =>
        obtain ⟨_, f, hf, hsounding⟩ := hfated.held p hp
        refine Or.inr ⟨p, f, rfl, hf, hpaired.started p f hp hf, hsounding.queued, ?_⟩
        exact fun hdeleted => hsounding.not_deleted ((mem_attemptsOn rfl).2 hdeleted)
  · have ho : o = b.stop r.refuses := by
      rw [show o = b.obey r.refuses r.command from rfl, hcommand]
      rfl
    rw [ho] at hfailed ⊢
    cases hp : b.player with
    | none => exact absurd (stop_silent hp r.refuses).1 hfailed
    | some p =>
        rcases stop_cases hp r.refuses with ⟨_, hstate, _⟩ | ⟨hok, _⟩
        · rw [hstate]
          exact ⟨rfl, p, rfl, fun later _ hstops => hpaired.ended_by_stop hp later hstops⟩
        · exact absurd hok hfailed
  · have ho : o = b.play r.refuses f := by
      rw [show o = b.obey r.refuses r.command from rfl, hcommand]
      rfl
    rw [ho] at hrefused ⊢
    have hways := play_refusal hpaired.together hrefused
    refine ⟨hways, ?_⟩
    rcases hways with ⟨p, hp, _, hstate⟩ | ⟨_, hnone, _⟩
    · rw [hstate]
      intro hnew
      exact absurd (hfated.held _ hnew).1 (Nat.not_succ_le_self _)
    · rw [hnone]
      exact (Option.some_ne_none _).symm

/-- A tone cannot be stopped and is stopped by the next request for silence; another one cannot be
    started in its place, because its source is not queued. -/
theorem pair_after_refusals :
    let rs : List Request := [⟨.play (.whole 440), willing⟩]
    let b := silent.askedAll rs
    let vain : Request := ⟨.stop, refusing "delete"⟩
    let silence : Request := ⟨.stop, willing⟩
    let other : Request := ⟨.play (.whole 880), refusing "queue"⟩
    b.player = some 1 ∧ (b.asked vain).state = b ∧
      attempts willing (((b.asked vain).state).asked silence) = carriedOut (stopCalls 1) ∧
      (((b.asked vain).state).asked silence).state.player = none ∧
      (b.asked other).failure = some (.refused (.queue 2 (.whole 880))) ∧
      (b.asked other).state.player = none ∧ (b.asked other).state.frequency = none := by
  intro rs b vain silence other
  have hp : b.player = some 1 := rfl
  have hrefused : (b.asked other).failure = some (.refused (.queue 2 (.whole 880))) := rfl
  obtain ⟨_, hvain, _⟩ := pair_is_never_half_changed rs vain
  obtain ⟨_, _, hother⟩ := pair_is_never_half_changed rs other
  obtain ⟨hsame, p, hp', hlater⟩ := hvain rfl (Option.some_ne_none _)
  obtain rfl : 1 = p := Option.some.inj (hp.symm.trans hp')
  obtain ⟨hended, _, _, hnone, _⟩ := hlater [] willing fun _ _ _ => rfl
  obtain ⟨hways, _⟩ := hother (.whole 880) rfl _ hrefused
  refine ⟨hp, hsame, hended (hsame ▸ hp), hnone, hrefused, ?_⟩
  rcases hways with ⟨q, _, hmem, _⟩ | ⟨_, hsilent⟩
  · simp [stopCalls] at hmem
  · exact hsilent

end Buzzer

end Chip8
