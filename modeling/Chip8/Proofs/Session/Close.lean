import Chip8.Proofs.Console.Halt
import Chip8.Proofs.Console.Rest
import Chip8.Proofs.Session.Picture

/-! # Closing is final

    A session that has been closed is **`Shut`**: nothing is called back any more, and the
    buzzer is silent.  What an event does about that is in **`Finishes`**: it raises no
    complaint of the emulator, for a frame that meets one closes the session; what it closes,
    it shuts; and of a closed session it leaves the machine at rest.

    This holds of each kind of event, and of a sequence if it holds of its parts, so it holds
    of every run (**`finishes_handled`**). -/

namespace Chip8.Session

variable {s : Session} {o o' : Result}

/-! ## Complaints -/

def Report.complaint? : Report → Option Complaint
  | .entry e => e.complaint?
  | .call _  => none

/-- The complaints that reports tell of. -/
def complaints (reports : List Report) : List Complaint := reports.filterMap Report.complaint?

theorem complaints_append (rs rs' : List Report) :
    complaints (rs ++ rs') = complaints rs ++ complaints rs' :=
  List.filterMap_append ..

/-- A complaint that ends a session is seen at every level of the log. -/
theorem complaints_seen (level : Log.Level) (e : Log.Entry) :
    complaints (seen level e) = e.complaint?.toList := by
  cases e with
  | failed c => cases level <;> rfl
  | _ =>
      rw [seen]
      split <;> rfl

theorem complaints_onConsole (s : Session) (f : Console → Console.Result) :
    complaints (s.onConsole f).reports = Console.complaints (f s.console).reports := by
  show complaints ((f s.console).reports.flatMap (reportOf s.level)) = _
  induction (f s.console).reports with
  | nil => rfl
  | cons r rest ih =>
      rw [List.flatMap_cons, complaints_append, ih]
      cases r with
      | entry e =>
          rw [reportOf, complaints_seen, Console.complaints, Console.complaints,
            List.filterMap_cons, Console.Report.complaint?]
          cases e.complaint? <;> rfl
      | call c => rfl
      | command c => rfl
      | observed name e => rfl

/-! ## Closing -/

/-- Closed, with no callback left and the buzzer silent. -/
structure Shut (s : Session) : Prop where
  closed : s.closed = true
  unscheduled : s.scheduled = []
  silent : s.console.buzzer.playing = false

/-- **CLOSING SUCCEEDS.** -/
theorem close_eq (s : Session) :
    s.close = ⟨{ s with console := s.console.silence.state, scheduled := [], closed := true },
      [.call (.unschedule .frame), .call (.unschedule .statistics)]
        ++ ((s.onConsole Console.silence).reports ++ [.call .closed]), none⟩ := by
  have hsilence : ({ s with scheduled := [] }.onConsole Console.silence).failure = none := by
    show s.console.silence.failure = none
    rw [Console.silence_eq]
  simp only [close, Outcome.andThen, hsilence]
  rfl

theorem shut_close (s : Session) : s.close.state.Shut := by
  rw [close_eq]
  exact ⟨rfl, rfl, Console.playing_silence s.console⟩

theorem rested_close (s : Session) :
    s.console.machine.Rested s.close.state.console.machine := by
  rw [close_eq]
  show s.console.machine.Rested s.console.silence.state.machine
  rw [Console.silence_eq]
  exact .refl _

theorem complaints_close (s : Session) : complaints s.close.reports = [] := by
  rw [close_eq]
  simp only [complaints_append, complaints_onConsole, Console.complaints_silence]
  rfl

/-! ## What events do about it -/

/-- What becomes of a session in which the emulator may complain once, and is closed for it. -/
structure Finishes (s : Session) (o : Result) : Prop where
  handled : ∀ c, o.failure ≠ some (.complaint c)
  stays : s.closed = true → o.state.closed = true
  shut : (s.closed = true → s.Shut) → o.state.closed = true → o.state.Shut
  rested : s.closed = true → s.console.machine.Rested o.state.console.machine
  once : (complaints o.reports).length ≤ 1
  told : complaints o.reports ≠ [] → s.closed = false ∧ o.state.closed = true

theorem Finishes.next (h : Finishes s o) (h' : Finishes o.state o') :
    Finishes s (o'.after o.reports) where
  handled := h'.handled
  stays := fun hclosed => h'.stays (h.stays hclosed)
  shut := fun hs => h'.shut (h.shut hs)
  rested := fun hclosed => (h.rested hclosed).trans (h'.rested (h.stays hclosed))
  once := by
    show (complaints (o.reports ++ o'.reports)).length ≤ 1
    rw [complaints_append]
    by_cases hfirst : complaints o.reports = []
    · rw [hfirst]
      exact h'.once
    · have hlater : complaints o'.reports = [] := by
        by_contra hnew
        exact nomatch (h.told hfirst).2.symm.trans (h'.told hnew).1
      rw [hlater, List.append_nil]
      exact h.once
  told := by
    intro htold
    have htold : complaints (o.reports ++ o'.reports) ≠ [] := htold
    rw [complaints_append] at htold
    by_cases hfirst : complaints o.reports = []
    · rw [hfirst] at htold
      obtain ⟨hopen, hclosed⟩ := h'.told htold
      refine ⟨?_, hclosed⟩
      cases hs : s.closed with
      | false => rfl
      | true => exact nomatch (h.stays hs).symm.trans hopen
    · obtain ⟨hopen, hclosed⟩ := h.told hfirst
      exact ⟨hopen, h'.stays hclosed⟩

/-- What keeps the window, the callbacks and the buzzer, and leaves the machine at rest. -/
theorem finishes_of_rested (hfail : ∀ c, o.failure ≠ some (.complaint c))
    (hclosed : o.state.closed = s.closed) (hscheduled : o.state.scheduled = s.scheduled)
    (hbuzzer : o.state.console.buzzer = s.console.buzzer)
    (hrested : s.console.machine.Rested o.state.console.machine)
    (hnone : complaints o.reports = []) : Finishes s o where
  handled := hfail
  stays := fun hs => hclosed.trans hs
  shut := by
    intro hs ho
    obtain ⟨_, hunscheduled, hsilent⟩ := hs (hclosed.symm.trans ho)
    exact ⟨ho, hscheduled.trans hunscheduled, hbuzzer ▸ hsilent⟩
  rested := fun _ => hrested
  once := by
    rw [hnone]
    exact Nat.zero_le 1
  told := fun hne => absurd hnone hne

theorem finishes_done (s : Session) : Finishes s (.done s) :=
  finishes_of_rested none_ne_complaint rfl rfl rfl (.refl _) rfl

theorem finishes_close (s : Session) : Finishes s s.close where
  handled := by
    rw [close_eq]
    exact none_ne_complaint
  stays := fun _ => (shut_close s).closed
  shut := fun _ _ => shut_close s
  rested := fun _ => rested_close s
  once := by
    rw [complaints_close]
    exact Nat.zero_le 1
  told := fun hne => absurd (complaints_close s) hne

theorem closing_calls (s : Session) {call : HostCall}
    (hcall : call ∈ [HostCall.unschedule .frame, .unschedule .statistics, .closed]) :
    call ∈ hostCalls s.close.reports := by
  rw [close_eq]
  simp only [hostCalls_append]
  rcases List.mem_cons.1 hcall with rfl | hrest
  · exact List.mem_append_left _ List.mem_cons_self
  rcases List.mem_pair.1 hrest with rfl | rfl
  · exact List.mem_append_left _ (List.mem_cons_of_mem _ List.mem_cons_self)
  · exact List.mem_append_right _ (List.mem_append_right _ List.mem_cons_self)

/-- **A COMPLAINT CLOSES THE SESSION** within the frame that meets it. -/
theorem ended_shut (s : Session) (c : Complaint) :
    (s.ended c).failure = none ∧ (s.ended c).state.Shut ∧ complaints (s.ended c).reports = [c] ∧
    ∀ call ∈ [HostCall.unschedule .frame, .unschedule .statistics, .closed],
      call ∈ hostCalls (s.ended c).reports := by
  have hreports : (s.ended c).reports = (s.onConsole Console.cycle).reports
      ++ (seen s.level (.failed c) ++ (s.onConsole Console.cycle).state.close.reports) := rfl
  refine ⟨?_, shut_close _, ?_, ?_⟩
  · show (s.onConsole Console.cycle).state.close.failure = none
    rw [close_eq]
  · rw [hreports, complaints_append, complaints_append, complaints_onConsole,
      Console.complaints_cycle, complaints_seen, complaints_close]
    rfl
  · intro call hcall
    rw [hreports, hostCalls_append, hostCalls_append]
    exact List.mem_append_right _ (List.mem_append_right _ (closing_calls _ hcall))

theorem finishes_frame (s : Session) : Finishes s s.frame := by
  rcases s.frame_cases with ⟨_, hframe⟩ | ⟨hopen, c, _, hframe⟩ | ⟨hopen, hgood, hframe⟩
  · rw [hframe]
    exact finishes_done s
  · obtain ⟨hnone, hshut, hcomplaint, _⟩ := ended_shut s c
    rw [hframe]
    exact {
      handled := by
        rw [hnone]
        exact none_ne_complaint
      stays := fun _ => hshut.closed
      shut := fun _ _ => hshut
      rested := fun hclosed => nomatch hopen.symm.trans hclosed
      once := by
        rw [hcomplaint]
        exact Nat.le_refl 1
      told := fun _ => ⟨hopen, hshut.closed⟩ }
  · have hstill : (s.onConsole Console.cycle).state.closed = false := hopen
    have hnone : complaints (s.onConsole Console.cycle).reports = [] := by
      rw [complaints_onConsole]
      exact Console.complaints_cycle s.console
    rw [hframe]
    exact {
      handled := hgood
      stays := fun hclosed => nomatch hopen.symm.trans hclosed
      shut := fun _ hclosed => nomatch hstill.symm.trans hclosed
      rested := fun hclosed => nomatch hopen.symm.trans hclosed
      once := by
        rw [hnone]
        exact Nat.zero_le 1
      told := fun hne => absurd hnone hne }

theorem finishes_keys (s : Session) (call : Console.KeyCall) :
    Finishes s (s.onConsole (·.performKeys call)) := by
  have hcalm := Console.calm_performKeys s.console call
  refine finishes_of_rested hcalm.failure rfl rfl hcalm.buzzer hcalm.machine ?_
  rw [complaints_onConsole]
  exact hcalm.uncomplaining

theorem finishes_refresh (s : Session) : Finishes s s.refresh := by
  rw [refresh]
  split
  · split
    · refine finishes_of_rested (fun c hfail => ?_) rfl rfl rfl (.refl _) rfl
      cases hfail
    · exact finishes_of_rested none_ne_complaint rfl rfl rfl
        { Machine.Rested.refl s.console.machine with } rfl
  · exact finishes_done s

theorem finishes_draw (s : Session) : Finishes s s.draw := by
  have hwipe : Finishes s ⟨s, [.call .wipe], none⟩ :=
    finishes_of_rested none_ne_complaint rfl rfl rfl (.refl _) rfl
  refine hwipe.next ?_
  rw [Outcome.andThen]
  split
  · exact finishes_refresh s
  · refine (finishes_refresh s).next ?_
    refine finishes_of_rested none_ne_complaint rfl rfl rfl (.refl _) ?_
    simp only
    split <;> rfl

theorem lifts_finishes : Lifts (fun s => s.closed = true → s.Shut) Finishes where
  kept := fun hs hfinishes => hfinishes.shut hs
  still := fun _ => finishes_done _
  next := fun hfinishes hrest => hfinishes.next hrest
  frame := fun _ => finishes_frame _
  measure := by
    intro s _
    rw [measure]
    split
    · exact finishes_done s
    · exact finishes_of_rested none_ne_complaint rfl rfl rfl (.refl _) rfl
  clock := fun _ _ =>
    finishes_of_rested none_ne_complaint rfl rfl rfl (.refl _) rfl
  trace := by
    intro s _
    refine finishes_of_rested none_ne_complaint rfl rfl rfl (.refl _) ?_
    exact complaints_seen _ _
  keys := fun call _ => finishes_keys _ call
  close := fun _ => finishes_close _

theorem finishes_handle (hs : s.closed = true → s.Shut) (e : HostEvent) :
    Finishes s (s.handle e) :=
  lifts_finishes.handle hs fun _ => finishes_draw s

/-! ## Runs -/

/-- The session after events. -/
def handled (s : Session) (events : List HostEvent) : Session :=
  events.foldl (fun s e => (s.handle e).state) s

def handledReports (s : Session) : List HostEvent → List Report
  | []      => []
  | e :: es => (s.handle e).reports ++ (s.handle e).state.handledReports es

theorem finishes_handled (hs : s.closed = true → s.Shut) (events : List HostEvent) :
    Finishes s ⟨s.handled events, s.handledReports events, none⟩ := by
  induction events generalizing s with
  | nil => exact finishes_done s
  | cons e rest ih =>
      have hfirst := finishes_handle hs e
      exact hfirst.next (ih (hfirst.shut hs))

/-- **CLOSING IS FINAL, AND A FAULT CLOSES.**  Of a session that is open, after any events:

    * no event raises a complaint of the emulator;
    * a frame that meets one leaves the session shut: both callbacks are unscheduled, the
      buzzer falls silent and the window is closed before the frame is over, and the
      complaint is reported once;
    * so does whatever event tells of a complaint, and so do closing the window and the key
      that closes it;
    * once the session is closed it is shut, and whatever follows leaves it so and the machine
      at rest: no frame is run any more;
    * at most one complaint is reported altogether. -/
theorem closing_is_final (h : s.closed = false) (events : List HostEvent) :
    let d := s.handled events
    (∀ e c, (d.handle e).failure ≠ some (.complaint c)) ∧
    (∀ c, d.closed = false → d.console.cycle.failure = some (.complaint c) →
      let o := d.handle (.callback .frame)
      o.failure = none ∧ o.state.Shut ∧ complaints o.reports = [c] ∧
        ∀ call ∈ [HostCall.unschedule .frame, .unschedule .statistics, .closed],
          call ∈ hostCalls o.reports) ∧
    (∀ e, complaints (d.handle e).reports ≠ [] ∨ e = .close ∨ e = .press closeKey →
      (d.handle e).state.Shut) ∧
    (d.closed = true → ∀ later, (d.handled later).Shut ∧
      d.console.machine.Rested (d.handled later).console.machine) ∧
    (complaints (s.handledReports events)).length ≤ 1 := by
  intro d
  have hs : s.closed = true → s.Shut := fun hclosed => nomatch h.symm.trans hclosed
  have hrun := finishes_handled hs events
  have hd : d.closed = true → d.Shut := hrun.shut hs
  refine ⟨fun e => (finishes_handle hd e).handled, ?_, ?_, ?_, hrun.once⟩
  · intro c hopen hfault o
    have ho : o = d.ended c := by
      rcases d.frame_cases with ⟨hclosed, _⟩ | ⟨_, c', hc', hframe⟩ | ⟨_, hgood, _⟩
      · exact nomatch hopen.symm.trans hclosed
      · obtain rfl : c' = c := Failure.complaint.inj (Option.some.inj (hc'.symm.trans hfault))
        exact hframe
      · exact absurd hfault (hgood c)
    rw [ho]
    exact ended_shut d c
  · rintro e (htold | rfl | rfl)
    · have hfinishes := finishes_handle hd e
      exact hfinishes.shut hd (hfinishes.told htold).2
    · exact shut_close d
    · exact shut_close d
  · intro hclosed later
    have hlater := finishes_handled hd later
    exact ⟨hlater.shut hd (hlater.stays hclosed), hlater.rested hclosed⟩

/-- A program that begins with a word that is no instruction closes its session in the first
    frame, and no later one is run. -/
theorem closed_by_unknown_word :
    let console := (Console.fresh 1 440 (.cycling [])).run [.load [0xFF, 0xFF]]
    let settings := { Settings.standard with scale := 1 }
    let frame := [HostEvent.callback .frame]
    ∃ s opening, create .boundless console settings .info (.finite 0) = .ok (s, opening) ∧
      s.closed = false ∧ (s.handled frame).Shut ∧
      (complaints (s.handledReports frame)).length = 1 ∧
      let late := (s.handled frame).handled [.callback .frame, .press "_1", .tick, .close]
      late.Shut ∧ late.console.machine.cycles = (s.handled frame).console.machine.cycles := by
  intro console settings frame
  have hfresh := Machine.wellFormed_fresh 1 440 (.cycling [])
  obtain ⟨f, hfault⟩ := Console.cycle_failure_of_unknown (c := Console.fresh 1 440 (.cycling []))
    [0xFF, 0xFF] hfresh rfl rfl rfl (by decide) (by decide) (by decide)
  have hinterval : settings.interval.isOk = true := by decide +kernel
  have hroom : console.machine.screen.roomFor .boundless settings.scale = .ok () := rfl
  obtain ⟨s, opening, hs⟩ := exists_create console hroom hinterval .info (.finite 0)
  obtain ⟨hconsole, _, _, hopen, _⟩ := of_create hs
  have hfails : s.console.cycle.failure = some (.fault f) := by
    rw [hconsole]
    exact hfault
  obtain ⟨_, hfaults, _⟩ := closing_is_final hopen []
  obtain ⟨_, hshut, hcomplaint, _⟩ := hfaults _ hopen hfails
  obtain ⟨_, _, _, hfinal, _⟩ := closing_is_final hopen frame
  obtain ⟨hlate, hrested⟩ := hfinal hshut.closed [.callback .frame, .press "_1", .tick, .close]
  refine ⟨s, opening, hs, hopen, hshut, ?_, hlate, hrested.cycles⟩
  have hreports : s.handledReports frame = (s.handle (.callback .frame)).reports :=
    List.append_nil _
  rw [hreports]
  exact congrArg List.length hcomplaint

end Chip8.Session
