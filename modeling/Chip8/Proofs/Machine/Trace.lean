import Chip8.Proofs.Machine.Fault
import Chip8.Proofs.Machine.Stride

/-! # The instruction trace

    An instruction is traced once it is decoded and before it is carried out.  So a step that
    completes leaves one line, and so does a step for which the stack is not fit; a word that is
    no instruction leaves none.

    **`Traced`** ties the lines to the machines that were stepped, to the count of instructions
    and to the faults.  It holds of batches (**`traced_batch`**), and of what is put together from
    parts of which it holds, as long as only the last has a fault (**`Traced.next`**). -/

namespace Chip8

/-! ## Addresses in hexadecimal -/

namespace Hex

/-- The capital digits. -/
def alphabet : List Char := "0123456789ABCDEF".toList

theorem digit_of_fin (d : Fin 16) : digit d = alphabet.getD d ' ' := by
  revert d
  decide

theorem paddedChars_of_lt {n : Nat} (hn : n < 4096) :
    paddedChars 3 n = [digit (n / 256), digit (n / 16 % 16), digit (n % 16)] := by
  have hsign : ¬ ((n : Int) < 0) := by omega
  have hzero : digit 0 = '0' := by decide
  have hbody : ∀ ds : List Char, digits n = ds → paddedChars 3 n
      = List.replicate (3 - ds.length) '0' ++ ds := by
    rintro ds rfl
    simp only [paddedChars, if_neg hsign, Int.natAbs_natCast, List.nil_append, List.length_nil,
      Nat.zero_add]
  by_cases hone : n < 16
  · rw [hbody _ (digits_of_lt hone), show n / 256 = 0 by omega, show n / 16 % 16 = 0 by omega,
      Nat.mod_eq_of_lt hone, hzero]
    rfl
  · have hrest := digits_of_le (Nat.not_lt.1 hone)
    by_cases htwo : n / 16 < 16
    · rw [digits_of_lt htwo] at hrest
      rw [hbody _ hrest, show n / 256 = 0 by omega, Nat.mod_eq_of_lt htwo, hzero]
      rfl
    · rw [digits_of_le (Nat.not_lt.1 htwo), digits_of_lt (show n / 16 / 16 < 16 by omega)] at hrest
      rw [hbody _ hrest, show n / 256 = n / 16 / 16 by omega]
      rfl

/-- **AN ADDRESS IS WRITTEN WITH THREE CAPITAL DIGITS.** -/
theorem padded_of_address {i : Int} (h₀ : 0 ≤ i) (hlt : i < 4096) :
    ∃ a b c : Fin 16, i = 256 * (a : Nat) + 16 * (b : Nat) + (c : Nat) ∧
      (padded 3 i).toList = [a, b, c].map fun d : Fin 16 => alphabet.getD d ' ' := by
  obtain ⟨n, rfl⟩ := Int.eq_ofNat_of_zero_le h₀
  have hn : n < 4096 := by omega
  refine ⟨⟨n / 256, by omega⟩, ⟨n / 16 % 16, by omega⟩, ⟨n % 16, by omega⟩, ?_, ?_⟩
  · show (n : Int) = 256 * ((n / 256 : Nat) : Int) + 16 * ((n / 16 % 16 : Nat) : Int)
      + ((n % 16 : Nat) : Int)
    omega
  · rw [padded, String.toList_ofList, paddedChars_of_lt hn]
    simp only [List.map_cons, List.map_nil, ← digit_of_fin]

end Hex

/-! ## Lines -/

/-- The line that an entry is if the processor reports it at the level of the trace. -/
def Log.Entry.traceLine? (e : Log.Entry) : Option String :=
  if e.level = .debug ∧ e.source = .processor then some e.text else none

/-- The fault that a failure is, if it is one. -/
def Failure.fault? : Failure → Option Fault
  | .complaint (.execution f) => some f
  | _                         => none

/-- Whether a fault is one of the stack. -/
def Fault.ofStack (f : Fault) : Bool :=
  f.reason == .stackOverflow || f.reason == .stackUnderflow

/-- The faults among what was raised. -/
def faults (raised : List (Option Failure)) : List Fault :=
  raised.filterMap fun failure => failure.bind Failure.fault?

theorem faults_append (raised raised' : List (Option Failure)) :
    faults (raised ++ raised') = faults raised ++ faults raised' :=
  List.filterMap_append ..

theorem traceLines_notes (i : Instruction) : i.notes.filterMap Log.Entry.traceLine? = [] := by
  cases hop : i.operation <;> simp only [Instruction.notes, hop] <;> rfl

namespace Machine

variable {m : Machine}

/-- The line of the trace for the instruction at the program counter, if there is one. -/
def traceLine? (m : Machine) : Option String :=
  (decode m.word).map fun i => Hex.padded 3 m.pc ++ ": " ++ i.mnemonic

/-- The machine, at most one, from which a batch begins an instruction that the stack is not
    fit for. -/
def refused : Nat → Machine → List Machine
  | 0,     _ => []
  | n + 1, m =>
      if m.paused then []
      else if m.step.failure = none then refused n m.step.state
      else if (faults [m.step.failure]).any Fault.ofStack then [m] else []

/-- What was traced while instructions were carried out: `done` are the machines that completed
    a step, and `executed` is the count of instructions, before and after. -/
structure Traced (executed : Nat) (done refused : List Machine) (lines : List String)
    (raised : List (Option Failure)) (executed' : Nat) : Prop where
  wellFormed : ∀ m ∈ done ++ refused, m.WellFormed
  lines : lines.map some = (done ++ refused).map traceLine?
  refused : refused.map (·.step.failure)
    = ((faults raised).filter Fault.ofStack).map fun f => some (.fault f)
  executed : executed' = executed + done.length

variable {executed executed' executed'' : Nat} {done done' refused refused' : List Machine}
  {lines lines' : List String} {raised raised' : List (Option Failure)}

theorem Traced.none (executed : Nat) (hraised : faults raised = []) :
    Traced executed [] [] [] raised executed :=
  ⟨fun _ hm => (nomatch hm), rfl, by rw [hraised]; rfl, rfl⟩

theorem Traced.eq_nil (h : Traced executed done refused lines raised executed')
    (hraised : faults raised = []) : refused = [] := by
  have hmap := h.refused
  rw [hraised] at hmap
  exact List.map_eq_nil_iff.1 hmap

/-- What follows on parts without a fault. -/
theorem Traced.next (h : Traced executed done refused lines raised executed')
    (hraised : faults raised = [])
    (h' : Traced executed' done' refused' lines' raised' executed'') :
    Traced executed (done ++ done') refused' (lines ++ lines') (raised ++ raised') executed'' := by
  have hlines := h.lines
  have hdone := h.wellFormed
  rw [h.eq_nil hraised, List.append_nil] at hlines hdone
  refine ⟨?_, ?_, ?_, ?_⟩
  · rw [List.append_assoc]
    exact List.forall_mem_append.2 ⟨hdone, h'.wellFormed⟩
  · simp only [List.map_append, hlines, h'.lines, List.append_assoc]
  · rw [faults_append, hraised, List.nil_append, h'.refused]
  · rw [h'.executed, h.executed, List.length_append, Nat.add_assoc]

/-- Nothing more happens. -/
theorem Traced.end (h : Traced executed done refused lines raised executed')
    (h' : Traced executed' [] [] lines' raised' executed'') (hraised' : faults raised' = []) :
    Traced executed done refused (lines ++ lines') (raised ++ raised') executed'' := by
  have hlines' : lines' = [] := List.map_eq_nil_iff.1 h'.lines
  refine ⟨h.wellFormed, ?_, ?_, ?_⟩
  · rw [hlines', List.append_nil, h.lines]
  · rw [faults_append, hraised', List.append_nil, h.refused]
  · rw [h'.executed, h.executed]
    rfl

theorem traced_step (h : m.WellFormed) (hok : m.step.failure = none) :
    Traced m.executed [m] [] (m.step.reports.filterMap Log.Entry.traceLine?) []
      m.step.state.executed := by
  obtain ⟨i, hdec, _, hstep⟩ := step_success h hok
  have hline : m.traceLine? = some (Log.Entry.trace m.pc i).text := by
    rw [traceLine?, hdec]
    rfl
  rw [hstep]
  refine ⟨List.forall_mem_singleton.2 h, ?_, rfl, rfl⟩
  show ((Log.Entry.trace m.pc i).text :: i.notes.filterMap Log.Entry.traceLine?).map some = _
  rw [traceLines_notes]
  exact congrArg ([·]) hline.symm

/-- A step that fails is traced if the stack is not fit for its instruction. -/
theorem traced_fault (h : m.WellFormed) {e : Failure} (he : m.step.failure = some e) :
    Traced m.executed [] (if (faults [some e]).any Fault.ofStack then [m] else [])
      (m.step.reports.filterMap Log.Entry.traceLine?) [some e] m.step.state.executed := by
  rcases step_cases h with ⟨i, _, _, hstep⟩ | ⟨i, reason, hdec, hs, hstep⟩ | ⟨_, hstep⟩
  · rw [hstep] at he
    exact nomatch he
  · have hline : m.traceLine? = some (Log.Entry.trace m.pc i).text := by
      rw [traceLine?, hdec]
      rfl
    obtain rfl : Failure.fault ⟨reason, m.word, m.pc⟩ = e := by
      rw [hstep] at he
      exact Option.some.inj he
    have hstack : (faults [some (.fault ⟨reason, m.word, m.pc⟩)]).any Fault.ofStack = true := by
      rcases stackFault?_cases hs with rfl | rfl <;> rfl
    have hfilter : (faults [some (.fault ⟨reason, m.word, m.pc⟩)]).filter Fault.ofStack
        = [⟨reason, m.word, m.pc⟩] := by
      rcases stackFault?_cases hs with rfl | rfl <;> rfl
    rw [if_pos hstack, hstep]
    refine ⟨List.forall_mem_singleton.2 h, congrArg ([·]) hline.symm, ?_, rfl⟩
    rw [hfilter, List.map_singleton, he]
    rfl
  · obtain rfl : Failure.fault ⟨.unknownOpcode, m.word, m.pc⟩ = e := by
      rw [hstep] at he
      exact Option.some.inj he
    rw [hstep]
    exact ⟨fun _ hm => (nomatch hm), rfl, rfl, rfl⟩

/-- **A BATCH IS TRACED** as far as it gets. -/
theorem traced_batch (n : Nat) (h : m.WellFormed) :
    Traced m.executed (strides n m) (Machine.refused n m)
      ((batch n m).reports.filterMap Log.Entry.traceLine?) [(batch n m).failure]
      (batch n m).state.executed := by
  induction n generalizing m with
  | zero => exact .none m.executed rfl
  | succ n ih =>
      cases hp : m.paused with
      | true =>
          rw [batch_of_paused hp, strides_of_paused hp, Machine.refused, if_pos hp]
          exact .none m.executed rfl
      | false =>
          have hgo : ¬ m.paused = true := by
            rw [hp]
            exact Bool.false_ne_true
          rw [Machine.refused, if_neg hgo]
          cases he : m.step.failure with
          | none =>
              rw [batch_succ_of_success hp he, strides_of_success hp he, if_pos rfl]
              simp only [Outcome.after, List.filterMap_append]
              exact (traced_step h he).next rfl (ih (wellFormed_step h))
          | some e =>
              rw [batch_succ_of_failure hp he, strides_of_failure he,
                if_neg (Option.some_ne_none e), he]
              exact traced_fault h he

end Machine

end Chip8
