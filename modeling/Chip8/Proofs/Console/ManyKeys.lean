import Chip8.Proofs.Console.Replay
import Chip8.Proofs.Keypad.Plan

/-! # Wanting many keys at once

    When a set of keys is wanted, the console releases those that are held and not wanted, then
    presses those that are wanted and up, each in ascending order, and then complains, if it
    does, about the least wanted number that is no key (**`wanting_keys_is_exact`**).

    A machine that waits for a key takes the first that is pressed, which for the ascending
    order is the smallest (**`machine_setKeys`**). -/

namespace Chip8.Console

open Machine Keypad

variable {c : Console} {wanted : List Int}

/-! ## The events -/

theorem firstPress_plan (p : Keypad) (wanted : List Int) :
    firstPress (p.plan wanted).1 = (p.downs wanted).head? := by
  rw [plan_eq]
  generalize p.ups wanted = ups
  induction ups with
  | cons k rest ih => exact ih
  | nil =>
      cases p.downs wanted with
      | nil => rfl
      | cons k rest => rfl

theorem tells_setKeys (h : c.machine.WellFormed) (wanted : List Int) :
    Tells c (c.setKeys wanted).reports (c.machine.keypad.plan wanted).1 := by
  have hreports : (c.setKeys wanted).reports
      = (signalAll (c.machine.keypad.plan wanted).1 c).reports :=
    performKeys_reports h (.set wanted)
  rw [hreports]
  exact tells_signalAll h _

theorem failure_setKeys (h : c.machine.WellFormed) (wanted : List Int) :
    (c.setKeys wanted).failure = (refused wanted).map fun number => .key ⟨number⟩ := by
  have hfailure : (c.setKeys wanted).failure
      = (c.machine.keypad.plan wanted).2.map .key := performKeys_failure h (.set wanted)
  rw [hfailure, plan_eq, Option.map_map]
  rfl

theorem keypad_setKeys (h : c.machine.WellFormed) (wanted : List Int) :
    (c.setKeys wanted).state.machine.keypad
      = c.machine.keypad.afterAll (c.machine.keypad.plan wanted).1 := by
  have hstate : (c.setKeys wanted).state = c.afterKeys (c.machine.keypad.plan wanted).1 :=
    performKeys_state h (.set wanted)
  rw [hstate, keypad_afterKeys]

/-- **A MACHINE THAT WAITS** takes the first key that is pressed. -/
theorem machine_setKeys (h : c.machine.WellFormed) (hheeds : c.Heeds) (wanted : List Int) :
    (c.setKeys wanted).state.machine
      = { c.machine.answered (c.machine.keypad.downs wanted).head? with
          keypad := c.machine.keypad.afterAll (c.machine.keypad.plan wanted).1 } := by
  have hstate : (c.setKeys wanted).state = c.afterKeys (c.machine.keypad.plan wanted).1 :=
    performKeys_state h (.set wanted)
  rw [hstate, machine_afterKeys hheeds, firstPress_plan]

/-- Where the wanted keys are held already, wanting them does nothing. -/
theorem setKeys_of_held
    (hheld : ∀ k : Key, c.machine.keypad.holds k = true ↔ (k.val : Int) ∈ wanted)
    (hkeys : ∀ number ∈ wanted, 0 ≤ number ∧ number < 16) : c.setKeys wanted = .done c := by
  rw [setKeys, plan_of_held hheld hkeys]
  rfl

/-! ## The wait -/

/-- What becomes of a wait for register `r`: it goes on if no key is pressed, and otherwise ends
    with the smallest of them. -/
theorem wait_setKeys (h : c.machine.WellFormed) (hheeds : c.Heeds) {r : Int}
    (hw : c.machine.waiting = some r) (wanted : List Int) :
    let m := (c.setKeys wanted).state.machine
    let downs := c.machine.keypad.downs wanted
    (m.waiting = some r ↔ downs = []) ∧
    (downs ≠ [] → ∃ k ∈ downs, (∀ j ∈ downs, k ≤ j) ∧ m.waiting = none ∧
      m.registers.get r.toNat = k.val) := by
  intro m downs
  have hm : m = { c.machine.answered downs.head? with
      keypad := c.machine.keypad.afterAll (c.machine.keypad.plan wanted).1 } :=
    machine_setKeys h hheeds wanted
  have hsorted : downs.Pairwise (· < ·) := pairwise_downs _ wanted
  cases hdowns : downs with
  | nil =>
      rw [hdowns, List.head?_nil, answered_none] at hm
      rw [hm]
      exact ⟨⟨fun _ => rfl, fun _ => hw⟩, fun hne => absurd rfl hne⟩
  | cons k rest =>
      rw [hdowns, List.head?_cons, answered_of_waiting hw] at hm
      rw [hdowns] at hsorted
      rw [hm]
      refine ⟨⟨fun hstill => (nomatch hstill), fun hnone => (nomatch hnone)⟩, fun _ => ?_⟩
      refine ⟨k, List.mem_cons_self, List.forall_mem_cons.2 ⟨Fin.le_refl k, ?_⟩, rfl, ?_⟩
      · intro j hj
        exact Fin.le_of_lt ((List.pairwise_cons.1 hsorted).1 j hj)
      · obtain ⟨h₀, hlt⟩ := h.waiting_range r hw
        have hr : r.toNat < c.machine.registers.size := by
          rw [h.registers_size]
          omega
        have hbyte : k.val % 256 = k.val := Nat.mod_eq_of_lt (Nat.lt_trans k.isLt (by decide))
        show (c.machine.registers.put r.toNat k.val).get r.toNat = k.val
        rw [Bank.get_put _ hr, if_pos rfl, hbyte]

/-! ## The call -/

/-- **WANTING KEYS IS EXACT**, whatever numbers are wanted, how often and in which order.  With
    `K` the keys held before:

    * first the keys of `K` that are not wanted come up, then the wanted keys that are not in
      `K` go down, unless a wanted number is negative; both happen in ascending order, and who
      stands once among those who hear has heard just that;
    * if all numbers are keys, nothing fails, the keys held are those wanted, and to want them
      again does nothing;
    * if some number is negative, the least of all is refused behind the releases and before
      any press, which leaves the wanted keys of `K`;
    * if none is, but some number is above the keys, the least of these is refused behind all
      presses, which leaves the wanted keys;
    * a machine that waits for a key and hears of it waits on exactly if no key went down, and
      otherwise has the smallest that did in the register. -/
theorem wanting_keys_is_exact (h : c.machine.WellFormed) (wanted : List Int) :
    let K : Int → Prop := fun number => c.machine.keypad.isHeld number = true
    let o := c.setKeys wanted
    let held : Int → Prop := fun number => o.state.machine.keypad.isHeld number = true
    ∃ ups downs : List Key,
      Tells c o.reports (ups.map .up ++ downs.map .down) ∧
      (ups.Pairwise (· < ·) ∧ ∀ k : Key, k ∈ ups ↔ K k.val ∧ (k.val : Int) ∉ wanted) ∧
      (downs.Pairwise (· < ·) ∧ ∀ k : Key, k ∈ downs ↔
        ((k.val : Int) ∈ wanted ∧ ¬ K k.val) ∧ ∀ number ∈ wanted, 0 ≤ number) ∧
      ((∀ number ∈ wanted, 0 ≤ number ∧ number < 16) →
        o.failure = none ∧ (∀ number, held number ↔ number ∈ wanted) ∧
          o.state.setKeys wanted = .done o.state) ∧
      ((∃ number ∈ wanted, number < 0) →
        ∃ least ∈ wanted, (∀ number ∈ wanted, least ≤ number) ∧
          o.failure = some (.key ⟨least⟩) ∧ downs = [] ∧
          ∀ number, held number ↔ K number ∧ number ∈ wanted) ∧
      ((∀ number ∈ wanted, 0 ≤ number) → (∃ number ∈ wanted, 15 < number) →
        ∃ least ∈ wanted, 15 < least ∧ (∀ number ∈ wanted, 15 < number → least ≤ number) ∧
          o.failure = some (.key ⟨least⟩) ∧
          ∀ number, held number ↔ number ∈ wanted ∧ number < 16) ∧
      ∀ r, c.machine.waiting = some r → c.Heeds →
        (o.state.machine.waiting = some r ↔ downs = []) ∧
        (downs ≠ [] → ∃ k ∈ downs, (∀ j ∈ downs, k ≤ j) ∧
          o.state.machine.waiting = none ∧ o.state.machine.registers.get r.toNat = k.val) := by
  intro K o held
  have hK (k : Key) : K k.val ↔ c.machine.keypad.holds k = true := by
    show c.machine.keypad.isHeld k.val = true ↔ _
    rw [isHeld_of_key? (key?_val k)]
  have hheld (number : Int) : held number ↔ (0 ≤ number ∧ number < 16) ∧ number ∈ wanted ∧
      (K number ∨ ∀ other ∈ wanted, 0 ≤ other) := by
    show o.state.machine.keypad.isHeld number = true ↔ _
    rw [keypad_setKeys h wanted]
    exact isHeld_plan _ wanted number
  have hfailure : o.failure = (refused wanted).map fun number => .key ⟨number⟩ :=
    failure_setKeys h wanted
  refine ⟨c.machine.keypad.ups wanted, c.machine.keypad.downs wanted, ?_,
    ⟨pairwise_ups _ wanted, ?_⟩, ⟨pairwise_downs _ wanted, ?_⟩, ?_, ?_, ?_, ?_⟩
  · have htells := tells_setKeys h wanted
    rw [plan_eq] at htells
    exact htells
  · intro k
    rw [mem_ups, hK]
  · intro k
    rw [mem_downs, hK, Bool.not_eq_true]
  · intro hkeys
    have hsame (number : Int) : held number ↔ number ∈ wanted := by
      rw [hheld]
      refine ⟨fun hall => hall.2.1, fun hmem => ⟨hkeys number hmem, hmem, Or.inr ?_⟩⟩
      exact fun other hother => (hkeys other hother).1
    refine ⟨?_, hsame, ?_⟩
    · rw [hfailure, refused_eq_none_iff.2 hkeys]
      rfl
    · refine setKeys_of_held (fun k => ?_) hkeys
      rw [← isHeld_of_key? (key?_val k)]
      exact hsame k.val
  · rintro ⟨number, hmem, hneg⟩
    obtain ⟨least, hleast, hin, hbelow⟩ := refused_of_negative hmem hneg
    refine ⟨least, hin, hbelow, ?_, downs_of_negative hmem hneg, ?_⟩
    · rw [hfailure, hleast]
      rfl
    · intro other
      rw [hheld]
      constructor
      · rintro ⟨_, hother, hK | hnonneg⟩
        · exact ⟨hK, hother⟩
        · exact absurd (hnonneg number hmem) (Int.not_le.2 hneg)
      · rintro ⟨hK, hother⟩
        exact ⟨range_of_isHeld hK, hother, Or.inl hK⟩
  · rintro hnonneg ⟨number, hmem, habove⟩
    obtain ⟨least, hleast, hin, hhigh, hbelow⟩ := refused_of_above hnonneg hmem habove
    refine ⟨least, hin, hhigh, hbelow, ?_, ?_⟩
    · rw [hfailure, hleast]
      rfl
    · intro other
      rw [hheld]
      constructor
      · rintro ⟨hkey, hother, _⟩
        exact ⟨hother, hkey.2⟩
      · rintro ⟨hother, hlt⟩
        exact ⟨⟨hnonneg other hother, hlt⟩, hother, Or.inr hnonneg⟩
  · intro r hw hheeds
    exact wait_setKeys h hheeds hw wanted

/-- Twice the same key, a key that is held, and numbers above the keys, wanted by a machine that
    waits; and a negative number besides. -/
theorem wanting_keys_beyond_the_keypad :
    let m := { Machine.fresh 10 440 (.cycling []) with
      paused := true
      waiting := some 3
      keypad := (Keypad.released.after (.down 2)).after (.down 5) }
    let c := ofMachine m
    c.machine.WellFormed ∧ c.Heeds ∧
      (c.setKeys [40, 9, 5, 7, 9, 16]).failure = some (.key ⟨16⟩) ∧
      (c.setKeys [40, 9, 5, 7, 9, 16]).state.machine.registers.get 3 = 7 ∧
      (c.setKeys [9, -1, 5, -2]).failure = some (.key ⟨-2⟩) ∧
      (c.setKeys [9, -1, 5, -2]).state.machine.waiting = some 3 := by
  intro m c
  have h : c.machine.WellFormed :=
    { Machine.wellFormed_fresh 10 440 (.cycling []) with
      paused_iff := ⟨fun _ => rfl, fun _ => rfl⟩
      waiting_range := fun r hr => Option.some.inj hr ▸ by decide }
  have hheeds : c.Heeds := by decide
  have hw : c.machine.waiting = some 3 := rfl
  have hheld : ∀ k : Key, c.machine.keypad.isHeld k.val = true ↔ k = 2 ∨ k = 5 := by decide
  -- from here on it matters no more which console this is
  clear_value c
  obtain ⟨ups, downs, _, _, ⟨_, hdowns⟩, _, _, habove, hwait⟩ :=
    wanting_keys_is_exact h [40, 9, 5, 7, 9, 16]
  obtain ⟨ups', downs', _, _, _, _, hnegative, _, hwait'⟩ := wanting_keys_is_exact h [9, -1, 5, -2]
  obtain ⟨least, _, hhigh, hleast, hfailure, _⟩ := habove (by decide) ⟨40, by decide, by decide⟩
  obtain ⟨least', hmem', hleast', hfailure', hnone, _⟩ := hnegative ⟨-1, by decide, by decide⟩
  refine ⟨h, hheeds, ?_, ?_, ?_, ?_⟩
  · have hlow := hleast 16 (by decide) (by decide)
    rw [hfailure, show least = 16 by omega]
  · have hseven : (7 : Key) ∈ downs :=
      (hdowns 7).2 ⟨⟨by decide, mt (hheld 7).1 (by decide)⟩, by decide⟩
    obtain ⟨k, hk, hsmallest, _, hregister⟩ := (hwait 3 hw hheeds).2 (List.ne_nil_of_mem hseven)
    have hle := hsmallest 7 hseven
    obtain ⟨⟨hin, hup⟩, _⟩ := (hdowns k).1 hk
    have hother : ¬ (k = 2 ∨ k = 5) := mt (hheld k).2 hup
    have hkey : k = 7 := by
      clear * - hle hin hother
      revert k
      decide
    rw [hkey] at hregister
    exact hregister
  · have hlow := hleast' (-2) (by decide)
    have hsecond : least' = -2 := by
      simp only [List.mem_cons, List.not_mem_nil, or_false] at hmem'
      omega
    rw [hfailure', hsecond]
  · exact (hwait' 3 hw hheeds).1.2 hnone

end Chip8.Console
