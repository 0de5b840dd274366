import Chip8.Proofs.Keypad.Changes

/-! # Many keys at once

    What a plan does is known exactly (**`plan_eq`**): it releases the keys held that are not
    wanted (**`mem_ups`**), then presses the wanted keys that are up (**`mem_downs`**), both in
    ascending order, and complains about the least wanted number that is no key
    (**`refused_least`**).  Where that number has its turn decides what is done before: a
    negative one comes before every key, so nothing is pressed, and one above the keys comes
    after all of them (**`holds_plan`**). -/

namespace Chip8.Keypad

/-- The keys that are released when only the wanted ones are to stay held. -/
def ups (p : Keypad) (wanted : List Int) : List Key :=
  keys.filter fun k => p.holds k && !wanted.contains (k.val : Int)

/-- The keys that are pressed, in the order in which they are. -/
def downs (p : Keypad) (wanted : List Int) : List Key :=
  (((ascending wanted).takeWhile isKey).filterMap key?).filter fun k => !p.holds k

/-- The number that is refused. -/
def refused (wanted : List Int) : Option Int :=
  (ascending wanted).find? fun number => !isKey number

variable {p : Keypad} {wanted : List Int} {k : Key} {number : Int}

theorem plan_eq (p : Keypad) (wanted : List Int) :
    p.plan wanted = ((p.ups wanted).map .up ++ (p.downs wanted).map .down,
      (refused wanted).map .mk) := by
  rw [plan, presses_eq]
  rfl

/-! ## Numbers in ascending order -/

theorem mem_ascending : number ∈ ascending wanted ↔ number ∈ wanted := by
  rw [ascending, List.mem_mergeSort, List.mem_eraseDups]

theorem pairwise_ascending (wanted : List Int) : (ascending wanted).Pairwise (· < ·) := by
  have hsorted : (ascending wanted).Pairwise fun a b => decide (a ≤ b) = true := by
    refine List.pairwise_mergeSort ?_ ?_ wanted.eraseDups
    · intro a b c hab hbc
      exact decide_eq_true (Int.le_trans (of_decide_eq_true hab) (of_decide_eq_true hbc))
    · intro a b
      rw [Bool.or_eq_true, decide_eq_true_eq, decide_eq_true_eq]
      exact Int.le_total a b
  refine (hsorted.and (nodup_ascending wanted)).imp ?_
  rintro a b ⟨hle, hne⟩
  exact Int.lt_iff_le_and_ne.2 ⟨of_decide_eq_true hle, hne⟩

/-- What is taken from the front of ascending numbers has nothing else below it. -/
theorem mem_takeWhile_iff {test : Int → Bool} {numbers : List Int}
    (hsorted : numbers.Pairwise (· < ·)) :
    number ∈ numbers.takeWhile test ↔
      number ∈ numbers ∧ ∀ lower ∈ numbers, lower ≤ number → test lower = true := by
  induction numbers with
  | nil => simp
  | cons first rest ih =>
      obtain ⟨hfirst, hrest⟩ := List.pairwise_cons.1 hsorted
      cases htest : test first with
      | false =>
          rw [List.takeWhile_cons_of_neg (by rw [htest]; exact Bool.false_ne_true)]
          refine ⟨fun hmem => (nomatch hmem), ?_⟩
          rintro ⟨hmem, hall⟩
          have hle : first ≤ number := by
            rcases List.mem_cons.1 hmem with rfl | hlater
            · exact Int.le_refl _
            · exact Int.le_of_lt (hfirst number hlater)
          exact nomatch htest.symm.trans (hall first List.mem_cons_self hle)
      | true =>
          rw [List.takeWhile_cons_of_pos htest, List.mem_cons, List.mem_cons, ih hrest]
          constructor
          · rintro (rfl | ⟨hmem, hall⟩)
            · refine ⟨Or.inl rfl, List.forall_mem_cons.2 ⟨fun _ => htest, ?_⟩⟩
              intro lower hlower hle
              exact absurd (hfirst lower hlower) (Int.not_lt.2 hle)
            · exact ⟨Or.inr hmem, List.forall_mem_cons.2 ⟨fun _ => htest, hall⟩⟩
          · rintro ⟨rfl | hmem, hall⟩
            · exact Or.inl rfl
            · exact Or.inr ⟨hmem, (List.forall_mem_cons.1 hall).2⟩

/-! ## What is refused -/

theorem refused_eq_none_iff :
    refused wanted = none ↔ ∀ number ∈ wanted, 0 ≤ number ∧ number < 16 := by
  rw [refused, List.find?_eq_none]
  refine forall_congr' fun number => ?_
  rw [mem_ascending, Bool.not_eq_true', Bool.not_eq_false, isKey_iff]

theorem exists_refused (hmem : number ∈ wanted) (hout : ¬ (0 ≤ number ∧ number < 16)) :
    ∃ least, refused wanted = some least :=
  Option.ne_none_iff_exists'.1 fun hnone => hout (refused_eq_none_iff.1 hnone number hmem)

/-- **WHAT IS REFUSED** is the least wanted number that is no key. -/
theorem refused_least (h : refused wanted = some number) :
    number ∈ wanted ∧ ¬ (0 ≤ number ∧ number < 16) ∧
      ∀ other ∈ wanted, ¬ (0 ≤ other ∧ other < 16) → number ≤ other := by
  obtain ⟨hnumber, before, behind, hsplit, hbefore⟩ := List.find?_eq_some_iff_append.1 h
  have hsorted := pairwise_ascending wanted
  have hmem (other : Int) : other ∈ wanted ↔ other ∈ before ++ number :: behind := by
    rw [← hsplit, mem_ascending]
  rw [hsplit] at hsorted
  obtain ⟨_, hnext, _⟩ := List.pairwise_append.1 hsorted
  refine ⟨(hmem number).2 (List.mem_append_right _ List.mem_cons_self), ?_, ?_⟩
  · rw [← isKey_iff, Bool.not_eq_true]
    exact (Bool.not_eq_true' _).mp hnumber
  · intro other hother hout
    rw [← isKey_iff, Bool.not_eq_true] at hout
    rcases List.mem_append.1 ((hmem other).1 hother) with hearly | hlate
    · have hkey := hbefore other hearly
      rw [hout] at hkey
      exact nomatch hkey
    · rcases List.mem_cons.1 hlate with rfl | hbehind
      · exact Int.le_refl _
      · exact Int.le_of_lt ((List.pairwise_cons.1 hnext).1 other hbehind)

/-- A negative number has its turn before every key, so the least of all is refused. -/
theorem refused_of_negative (hmem : number ∈ wanted) (hneg : number < 0) :
    ∃ least, refused wanted = some least ∧ least ∈ wanted ∧ ∀ other ∈ wanted, least ≤ other := by
  obtain ⟨least, hleast⟩ := exists_refused hmem (by omega)
  obtain ⟨hin, _, hbelow⟩ := refused_least hleast
  have hlow : least ≤ number := hbelow number hmem (by omega)
  refine ⟨least, hleast, hin, ?_⟩
  intro other hother
  by_cases hkey : 0 ≤ other ∧ other < 16
  · omega
  · exact hbelow other hother hkey

/-- Where no number is negative, the least above the keys is refused. -/
theorem refused_of_above (hnonneg : ∀ number ∈ wanted, 0 ≤ number) (hmem : number ∈ wanted)
    (habove : 15 < number) :
    ∃ least, refused wanted = some least ∧ least ∈ wanted ∧ 15 < least ∧
      ∀ other ∈ wanted, 15 < other → least ≤ other := by
  obtain ⟨least, hleast⟩ := exists_refused hmem (by omega)
  obtain ⟨hin, hout, hbelow⟩ := refused_least hleast
  have hpos : 0 ≤ least := hnonneg least hin
  refine ⟨least, hleast, hin, by omega, ?_⟩
  intro other hother hhigh
  exact hbelow other hother (by omega)

/-! ## What is released and pressed -/

theorem pairwise_ups (p : Keypad) (wanted : List Int) : (p.ups wanted).Pairwise (· < ·) :=
  (List.pairwise_lt_finRange 16).sublist List.filter_sublist

theorem mem_ups : k ∈ p.ups wanted ↔ p.holds k = true ∧ (k.val : Int) ∉ wanted := by
  rw [ups, List.mem_filter, Bool.and_eq_true, Bool.not_eq_true', ← Bool.not_eq_true,
    List.contains_iff_mem]
  exact and_iff_right (List.mem_finRange k)

theorem pairwise_downs (p : Keypad) (wanted : List Int) : (p.downs wanted).Pairwise (· < ·) := by
  refine List.Pairwise.sublist List.filter_sublist ?_
  refine List.Pairwise.filterMap key? ?_ ((pairwise_ascending wanted).sublist
    (List.takeWhile_sublist _))
  intro a b hab j hj k hk
  have hj := val_of_key? hj
  have hk := val_of_key? hk
  exact Fin.lt_def.2 (by omega)

/-- **WHAT IS PRESSED**: the wanted keys that are up, unless a negative number comes first. -/
theorem mem_downs :
    k ∈ p.downs wanted ↔
      ((k.val : Int) ∈ wanted ∧ p.holds k = false) ∧ ∀ number ∈ wanted, 0 ≤ number := by
  have hk : k ∈ ((ascending wanted).takeWhile isKey).filterMap key? ↔
      (k.val : Int) ∈ (ascending wanted).takeWhile isKey := by
    rw [List.mem_filterMap]
    constructor
    · rintro ⟨number, hmem, hkey⟩
      rw [val_of_key? hkey]
      exact hmem
    · intro hmem
      exact ⟨k.val, hmem, key?_val k⟩
  rw [downs, List.mem_filter, Bool.not_eq_true', hk, mem_takeWhile_iff (pairwise_ascending wanted),
    mem_ascending]
  have hbelow : (∀ lower ∈ ascending wanted, lower ≤ (k.val : Int) → isKey lower = true) ↔
      ∀ number ∈ wanted, 0 ≤ number := by
    refine forall_congr' fun number => ?_
    rw [mem_ascending, isKey_iff]
    refine imp_congr_right fun _ => ?_
    omega
  rw [hbelow]
  tauto

theorem downs_of_negative (hmem : number ∈ wanted) (hneg : number < 0) :
    p.downs wanted = [] := by
  refine List.eq_nil_iff_forall_not_mem.2 fun k hk => ?_
  exact Int.not_le.2 hneg ((mem_downs.1 hk).2 number hmem)

/-! ## What is held afterwards -/

theorem holds_afterAll_ups (p : Keypad) (ks : List Key) (k : Key) :
    (p.afterAll (ks.map .up)).holds k = true ↔ p.holds k = true ∧ k ∉ ks := by
  induction ks generalizing p with
  | nil => simp [afterAll]
  | cons j rest ih =>
      refine (ih (p.after (.up j))).trans ?_
      rw [holds_after_up, List.mem_cons]
      by_cases hj : k = j <;> simp [hj]

theorem holds_afterAll_downs (p : Keypad) (ks : List Key) (k : Key) :
    (p.afterAll (ks.map .down)).holds k = true ↔ p.holds k = true ∨ k ∈ ks := by
  induction ks generalizing p with
  | nil => simp [afterAll]
  | cons j rest ih =>
      refine (ih (p.after (.down j))).trans ?_
      rw [holds_after_down, List.mem_cons]
      by_cases hj : k = j <;> simp [hj]

/-- **WHAT IS HELD AFTERWARDS**: of the wanted keys those that were held before, and the others
    unless a negative number stopped the presses. -/
theorem holds_plan (p : Keypad) (wanted : List Int) (k : Key) :
    (p.afterAll (p.plan wanted).1).holds k = true ↔
      (k.val : Int) ∈ wanted ∧ (p.holds k = true ∨ ∀ number ∈ wanted, 0 ≤ number) := by
  rw [plan_eq, afterAll_append, holds_afterAll_downs, holds_afterAll_ups, mem_ups, mem_downs,
    ← Bool.not_eq_true]
  tauto

theorem range_of_isHeld (hheld : p.isHeld number = true) : 0 ≤ number ∧ number < 16 := by
  obtain ⟨k, rfl, _⟩ := (p.isHeld_iff number).1 hheld
  omega

/-- The same of numbers, none of which is held if it is no key. -/
theorem isHeld_plan (p : Keypad) (wanted : List Int) (number : Int) :
    (p.afterAll (p.plan wanted).1).isHeld number = true ↔
      (0 ≤ number ∧ number < 16) ∧ number ∈ wanted ∧
        (p.isHeld number = true ∨ ∀ other ∈ wanted, 0 ≤ other) := by
  rw [← isKey_iff, isKey]
  cases hk : key? number with
  | none =>
      rw [isHeld_of_none hk]
      exact iff_of_false Bool.false_ne_true fun hall => Bool.false_ne_true hall.1
  | some k =>
      rw [isHeld_of_key? hk, isHeld_of_key? hk, holds_plan, val_of_key? hk]
      exact (and_iff_right rfl).symm

/-- Where just the wanted keys are held there is nothing to do. -/
theorem plan_of_held (hheld : ∀ k : Key, p.holds k = true ↔ (k.val : Int) ∈ wanted)
    (hkeys : ∀ number ∈ wanted, 0 ≤ number ∧ number < 16) : p.plan wanted = ([], none) := by
  have hups : p.ups wanted = [] := by
    refine List.eq_nil_iff_forall_not_mem.2 fun k hk => ?_
    obtain ⟨hdown, hout⟩ := mem_ups.1 hk
    exact hout ((hheld k).1 hdown)
  have hdowns : p.downs wanted = [] := by
    refine List.eq_nil_iff_forall_not_mem.2 fun k hk => ?_
    obtain ⟨⟨hin, hup⟩, _⟩ := mem_downs.1 hk
    exact nomatch hup.symm.trans ((hheld k).2 hin)
  rw [plan_eq, hups, hdowns, refused_eq_none_iff.2 hkeys]
  rfl

end Chip8.Keypad
