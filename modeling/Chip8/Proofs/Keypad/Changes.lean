import Mathlib.Data.List.Chain
import Mathlib.Data.List.Nodup
import Chip8.Keypad

/-! # Key events are changes

    An event is **genuine** if it presses a key that is up or releases one that is down.
    Whatever keys are wanted, the events of a plan are genuine one after the other
    (**`genuine_plan`**): no key is released that was not held, and none that is held is
    pressed again.

    Genuine events about one key take turns (**`turns_of_genuine`**), and the last of them
    tells whether the key is held (**`holds_afterAll`**). -/

namespace Chip8.Keypad

/-- Whether an event changes its key. -/
def changedBy (p : Keypad) : KeyEvent → Prop
  | .down k => p.holds k = false
  | .up k   => p.holds k = true

def afterAll (p : Keypad) (es : List KeyEvent) : Keypad := es.foldl after p

/-- Each event changes its key, at its turn. -/
def Genuine : Keypad → List KeyEvent → Prop
  | _, []      => True
  | p, e :: es => p.changedBy e ∧ (p.after e).Genuine es

theorem changedBy_of_press (p : Keypad) {number : Int} {e : KeyEvent}
    (he : p.press number = .ok (some e)) : p.changedBy e := by
  cases hk : key? number with
  | none =>
      simp only [press, hk, reduceCtorEq] at he
  | some k =>
      cases hheld : p.holds k with
      | true => simp only [press, hk, hheld, if_true, Except.ok.injEq, reduceCtorEq] at he
      | false =>
          simp only [press, hk, hheld, Bool.false_eq_true, if_false, Except.ok.injEq,
            Option.some.injEq] at he
          rw [← he]
          exact hheld

theorem changedBy_of_release (p : Keypad) {number : Int} {e : KeyEvent}
    (he : p.release number = .ok (some e)) : p.changedBy e := by
  cases hk : key? number with
  | none =>
      simp only [release, hk, reduceCtorEq] at he
  | some k =>
      cases hheld : p.holds k with
      | true =>
          simp only [release, hk, hheld, if_true, Except.ok.injEq, Option.some.injEq] at he
          rw [← he]
          exact hheld
      | false =>
          simp only [release, hk, hheld, Bool.false_eq_true, if_false, Except.ok.injEq,
            reduceCtorEq] at he

theorem genuine_append (p : Keypad) (es es' : List KeyEvent) :
    p.Genuine (es ++ es') ↔ p.Genuine es ∧ (p.afterAll es).Genuine es' := by
  induction es generalizing p with
  | nil =>
      constructor
      · intro h
        exact ⟨trivial, h⟩
      · rintro ⟨_, h⟩
        exact h
  | cons e rest ih =>
      constructor
      · rintro ⟨he, h⟩
        obtain ⟨hrest, hlast⟩ := (ih (p.after e)).1 h
        exact ⟨⟨he, hrest⟩, hlast⟩
      · rintro ⟨⟨he, hrest⟩, hlast⟩
        exact ⟨he, (ih (p.after e)).2 ⟨hrest, hlast⟩⟩

/-! ## Releases and presses of many keys -/

theorem genuine_ups {ks : List Key} (hks : ks.Nodup) (p : Keypad)
    (hheld : ∀ k ∈ ks, p.holds k = true) : p.Genuine (ks.map .up) := by
  induction ks generalizing p with
  | nil => trivial
  | cons j rest ih =>
      obtain ⟨hnew, hrest⟩ := List.nodup_cons.1 hks
      refine ⟨hheld j List.mem_cons_self, ih hrest _ ?_⟩
      intro k hk
      have hne : k ≠ j := fun e => hnew (e ▸ hk)
      rw [holds_after_up, if_neg hne]
      exact hheld k (List.mem_cons_of_mem _ hk)

theorem genuine_downs {ks : List Key} (hks : ks.Nodup) (p : Keypad)
    (hup : ∀ k ∈ ks, p.holds k = false) : p.Genuine (ks.map .down) := by
  induction ks generalizing p with
  | nil => trivial
  | cons j rest ih =>
      obtain ⟨hnew, hrest⟩ := List.nodup_cons.1 hks
      refine ⟨hup j List.mem_cons_self, ih hrest _ ?_⟩
      intro k hk
      have hne : k ≠ j := fun e => hnew (e ▸ hk)
      rw [holds_after_down, if_neg hne]
      exact hup k (List.mem_cons_of_mem _ hk)

theorem holds_ups {p : Keypad} {k : Key} (hup : p.holds k = false) (ks : List Key) :
    (p.afterAll (ks.map .up)).holds k = false := by
  induction ks generalizing p with
  | nil => exact hup
  | cons j rest ih =>
      refine ih (p := p.after (.up j)) ?_
      rw [holds_after_up, hup, ite_self]

/-! ## Plans -/

theorem val_of_key? {number : Int} {k : Key} (hk : key? number = some k) :
    (k.val : Int) = number := by
  by_cases hrange : 0 ≤ number ∧ number < 16
  · rw [key?, dif_pos hrange] at hk
    obtain rfl := Option.some.inj hk
    exact Int.toNat_of_nonneg hrange.1
  · rw [key?, dif_neg hrange] at hk
    cases hk

theorem isHeld_of_key? {p : Keypad} {number : Int} {k : Key} (hk : key? number = some k) :
    p.isHeld number = p.holds k := by
  rw [isHeld, hk]

theorem isHeld_of_none {p : Keypad} {number : Int} (hk : key? number = none) :
    p.isHeld number = false := by
  rw [isHeld, hk]

/-- The key with a number is held if there is such a key, and it is. -/
theorem isHeld_iff (p : Keypad) (number : Int) :
    p.isHeld number = true ↔ ∃ k : Key, (k.val : Int) = number ∧ p.holds k = true := by
  constructor
  · intro hheld
    cases hk : key? number with
    | none =>
        rw [isHeld_of_none hk] at hheld
        exact nomatch hheld
    | some k =>
        rw [isHeld_of_key? hk] at hheld
        exact ⟨k, val_of_key? hk, hheld⟩
  · rintro ⟨k, rfl, hholds⟩
    rw [isHeld_of_key? (key?_val k)]
    exact hholds

theorem key?_eq_none_iff (number : Int) : key? number = none ↔ ¬ (0 ≤ number ∧ number < 16) := by
  rw [key?]
  split
  · exact ⟨fun hn => absurd hn (Option.some_ne_none _), fun hout => absurd ‹_› hout⟩
  · exact ⟨fun _ => ‹_›, fun _ => rfl⟩

def isKey (number : Int) : Bool := (key? number).isSome

theorem isKey_iff (number : Int) : isKey number = true ↔ 0 ≤ number ∧ number < 16 := by
  rw [isKey, ← Option.not_isNone, Bool.not_eq_true', Bool.eq_false_iff, ne_eq,
    Option.isNone_iff_eq_none, key?_eq_none_iff, not_not]

/-- The presses of a plan are of the keys that are up, as far as the numbers are keys; the first
    that is none is refused. -/
theorem presses_eq (p : Keypad) (numbers : List Int) :
    p.presses numbers
      = ((((numbers.takeWhile isKey).filterMap key?).filter fun k => !p.holds k).map .down,
          (numbers.find? fun number => !isKey number).map .mk) := by
  induction numbers with
  | nil => rfl
  | cons number rest ih =>
      cases hk : key? number with
      | none =>
          have hno : isKey number = false := congrArg Option.isSome hk
          simp [presses, press, hk, hno]
      | some k =>
          have hyes : isKey number = true := congrArg Option.isSome hk
          cases hheld : p.holds k <;> simp [presses, press, hk, hheld, hyes, ih]

theorem nodup_eraseDups (numbers : List Int) : numbers.eraseDups.Nodup := by
  -- The rest of the list loses the head before it is gone through, so the length decides.
  induction hlen : numbers.length using Nat.strongRecOn generalizing numbers with
  | ind n ih =>
      cases numbers with
      | nil => exact List.nodup_nil
      | cons number rest =>
          rw [List.eraseDups_cons, List.nodup_cons]
          constructor
          · intro hmem
            have hkept := (List.mem_filter.1 (List.mem_eraseDups.1 hmem)).2
            rw [beq_self_eq_true] at hkept
            exact nomatch hkept
          · have hshort := List.length_filter_le (fun b => !b == number) rest
            rw [List.length_cons] at hlen
            exact ih _ (by omega) _ rfl

theorem nodup_ascending (numbers : List Int) : (ascending numbers).Nodup :=
  (List.mergeSort_perm _ _).nodup_iff.2 (nodup_eraseDups numbers)

/-- **PLANS ARE GENUINE.** -/
theorem genuine_plan (p : Keypad) (wanted : List Int) : p.Genuine (p.plan wanted).1 := by
  have hkeys : keys.Nodup := by decide
  have hups : p.Genuine (p.releases wanted) := by
    refine genuine_ups (hkeys.sublist List.filter_sublist) p ?_
    intro k hk
    exact (Bool.and_eq_true_iff.1 (List.mem_filter.1 hk).2).1
  have hwanted : (((ascending wanted).takeWhile isKey).filterMap key?).Nodup := by
    refine List.Nodup.filterMap ?_ ((nodup_ascending wanted).sublist (List.takeWhile_sublist _))
    intro a b k ha hb
    rw [← val_of_key? ha, ← val_of_key? hb]
  show p.Genuine (p.releases wanted ++ (p.presses (ascending wanted)).1)
  rw [presses_eq, genuine_append]
  refine ⟨hups, genuine_downs (hwanted.sublist List.filter_sublist) _ ?_⟩
  intro k hk
  exact holds_ups (Bool.not_eq_true' _ ▸ (List.mem_filter.1 hk).2) _

/-! ## The events about one key -/

/-- The events about the key with a number. -/
def about (number : Int) (es : List KeyEvent) : List KeyEvent :=
  es.filter fun e => (e.key.val : Int) == number

theorem about_append (number : Int) (es es' : List KeyEvent) :
    about number (es ++ es') = about number es ++ about number es' :=
  List.filter_append es es'

theorem about_cons_self (e : KeyEvent) (es : List KeyEvent) :
    about e.key.val (e :: es) = e :: about e.key.val es :=
  List.filter_cons_of_pos (beq_self_eq_true _)

theorem about_cons_of_ne {e : KeyEvent} {k : Key} (hne : e.key ≠ k) (es : List KeyEvent) :
    about k.val (e :: es) = about k.val es := by
  refine List.filter_cons_of_neg fun hsame => hne ?_
  exact Fin.ext (Int.ofNat_inj.1 (eq_of_beq hsame))

theorem key_of_mem_about {e : KeyEvent} {k : Key} {es : List KeyEvent}
    (he : e ∈ about k.val es) : e.key = k :=
  Fin.ext (Int.ofNat_inj.1 (eq_of_beq (List.mem_filter.1 he).2))

theorem about_of_key?_eq_none {number : Int} (hk : key? number = none) (es : List KeyEvent) :
    about number es = [] := by
  refine List.filter_eq_nil_iff.2 fun e _ hsame => ?_
  rw [← eq_of_beq hsame, key?_val] at hk
  exact nomatch hk

theorem holds_after_of_ne (p : Keypad) {e : KeyEvent} {k : Key} (hne : e.key ≠ k) :
    (p.after e).holds k = p.holds k := by
  cases e with
  | down j => exact (p.holds_after_down j k).trans (if_neg (Ne.symm hne))
  | up j => exact (p.holds_after_up j k).trans (if_neg (Ne.symm hne))

theorem changedBy_after_of_ne (p : Keypad) {e e' : KeyEvent} (hne : e.key ≠ e'.key) :
    (p.after e).changedBy e' ↔ p.changedBy e' := by
  have hholds := p.holds_after_of_ne hne
  cases e' with
  | down k => exact iff_of_eq (congrArg (· = false) hholds)
  | up k => exact iff_of_eq (congrArg (· = true) hholds)

/-- What an event has changed it does not change again. -/
theorem not_changedBy_after (p : Keypad) (e : KeyEvent) : ¬ (p.after e).changedBy e := by
  cases e with
  | down k =>
      show ¬ (p.after (.down k)).holds k = false
      rw [holds_after_down, if_pos rfl]
      exact Bool.noConfusion
  | up k =>
      show ¬ (p.after (.up k)).holds k = true
      rw [holds_after_up, if_pos rfl]
      exact Bool.noConfusion

/-- **GENUINE EVENTS ABOUT ONE KEY TAKE TURNS**, and the first of them changes the key. -/
theorem turns_of_genuine {p : Keypad} {es : List KeyEvent} (h : p.Genuine es) (k : Key) :
    (about k.val es).IsChain (· ≠ ·) ∧ ∀ e ∈ (about k.val es).head?, p.changedBy e := by
  induction es generalizing p with
  | nil => exact ⟨List.IsChain.nil, fun e he => nomatch he⟩
  | cons e rest ih =>
      obtain ⟨hchange, hrest⟩ := h
      obtain ⟨hchain, hhead⟩ := ih hrest
      by_cases hkey : e.key = k
      · subst hkey
        rw [about_cons_self]
        refine ⟨List.isChain_cons.2 ⟨?_, hchain⟩, ?_⟩
        · rintro e' he' rfl
          exact p.not_changedBy_after e (hhead e he')
        · rintro e' he'
          obtain rfl : e = e' := Option.some.inj he'
          exact hchange
      · rw [about_cons_of_ne hkey]
        refine ⟨hchain, fun e' he' => ?_⟩
        have hkey' : e'.key = k := key_of_mem_about (List.mem_of_mem_head? he')
        exact (p.changedBy_after_of_ne (by rw [hkey']; exact hkey)).1 (hhead e' he')

theorem afterAll_append (p : Keypad) (es es' : List KeyEvent) :
    p.afterAll (es ++ es') = (p.afterAll es).afterAll es' :=
  List.foldl_append

/-- **THE LAST EVENT TELLS** whether its key is held. -/
theorem holds_afterAll (p : Keypad) (es : List KeyEvent) (k : Key) :
    (p.afterAll es).holds k =
      match (about k.val es).getLast? with
      | none          => p.holds k
      | some (.down _) => true
      | some (.up _)   => false := by
  induction es using List.reverseRecOn with
  | nil => rfl
  | append_singleton es e ih =>
      rw [afterAll_append, about_append]
      show ((p.afterAll es).after e).holds k = _
      by_cases hkey : e.key = k
      · subst hkey
        have hlast : about e.key.val [e] = [e] := about_cons_self e []
        rw [hlast, List.getLast?_concat]
        cases e with
        | down j => exact (holds_after_down _ j j).trans (if_pos rfl)
        | up j => exact (holds_after_up _ j j).trans (if_pos rfl)
      · have hlast : about k.val [e] = [] := about_cons_of_ne hkey []
        rw [hlast, List.append_nil, holds_after_of_ne _ hkey, ih]

end Chip8.Keypad
