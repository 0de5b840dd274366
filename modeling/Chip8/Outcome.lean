/-! # Outcomes

    An operation on a state reports things while it works and may fail on the way.  Its
    outcome holds all three: the state it reached, which a failure leaves as it stood at
    that moment; the reports in order; and the cause of the failure, if there was one.
    Operations are put in sequence by `andThen`, which stops at the first failure; a single
    access that may be refused becomes an outcome by `given` and `change`. -/

namespace Chip8

/-- What an operation leaves behind. -/
structure Outcome (ε ω σ : Type) where
  state : σ
  reports : List ω
  failure : Option ε
  deriving DecidableEq, Repr

namespace Outcome

variable {ε ε' ω ω' σ τ α : Type}

/-- Nothing to report and nothing went wrong. -/
def done (s : σ) : Outcome ε ω σ := ⟨s, [], none⟩

/-- A failure that changes nothing. -/
def fail (s : σ) (e : ε) : Outcome ε ω σ := ⟨s, [], some e⟩

/-- Go on with a value, if there is one; else fail, which changes nothing. -/
def given (s : σ) (x : Except ε α) (next : α → Outcome ε ω σ) : Outcome ε ω σ :=
  match x with
  | .error e => fail s e
  | .ok a    => next a

/-- A change of the state, if it can be made. -/
def change (s : σ) (x : Except ε σ) : Outcome ε ω σ := given s x done

/-- Go on from the state reached, unless it was reached by a failure. -/
def andThen (o : Outcome ε ω σ) (next : σ → Outcome ε ω σ) : Outcome ε ω σ :=
  match o.failure with
  | some _ => o
  | none   =>
      let rest := next o.state
      ⟨rest.state, o.reports ++ rest.reports, rest.failure⟩

/-- Go on from the state reached, also after a failure, which stays the outcome's failure. -/
def lastly (o : Outcome ε ω σ) (next : σ → Outcome ε ω σ) : Outcome ε ω σ :=
  let rest := next o.state
  ⟨rest.state, o.reports ++ rest.reports, o.failure.or rest.failure⟩

/-- Change the state reached. -/
def mapState (f : σ → τ) (o : Outcome ε ω σ) : Outcome ε ω τ :=
  ⟨f o.state, o.reports, o.failure⟩

/-- Put the reports into other words. -/
def mapReports (f : ω → List ω') (o : Outcome ε ω σ) : Outcome ε ω' σ :=
  ⟨o.state, o.reports.flatMap f, o.failure⟩

/-- Put the failure into other words. -/
def mapFailure (f : ε → ε') (o : Outcome ε ω σ) : Outcome ε' ω σ :=
  ⟨o.state, o.reports, o.failure.map f⟩

/-- Report something before anything else. -/
def after (first : List ω) (o : Outcome ε ω σ) : Outcome ε ω σ :=
  ⟨o.state, first ++ o.reports, o.failure⟩

/-! ## Sequencing -/

theorem done_andThen (s : σ) (next : σ → Outcome ε ω σ) : (done s).andThen next = next s := rfl

theorem andThen_done (o : Outcome ε ω σ) : o.andThen done = o := by
  obtain ⟨s, ws, f⟩ := o
  cases f <;> simp [andThen, done]

/-- What has succeeded goes on with what comes next. -/
theorem andThen_of_success {o : Outcome ε ω σ} (hok : o.failure = none)
    (next : σ → Outcome ε ω σ) : o.andThen next = (next o.state).after o.reports := by
  simp only [andThen, hok, after]

/-- A sequence that does not fail gets to its end. -/
theorem of_andThen {o : Outcome ε ω σ} {next : σ → Outcome ε ω σ}
    (hok : (o.andThen next).failure = none) :
    o.failure = none ∧ (next o.state).failure = none ∧
      (o.andThen next).state = (next o.state).state := by
  cases he : o.failure with
  | none =>
      simp only [andThen, he] at hok ⊢
      exact ⟨trivial, hok, trivial⟩
  | some e =>
      simp only [andThen, he] at hok
      exact absurd hok (Option.some_ne_none e)

/-- How a sequence is grouped does not matter. -/
theorem andThen_assoc (o : Outcome ε ω σ) (f g : σ → Outcome ε ω σ) :
    (o.andThen f).andThen g = o.andThen fun s => (f s).andThen g := by
  obtain ⟨s, ws, bad⟩ := o
  cases bad with
  | some e => rfl
  | none =>
      simp only [andThen]
      cases h : (f s).failure <;> simp [h]

end Outcome

/-! ## Results in sequence -/

/-- A sequence of results that succeeds is one of results that do. -/
theorem exists_of_bind {α β ε : Type} {first : Except ε α} {next : α → Except ε β} {b : β}
    (h : (first >>= next) = .ok b) : ∃ a, first = .ok a ∧ next a = .ok b := by
  cases first with
  | error e => exact nomatch h
  | ok a => exact ⟨a, rfl, h⟩

/-- So is one in which the first error would have been put into other words. -/
theorem exists_of_mapError_bind {α β ε ε' : Type} {first : Except ε α} {words : ε → ε'}
    {next : α → Except ε' β} {b : β} (h : (first.mapError words >>= next) = .ok b) :
    ∃ a, first = .ok a ∧ next a = .ok b := by
  cases first with
  | error e => exact nomatch h
  | ok a => exact ⟨a, rfl, h⟩

end Chip8
