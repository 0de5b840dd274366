import Chip8.Number.Quantity

/-!
# Square-wave tones

The waveform of a tone: samples of sixteen bits that are high for the first half of
each period and low for the rest.  Lengths are cut off to whole samples:

* the length in bytes is twice the rate times the duration, kept to 32 bits and even,
* the period is the rate over the frequency,
* the high part is fifty hundredths of the period.

A tone whose length cannot be computed cannot be made.  One whose period cannot be
computed, or has no whole sample, can be made but has no samples; this shows only when
the first one is asked for.
-/

namespace Chip8

/-- A tone: its frequency in hertz, its duration in seconds and its samples per second. -/
structure Tone where
  frequency : Quantity
  duration : Quantity
  rate : Quantity
  deriving Repr

namespace Tone

/-- Why a tone has no length or no samples. -/
inductive Error where
  /-- A length cannot be computed. -/
  | arithmetic (e : Quantity.Error)
  /-- The period has no whole sample. -/
  | noPeriod
  deriving DecidableEq, Repr

/-- The frequency of a tone that is asked for without one. -/
def defaultFrequency : Quantity := .whole 440

/-- The duration of a tone that is asked for without one. -/
def defaultDuration : Quantity := .real (.finite 1)

/-- The rate of a tone that is asked for without one. -/
def defaultRate : Quantity := .whole 44100

/-- The tone that a buzzer loops. -/
def looped (frequency : Quantity) : Tone := ⟨frequency, defaultDuration, defaultRate⟩

/-- The peak of the wave. -/
def peak : Int := 32767

/-- A length kept to 32 bits and even. -/
def even32 (length : Int) : Nat := ((length % 4294967296) / 2 * 2).toNat

/-- The length in bytes. -/
def byteCount (t : Tone) : Except Quantity.Error Nat := do
  let bytesPerSecond ← t.rate.times (.whole 2)
  let bytes ← bytesPerSecond.times t.duration
  return even32 (← bytes.wholePart)

/-- The length of a period in samples, negative for a negative frequency. -/
def period (t : Tone) : Except Quantity.Error Int := do
  (← t.rate.dividedBy t.frequency).wholePart

/-- The length of the high part of a period. -/
def highPart (period : Int) : Except Quantity.Error Int := do
  let scaled ← Quantity.times (.real (.finite 50)) (.whole period)
  (← scaled.dividedBy (.whole 100)).wholePart

/-- The sample at a place, given the period and its high part. -/
def sampleAt (period high : Int) (i : Nat) : Int :=
  if Int.fmod i period < high then peak else -peak

/-- The wave: the sample at each place. -/
def wave (t : Tone) : Except Error (Nat → Int) := do
  let p ← t.period.mapError .arithmetic
  let high ← (highPart p).mapError .arithmetic
  if p = 0 then throw .noPeriod
  return sampleAt p high

/-- The first samples, at most `limit` of them. -/
def samples (t : Tone) (limit : Nat) : Except Error (List Int) := do
  let bytes ← t.byteCount.mapError .arithmetic
  let count := min limit (bytes / 2)
  if count = 0 then return []
  return (List.range count).map (← t.wave)

end Tone

end Chip8
