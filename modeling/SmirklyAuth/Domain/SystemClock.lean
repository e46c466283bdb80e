import Mathlib.Data.Int.Init
import SmirklyAuth.Lib.SignedWord

/-!
# `SmirklyAuth.Domain.SystemClock`: time points and durations

A `system_clock::time_point` counts nanoseconds since the epoch in a signed 64-bit integer. A
`std::chrono::seconds` operand is converted to nanoseconds before it is added or subtracted, so
each of the two operations has two results that have to fit. Signed overflow is the two's
complement result that the target gives.

A `TIMESTAMPTZ` column has microseconds. The repositories bind a time point as `TimePointTz`,
and the driver drops the rest of the last microsecond. The model writes the value of a column
as the time point that the driver reads from it, so a column and a clock reading have one unit.
-/

set_option autoImplicit false

namespace SmirklyAuth

open SignedWord (Fits wrap)

/-- A time point in nanoseconds. -/
abbrev Time := Int

/-- A `std::chrono::seconds` duration. -/
abbrev Seconds := Int

/-- The nanoseconds of a duration. -/
def Seconds.nanos (d : Seconds) : Int := d * 1000000000

/-- A positive duration has nanoseconds. -/
theorem Seconds.nanos_pos {d : Int} (h : 0 < d) : 0 < Seconds.nanos d := by
  show 0 < d * 1000000000
  omega

/-- The conversion of `std::chrono::seconds` to nanoseconds. -/
def Seconds.toNanos (d : Seconds) : Int := wrap 64 d.nanos

namespace Time

/-- `time_point + std::chrono::seconds`. -/
def plus (t : Time) (d : Seconds) : Time := wrap 64 (t + d.toNanos)

/-- `time_point - std::chrono::seconds`. -/
def minus (t : Time) (d : Seconds) : Time := wrap 64 (t - d.toNanos)

/-- `TimePointTz{t}` as the column holds it: the whole microseconds of the time point. -/
def timePointTz (t : Time) : Time := t / 1000 * 1000

variable {t : Time} {d : Seconds}

/-! ### Sums and differences in range -/

/-- Neither result of `time_point + std::chrono::seconds` overflows. -/
def FitsPlus (t : Time) (d : Seconds) : Prop := Fits 64 d.nanos ∧ Fits 64 (t + d.nanos)

instance (t : Time) (d : Seconds) : Decidable (FitsPlus t d) :=
  inferInstanceAs (Decidable (_ ∧ _))

/-- The target adds exactly when the nanoseconds and the sum fit. -/
theorem plus_eq (h : FitsPlus t d) : t.plus d = t + d.nanos := by
  unfold plus Seconds.toNanos
  rw [SignedWord.wrap_eq_self h.1, SignedWord.wrap_eq_self h.2]

/-- Neither result of `time_point - std::chrono::seconds` overflows. -/
def FitsMinus (t : Time) (d : Seconds) : Prop := Fits 64 d.nanos ∧ Fits 64 (t - d.nanos)

instance (t : Time) (d : Seconds) : Decidable (FitsMinus t d) :=
  inferInstanceAs (Decidable (_ ∧ _))

/-- The target subtracts exactly when the nanoseconds and the difference fit. -/
theorem minus_eq (h : FitsMinus t d) : t.minus d = t - d.nanos := by
  unfold minus Seconds.toNanos
  rw [SignedWord.wrap_eq_self h.1, SignedWord.wrap_eq_self h.2]

/-- The sum that the target computes is never later than the exact one: what does not fit comes
out smaller. -/
theorem plus_le {t d : Int} (ht : Fits 64 t) (hd : 0 ≤ d) : plus t d ≤ t + Seconds.nanos d := by
  unfold plus Seconds.toNanos
  rw [SignedWord.wrap_add_wrap]
  refine SignedWord.wrap_le ?_
  have hlow := ht.1
  show -2 ^ 64 ≤ 2 * (t + d * 1000000000)
  omega

/-! ### Clock readings -/

end Time

/-- A clock reading between the first moments of 2020 and of 2100. -/
structure ClockReading (now : Time) : Prop where
  low : 1577836800 * 1000000000 ≤ now
  high : now ≤ 4102444800 * 1000000000

instance (now : Time) : Decidable (ClockReading now) :=
  decidable_of_iff (1577836800 * 1000000000 ≤ now ∧ now ≤ 4102444800 * 1000000000)
    ⟨fun h => ⟨h.1, h.2⟩, fun h => ⟨h.low, h.high⟩⟩

/-- The longest window: its nanoseconds fit. -/
def longestWindow : Int := 9223372036

/-- The longest time after the last clock reading. -/
def longestDeadline : Int := 5120927236

namespace ClockReading

/-- The first and the last clock reading. -/
theorem ends : ClockReading (1577836800 * 1000000000) ∧ ClockReading (4102444800 * 1000000000) :=
  ⟨⟨by decide, by decide⟩, ⟨by decide, by decide⟩⟩

variable {now : Int} {d : Int}

/-- A window is subtracted exactly when its nanoseconds fit. -/
theorem fits_window (h : ClockReading now) (hd : 0 ≤ d) (hle : d ≤ longestWindow) :
    Time.FitsMinus now d := by
  have hlow : 1577836800 * 1000000000 ≤ now := h.low
  have hhigh : now ≤ 4102444800 * 1000000000 := h.high
  unfold longestWindow at hle
  unfold Time.FitsMinus Seconds.nanos
  exact ⟨⟨by omega, by omega⟩, ⟨by omega, by omega⟩⟩

/-- A deadline that is in range at the last clock reading is in range at all. -/
theorem fits_deadline (h : ClockReading now) (hd : 0 ≤ d) (hle : d ≤ longestDeadline) :
    Time.FitsPlus now d := by
  have hlow : 1577836800 * 1000000000 ≤ now := h.low
  have hhigh : now ≤ 4102444800 * 1000000000 := h.high
  unfold longestDeadline at hle
  unfold Time.FitsPlus Seconds.nanos
  exact ⟨⟨by omega, by omega⟩, ⟨by omega, by omega⟩⟩

/-- The start of a window. -/
theorem minus_eq (h : ClockReading now) (hd : 0 ≤ d) (hle : d ≤ longestWindow) :
    Time.minus now d = now - Seconds.nanos d :=
  Time.minus_eq (h.fits_window hd hle)

/-- A deadline. -/
theorem plus_eq (h : ClockReading now) (hd : 0 ≤ d) (hle : d ≤ longestDeadline) :
    Time.plus now d = now + Seconds.nanos d :=
  Time.plus_eq (h.fits_deadline hd hle)

end ClockReading

namespace Time

/-! ### Whole microseconds -/

/-- The column is less than a microsecond earlier. -/
theorem lt_timePointTz_add (t : Int) : t < timePointTz t + 1000 := by
  show t < t / 1000 * 1000 + 1000
  omega

/-- Binding keeps the order. -/
theorem timePointTz_mono {t t' : Int} (h : t ≤ t') : timePointTz t ≤ timePointTz t' := by
  show t / 1000 * 1000 ≤ t' / 1000 * 1000
  omega

/-- A value that was read from a column is bound as it is. -/
@[simp]
theorem timePointTz_timePointTz (t : Int) : timePointTz (timePointTz t) = timePointTz t := by
  show t / 1000 * 1000 / 1000 * 1000 = t / 1000 * 1000
  omega

/-- Whole seconds pass through the binding. -/
theorem timePointTz_add_nanos (t : Int) (d : Seconds) :
    timePointTz (t + d.nanos) = timePointTz t + d.nanos := by
  show (t + d * 1000000000) / 1000 * 1000 = t / 1000 * 1000 + d * 1000000000
  omega

/-- Whole microseconds pass through the binding. -/
theorem timePointTz_add_micros (t : Int) (n : Nat) :
    timePointTz (t + (n * 1000 : Nat)) = timePointTz t + (n * 1000 : Nat) := by
  show (t + ((n * 1000 : Nat) : Int)) / 1000 * 1000 = t / 1000 * 1000 + ((n * 1000 : Nat) : Int)
  omega

/-- Whole seconds pass through the binding. -/
theorem timePointTz_sub_nanos (t : Int) (d : Seconds) :
    timePointTz (t - d.nanos) = timePointTz t - d.nanos := by
  show (t - d * 1000000000) / 1000 * 1000 = t / 1000 * 1000 - d * 1000000000
  omega

/-- A column that is later than the bound clock reading is later than the clock reading. -/
theorem lt_of_timePointTz_lt {t t' : Int} (h : timePointTz t < t')
    (hwhole : timePointTz t' = t') : t < t' := by
  change t / 1000 * 1000 < t' at h
  change t' / 1000 * 1000 = t' at hwhole
  omega

end Time

end SmirklyAuth
