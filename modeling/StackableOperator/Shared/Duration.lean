import Mathlib

/-!
# Durations

A `Duration` consists of whole seconds and of nanoseconds within a second. Its text lists the units
that occur in it, down to milliseconds.
-/

namespace StackableOperator

/-- A span of time: whole seconds, and nanoseconds within a second. -/
structure Duration where
  secs : ℕ
  nanos : ℕ
  secs_lt : secs < 2 ^ 64 := by decide
  nanos_lt : nanos < 10 ^ 9 := by decide
  deriving DecidableEq, Repr

namespace Duration

def asSecs (duration : Duration) : ℕ := duration.secs

def asNanos (duration : Duration) : ℕ := 10 ^ 9 * duration.secs + duration.nanos

theorem zero_lt_nanos : 0 < 10 ^ 9 := by decide

theorem zero_lt_secs : 0 < 2 ^ 64 := by decide

def fromSecs (secs : ℕ) (h : secs < 2 ^ 64 := by decide) : Duration where
  secs := secs
  nanos := 0
  secs_lt := h

/-- `div_duration_f32`, as an exact quotient -/
def divDuration (duration other : Duration) : ℚ := duration.asNanos / other.asNanos

/-- The whole seconds are a lower bound. -/
theorem mul_asSecs_le_asNanos (duration : Duration) :
    10 ^ 9 * duration.asSecs ≤ duration.asNanos :=
  Nat.le_add_right _ _

/-- The units with their texts and their milliseconds, in the order in which they are written. -/
def units : List (String × ℕ) :=
  [("d", 24 * 60 * 60 * 1000), ("h", 60 * 60 * 1000), ("m", 60 * 1000), ("s", 1000), ("ms", 1)]

def asMillis (duration : Duration) : ℕ := duration.asNanos / 10 ^ 6

/-- The text of these milliseconds, from the given unit on. -/
def displayMillis (millis : ℕ) : List (String × ℕ) → String
  | [] => ""
  | (unit, factor) :: rest =>
    let whole := millis / factor
    (if whole > 0 then toString whole ++ unit else "") ++ displayMillis (millis % factor) rest

def display (duration : Duration) : String :=
  if duration.asNanos = 0 then "0s" else displayMillis duration.asMillis units

example : display { secs := 5400, nanos := 3000000 } = "1h30m3ms" := by decide

end Duration

end StackableOperator
