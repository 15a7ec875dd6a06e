import ScriptGraph.Binary

/-!
# Durations

Spans of time in whole nanoseconds, up to a largest one of a little more than `2 ^ 64` seconds. Addition stops at the
largest duration, so it never goes back.
-/

namespace ScriptGraph

/-- Every duration has fewer nanoseconds than this: `2 ^ 64` seconds. -/
def Duration.limit : Nat := 18446744073709551616000000000

/-- A span of time in nanoseconds. -/
structure Duration where
  nanos : Nat
  le_max : nanos < Duration.limit

namespace Duration

/-- One second has this many nanoseconds. -/
def nanosPerSecond : Nat := 1000000000

/-- Nanoseconds of the largest duration. -/
def maxNanos : Nat := limit - 1

@[ext]
theorem ext {d e : Duration} (h : d.nanos = e.nanos) : d = e := by
  cases d; cases e; simp_all

/-- The duration of `n` nanoseconds, or the largest one. -/
def ofNanos (n : Nat) : Duration :=
  ⟨min n maxNanos, by simp only [maxNanos, limit]; omega⟩

/-- The duration of `n` nanoseconds, if there is one. -/
def ofNanos? (n : Nat) : Option Duration :=
  if h : n < limit then some ⟨n, h⟩ else none

instance : DecidableEq Duration := fun d e =>
  if h : d.nanos = e.nanos then .isTrue (Duration.ext h) else .isFalse (fun he => h (by rw [he]))

instance : Inhabited Duration := ⟨ofNanos 0⟩

instance : OfNat Duration 0 := ⟨ofNanos 0⟩

/-- The sum of two durations, or the largest one. -/
instance : Add Duration := ⟨fun d e => ofNanos (d.nanos + e.nanos)⟩

instance : LE Duration := ⟨fun d e => d.nanos ≤ e.nanos⟩

instance : LT Duration := ⟨fun d e => d.nanos < e.nanos⟩

instance (d e : Duration) : Decidable (d ≤ e) := inferInstanceAs (Decidable (d.nanos ≤ e.nanos))

instance (d e : Duration) : Decidable (d < e) := inferInstanceAs (Decidable (d.nanos < e.nanos))

theorem nanos_add (d e : Duration) : (d + e).nanos = min (d.nanos + e.nanos) maxNanos := rfl

theorem nanos_zero : (0 : Duration).nanos = 0 := rfl

/-- Whole seconds. -/
def seconds (d : Duration) : Nat := d.nanos / nanosPerSecond

/-- Nanoseconds beyond the whole seconds. -/
def subsecondNanos (d : Duration) : Nat := d.nanos % nanosPerSecond

/-- Whole milliseconds. -/
def millis (d : Duration) : Nat := d.nanos / 1000000

/-- The duration of a number of seconds, to the nearest nanosecond with a tie going to the even one. Negative numbers
and those beyond the largest duration have none. -/
def ofSeconds? : BinaryValue → Option Duration
  | .finite negative mantissa exponent =>
    if negative && mantissa != 0 then none
    else ofNanos? (roundToEven (mantissa * twoPow exponent.toNat * nanosPerSecond) (twoPow (-exponent).toNat))
  | _ => none

end Duration

end ScriptGraph
