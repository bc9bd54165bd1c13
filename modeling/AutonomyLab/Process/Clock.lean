import Mathlib.Algebra.Order.Ring.Rat

/-!
# A monotone clock

Time passes between any two events of a program, in amounts nothing is known of, and a
program that sleeps wakes up no earlier than it asked for.

* `Clock.next` — the next event, such as a read of the clock.
* `Clock.sleep` — a sleep.
-/

namespace Process

/-- How much time passes before each event. -/
structure Clock where
  delay : ℕ → ℚ
  nonneg : ∀ n, 0 ≤ delay n

/-- A moment of a run: its time, and the number of the events before it. -/
structure Instant where
  now : ℚ
  events : ℕ

namespace Clock

variable (c : Clock) (t : Instant)

/-- The next event happens; a clock that is read shows the time of the event. -/
def next : Instant := ⟨t.now + c.delay t.events, t.events + 1⟩

/-- `sleep(seconds)`. -/
def sleep (seconds : ℚ) : Instant := c.next ⟨t.now + seconds, t.events⟩

theorem now_le_next : t.now ≤ (c.next t).now := le_add_of_nonneg_right (c.nonneg t.events)

theorem le_sleep (seconds : ℚ) : t.now + seconds ≤ (c.sleep t seconds).now := c.now_le_next _

end Clock

end Process
