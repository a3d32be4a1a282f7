/-
This file holds the timers of a rehearsal, which decide who goes on first when several are due at
one time. Timers are kept on a wheel of six rings, each of 64 slots; a slot of the first ring is
one tick, and one of any other ring a whole turn of the ring before it. A timer is booked into the
finest slot that the wheel has not begun to turn into. When the wheel comes to a slot, those of its
timers that are due go off in the order in which they were booked, and the others are booked anew.
Putting a timer off leaves it in its slot until the wheel comes there; so a timer that was put off
may stand behind one that was set later. Nothing that is due is left on the wheel.
-/

namespace SecretRenewal.Rehearsal

/-- A timer on the wheel. -/
structure Timer (owner : Type) where
  /-- Who waits for it. -/
  owner : owner
  /-- When it goes off. -/
  due : Nat
  /-- The time by which it was booked into its slot: a timer that was put off is due later. -/
  booked : Nat

/-- How many ticks a slot of a ring covers. -/
def slotSpan (ring : Nat) : Nat := Nat.pow 64 ring

/-- The ring that a time belongs to: the first one that reaches it within the turn it is in. -/
def ringOf (now time : Nat) : Nat :=
  ((List.range 5).find? fun ring =>
    now / slotSpan (ring + 1) == time / slotSpan (ring + 1)).getD 5

/-- When the wheel comes to the slot that a time belongs to. The last ring turns over and over, so
times far away share its slots with nearer ones. -/
def slotTime (now time : Nat) : Nat :=
  let ring := ringOf now time
  let slot := time / slotSpan ring % 64
  let begun := now / slotSpan (ring + 1) * slotSpan (ring + 1) + slot * slotSpan ring
  if begun ≤ now then begun + slotSpan (ring + 1) else begun

/-- The timers that are set, in the order in which they were booked. -/
structure Wheel (owner : Type) where
  /-- The time up to which the wheel has turned. -/
  now : Nat := 0
  /-- The timers. -/
  timers : List (Timer owner) := []

namespace Wheel

variable {owner : Type}

/-- Whether someone's timer is on the wheel. -/
def holds [DecidableEq owner] (wheel : Wheel owner) (who : owner) : Bool :=
  wheel.timers.any (·.owner = who)

/-- Takes everyone's timers off the wheel but for some. -/
def keep (wheel : Wheel owner) (keeps : owner → Bool) : Wheel owner :=
  { wheel with timers := wheel.timers.filter fun timer => keeps timer.owner }

/-- Takes the timer of someone off the wheel. -/
def remove [DecidableEq owner] (wheel : Wheel owner) (who : owner) : Wheel owner :=
  wheel.keep (· ≠ who)

/-- Sets the timer of someone. One that is set already is put off where it is, and booked anew if it
shall go off sooner. A timer that is due at once needs no place on the wheel. -/
def set [DecidableEq owner] (wheel : Wheel owner) (who : owner) (due : Nat) : Wheel owner :=
  let isPutOff (timer : Timer owner) := timer.owner == who && decide (timer.due ≤ due)
  if wheel.timers.any isPutOff then
    { wheel with timers := wheel.timers.map fun timer =>
        if timer.owner = who then { timer with due } else timer }
  else if due ≤ wheel.now then wheel.remove who
  else { wheel with timers := (wheel.remove who).timers ++ [⟨who, due, due⟩] }

/-- Turns the wheel from slot to slot up to a time, so many slots at most. Gives whoever's timers
went off on the way, in order. -/
def turn (time : Nat) : Nat → Wheel owner → List owner × Wheel owner
  | 0, wheel => ([], wheel)
  | stops + 1, wheel =>
    match (wheel.timers.map fun timer => slotTime wheel.now timer.booked).min? with
    | none => ([], wheel)
    | some stop =>
      if time < stop then ([], wheel)
      else
        let (here, elsewhere) :=
          wheel.timers.partition fun timer => slotTime wheel.now timer.booked == stop
        let (fired, kept) := here.partition (·.due ≤ stop)
        let rebooked := kept.map fun timer => { timer with booked := timer.due }
        let (later, turned) := turn time stops ⟨stop, elsewhere ++ rebooked⟩
        (fired.map (·.owner) ++ later, turned)

/-- How many slots a timer passes until a time at most: one of each ring, and one more for every
turn of the last ring. A timer that was put off passes them once more. -/
def stopsUntil (wheel : Wheel owner) (time : Nat) : Nat :=
  wheel.timers.length * (2 * 6 + (time - wheel.now) / slotSpan 6)

/-- Turns the wheel to a time. Gives everyone whose timer is due by then, in the order in which they
went off. -/
def turnTo (wheel : Wheel owner) (time : Nat) : List owner × Wheel owner :=
  let (fired, turned) := turn time (wheel.stopsUntil time) wheel
  let (late, kept) := turned.timers.partition (·.due ≤ time)
  (fired ++ late.map (·.owner), ⟨time, kept⟩)

end Wheel

end SecretRenewal.Rehearsal
