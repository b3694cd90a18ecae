/-!
# Gates

A gate limits how often something happens, by the times its caller reports, in
milliseconds. It fires when strictly more than its interval has passed since the
time it holds, and then holds the time at which it fired, so a caller that falls
behind does not catch up. The first time reported is only held. Time that goes
backwards never fires a gate.
-/

namespace Chip8

/-- A limiter of rates. -/
structure Gate where
  /-- The milliseconds that must be exceeded between two firings. -/
  interval : Nat
  /-- The time from which the interval counts, if one was reported. -/
  since : Option Nat
  deriving DecidableEq

namespace Gate

/-- A gate to which no time was reported. -/
def ofInterval (interval : Nat) : Gate := ⟨interval, none⟩

/-- Forget the time held. -/
def forget (g : Gate) : Gate := { g with since := none }

/-- Report a time without asking whether the gate fires. -/
def arm (g : Gate) (now : Nat) : Gate :=
  match g.since with
  | none => { g with since := some now }
  | some _ => g

/-- Report a time, and ask whether the gate fires. -/
def poll (g : Gate) (now : Nat) : Bool × Gate :=
  match g.since with
  | none => (false, { g with since := some now })
  | some since =>
    if g.interval < now - since then (true, { g with since := some now }) else (false, g)

@[simp] theorem interval_arm (g : Gate) (now : Nat) : (g.arm now).interval = g.interval := by
  unfold arm
  split <;> rfl

@[simp] theorem interval_poll (g : Gate) (now : Nat) : (g.poll now).2.interval = g.interval := by
  unfold poll
  split
  · rfl
  · split <;> rfl

/-- A gate holds the first time that is reported to it. -/
theorem poll_of_free {g : Gate} (free : g.since = none) (now : Nat) :
    g.poll now = (false, { g with since := some now }) := by
  simp only [poll, free]

/-- A gate fires when more than its interval has passed, -/
theorem poll_of_due {g : Gate} {since now : Nat} (held : g.since = some since)
    (due : since + g.interval < now) : g.poll now = (true, { g with since := some now }) := by
  have passed : g.interval < now - since := by omega
  simp only [poll, held, passed, if_true]

/-- and stays as it is until then. -/
theorem poll_of_early {g : Gate} {since now : Nat} (held : g.since = some since)
    (early : now ≤ since + g.interval) : g.poll now = (false, g) := by
  have passed : ¬g.interval < now - since := by omega
  simp only [poll, held, passed, if_false]

/-- A gate that fires holds the time at which it fired. -/
theorem poll_of_fires {g : Gate} {now : Nat} (h : (g.poll now).1 = true) :
    (g.poll now).2 = { g with since := some now } := by
  cases hg : g.since with
  | none => simp [poll, hg] at h
  | some since =>
    by_cases due : g.interval < now - since
    · simp only [poll, hg, due, if_true]
    · simp [poll, hg, due] at h

end Gate

end Chip8
