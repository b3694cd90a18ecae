import Chip8.Proofs.Pace
import Mathlib.Data.List.InsertIdx

/-!
# What a gate takes no notice of

A gate is polled much more often than it fires, by callers whose times need not be in order. The
main statement is `Chip8.Gate.useless_calls_leave_no_trace`: a gate is what the first call and
the calls that fired have made of it (`Chip8.Gate.since_run_of_free`). Any other call can be left
out without a difference to the answers of the remaining ones, and calls that do not fire can be
put in, for a call that does not fire leaves a gate that holds a time as it is
(`Chip8.Gate.call_of_silent`), and what comes before and after such a call does not see it
(`Chip8.Gate.run_insertIdx`).

A gate reckons with numbers of any size. One that keeps its times in words of sixty-four bits
(`Chip8.RawGate`) comes to the same (`Chip8.RawGate.toGate_run`): it never adds the interval to
the time it holds, which could be too wide for a word, but subtracts that time from the one
reported, and stops at zero when time goes backwards.
-/

namespace Chip8

namespace Gate

/-! ### Calls -/

/-- A call to a gate, by which a time is reported. -/
inductive Call (Time : Type) where
  /-- The gate is not asked whether it fires. -/
  | arm (now : Time)
  /-- The gate is asked whether it fires. -/
  | poll (now : Time)
  deriving DecidableEq

namespace Call

variable {Time : Type}

/-- The time that a call reports. -/
def time : Call Time → Time
  | arm now | poll now => now

/-- The same call with its time told in another way. -/
def map {Time' : Type} (f : Time → Time') : Call Time → Call Time'
  | arm now => arm (f now)
  | poll now => poll (f now)

end Call

/-- Whether a gate fires at a call, and the gate after it. -/
def call (g : Gate) : Call Nat → Bool × Gate
  | .arm now => (false, g.arm now)
  | .poll now => g.poll now

/-- Whether a gate fires at each of some calls, and the gate after all of them. -/
def run (g : Gate) : List (Call Nat) → List Bool × Gate
  | [] => ([], g)
  | c :: calls => ((g.call c).1 :: ((g.call c).2.run calls).1, ((g.call c).2.run calls).2)

/-- The times of the calls at which a gate fires, by its answers. -/
def firings (calls : List (Call Nat)) (answers : List Bool) : List Nat :=
  ((calls.zip answers).filter Prod.snd).map fun answered => answered.1.time

variable {g : Gate} {c : Call Nat} {calls : List (Call Nat)} {since k : Nat}

/-! ### A single call -/

theorem report_call (g : Gate) (c : Call Nat) : g.Report c.time (g.call c).1 (g.call c).2 := by
  cases c with
  | arm now => exact .armed
  | poll now => exact .polled

theorem call_of_free (free : g.since = none) (c : Call Nat) :
    g.call c = (false, { g with since := some c.time }) := by
  obtain ⟨silent, taken⟩ := (report_call g c).of_free free
  exact Prod.ext silent taken

/-- **A call at which a gate does not fire leaves it as it is**, once it holds a time. -/
theorem call_of_silent (held : g.since = some since) (silent : (g.call c).1 = false) :
    g.call c = (false, g) :=
  Prod.ext silent ((report_call g c).of_silent held silent)

/-- A call at which it fires is late enough, and has the gate hold its time. -/
theorem call_of_fires (held : g.since = some since) (fires : (g.call c).1 = true) :
    since + g.interval < c.time ∧ g.call c = (true, { g with since := some c.time }) := by
  rcases (report_call g c).of_held held with ⟨-, late, latched⟩ | ⟨silent, -⟩
  · exact ⟨late, Prod.ext fires latched⟩
  · rw [fires] at silent
    contradiction

/-- A gate fires at polls only, when more than its interval has passed since the time it holds. -/
theorem call_fires_iff : (g.call c).1 = true ↔
    ∃ now since, c = .poll now ∧ g.since = some since ∧ since + g.interval < now := by
  constructor
  · intro fires
    cases c with
    | arm now => contradiction
    | poll now =>
      rcases held : g.since with _ | since
      · rw [call_of_free held] at fires
        contradiction
      · exact ⟨now, since, rfl, rfl, (call_of_fires held fires).1⟩
  · rintro ⟨now, since, rfl, held, due⟩
    rw [call, poll_of_due held due]

/-! ### Runs of calls -/

theorem run_append (g : Gate) (calls later : List (Call Nat)) :
    g.run (calls ++ later) = ((g.run calls).1 ++ ((g.run calls).2.run later).1,
      ((g.run calls).2.run later).2) := by
  induction calls generalizing g with
  | nil => rfl
  | cons c calls ih => rw [List.cons_append, run, ih, run, List.cons_append]

theorem length_run (g : Gate) (calls : List (Call Nat)) :
    (g.run calls).1.length = calls.length := by
  induction calls generalizing g with
  | nil => rfl
  | cons c calls ih => rw [run, List.length_cons, ih, List.length_cons]

@[simp] theorem interval_call (g : Gate) (c : Call Nat) : (g.call c).2.interval = g.interval := by
  cases c with
  | arm now => exact g.interval_arm now
  | poll now => exact g.interval_poll now

theorem interval_run (g : Gate) (calls : List (Call Nat)) :
    (g.run calls).2.interval = g.interval := by
  induction calls generalizing g with
  | nil => rfl
  | cons c calls ih => rw [run, ih, interval_call]

/-- A call is answered by the gate that the calls before it leave behind. -/
theorem getElem?_run (g : Gate) (calls : List (Call Nat)) (k : Nat) :
    (g.run calls).1[k]? = calls[k]?.map fun c => ((g.run (calls.take k)).2.call c).1 := by
  induction calls generalizing g k with
  | nil => rfl
  | cons c calls ih =>
    cases k with
    | zero => rfl
    | succ k => simpa only [run, List.getElem?_cons_succ, List.take_succ_cons] using ih _ k

/-- A gate that holds a time holds the time of the last call at which it fired, if there is
one. -/
theorem since_run_of_held (held : g.since = some since) (calls : List (Call Nat)) :
    (g.run calls).2.since = some ((firings calls (g.run calls).1).getLastD since) := by
  induction calls generalizing g since with
  | nil => exact held
  | cons c calls ih =>
    cases fires : (g.call c).1 with
    | false =>
      have silent := call_of_silent held fires
      simpa only [run, silent, firings, List.zip_cons_cons, List.filter_cons, Bool.false_eq_true,
        if_false] using ih held
    | true =>
      have fired := (call_of_fires held fires).2
      simpa only [run, fired, firings, List.zip_cons_cons, List.filter_cons, if_true,
        List.map_cons, List.getLastD_cons] using ih (g := { g with since := some c.time }) rfl

/-- **The time held is that of the first call, or of the last one that fired.** -/
theorem since_run_of_free (free : g.since = none) (calls : List (Call Nat)) :
    (g.run calls).2.since =
      (firings calls (g.run calls).1).getLast?.or (calls.head?.map Call.time) := by
  cases calls with
  | nil => exact free
  | cons c calls =>
    have rest := since_run_of_held (g := { g with since := some c.time }) rfl calls
    simpa only [run, call_of_free free, firings, List.zip_cons_cons, List.filter_cons,
      Bool.false_eq_true, if_false, List.head?_cons, Option.map_some, Option.or_some,
      List.getLastD_eq_getLast?] using rest

theorem since_run_eq_none_iff (free : g.since = none) :
    (g.run calls).2.since = none ↔ calls = [] := by
  rw [since_run_of_free free, Option.or_eq_none_iff, Option.map_eq_none_iff,
    List.head?_eq_none_iff]
  exact ⟨And.right, fun empty => ⟨by rw [empty]; rfl, empty⟩⟩

/-- **The time held never decreases.** -/
theorem since_run_le (held : g.since = some since) (calls : List (Call Nat)) :
    ∃ later, (g.run calls).2.since = some later ∧ since ≤ later := by
  induction calls generalizing g since with
  | nil => exact ⟨since, held, Nat.le_refl since⟩
  | cons c calls ih =>
    rw [run]
    cases fires : (g.call c).1 with
    | false =>
      rw [call_of_silent held fires]
      exact ih held
    | true =>
      obtain ⟨later, fired⟩ := call_of_fires held fires
      obtain ⟨last, latched, ordered⟩ := ih (g := { g with since := some c.time }) rfl
      rw [fired]
      exact ⟨last, latched, by omega⟩

/-- It never decreases from one call to any later one. -/
theorem since_run_take_le {j earlier : Nat} (ordered : j ≤ k)
    (held : (g.run (calls.take j)).2.since = some earlier) :
    ∃ later, (g.run (calls.take k)).2.since = some later ∧ earlier ≤ later := by
  have whole := List.take_append_drop j (calls.take k)
  rw [List.take_take, Nat.min_eq_left ordered] at whole
  rw [← whole, run_append]
  exact since_run_le held _

/-! ### Calls put in and left out -/

/-- **A call that leaves the gate as it is can be put in anywhere**: the answers to the others
stay the same, and so does the gate after all of them. -/
theorem run_insertIdx
    (idle : (g.run (calls.take k)).2.call c = (false, (g.run (calls.take k)).2)) :
    g.run (calls.insertIdx k c) = ((g.run calls).1.insertIdx k false, (g.run calls).2) := by
  induction k generalizing g calls with
  | zero =>
    have idle : g.call c = (false, g) := idle
    rw [List.insertIdx_zero, List.insertIdx_zero, run, idle]
  | succ k ih =>
    cases calls with
    | nil => rfl
    | cons first calls =>
      have idle : ((g.call first).2.run (calls.take k)).2.call c =
          (false, ((g.call first).2.run (calls.take k)).2) := idle
      rw [List.insertIdx_succ_cons, run, ih idle, run, List.insertIdx_succ_cons]

/-- A call at which the gate did not fire can be left out, unless it was the first one. -/
theorem run_eraseIdx (held : (g.run (calls.take k)).2.since = some since)
    (silent : (g.run calls).1[k]? = some false) :
    g.run (calls.eraseIdx k) = ((g.run calls).1.eraseIdx k, (g.run calls).2) := by
  rw [getElem?_run, Option.map_eq_some_iff] at silent
  obtain ⟨c, called, silent⟩ := silent
  obtain ⟨within, rfl⟩ := List.getElem?_eq_some_iff.mp called
  have idle := call_of_silent held silent
  -- The call is put back in where it was.
  rw [← List.take_eraseIdx_eq_take_of_le calls k k (Nat.le_refl k)] at idle
  have back := run_insertIdx idle
  rw [List.insertIdx_eraseIdx_getElem within] at back
  rw [back, List.eraseIdx_insertIdx_self]

end Gate

/-! ### Words -/

/-- A gate that keeps its interval and its time in words. -/
structure RawGate where
  /-- The milliseconds that must be exceeded between two firings. -/
  interval : UInt64
  /-- The time from which the interval counts, if one was reported. -/
  since : Option UInt64

namespace RawGate

/-- The time between two words, which is none if time went backwards. -/
def elapsed (since now : UInt64) : UInt64 := if since ≤ now then now - since else 0

/-- Forget the time held. -/
def forget (g : RawGate) : RawGate := { g with since := none }

/-- Report a time without asking whether the gate fires. -/
def arm (g : RawGate) (now : UInt64) : RawGate := { g with since := some (g.since.getD now) }

/-- Report a time, and ask whether the gate fires. -/
def poll (g : RawGate) (now : UInt64) : Bool × RawGate :=
  match g.since with
  | none => (false, { g with since := some now })
  | some since =>
    if g.interval < elapsed since now then (true, { g with since := some now }) else (false, g)

/-- Whether a gate fires at a call, and the gate after it. -/
def call (g : RawGate) : Gate.Call UInt64 → Bool × RawGate
  | .arm now => (false, g.arm now)
  | .poll now => g.poll now

/-- Whether a gate fires at each of some calls, and the gate after all of them. -/
def run (g : RawGate) : List (Gate.Call UInt64) → List Bool × RawGate
  | [] => ([], g)
  | c :: calls => ((g.call c).1 :: ((g.call c).2.run calls).1, ((g.call c).2.run calls).2)

/-- The gate with numbers for its words. -/
def toGate (g : RawGate) : Gate := ⟨g.interval.toNat, g.since.map UInt64.toNat⟩

theorem toNat_elapsed (since now : UInt64) :
    (elapsed since now).toNat = now.toNat - since.toNat := by
  unfold elapsed
  split
  case isTrue ordered => exact UInt64.toNat_sub_of_le now since ordered
  case isFalse backwards =>
    rw [UInt64.le_iff_toNat_le] at backwards
    rw [UInt64.toNat_zero]
    omega

theorem toGate_arm (g : RawGate) (now : UInt64) :
    g.toGate.arm now.toNat = (g.arm now).toGate := by
  obtain ⟨interval, _ | since⟩ := g
  · rfl
  · rfl

theorem toGate_poll (g : RawGate) (now : UInt64) :
    g.toGate.poll now.toNat = ((g.poll now).1, (g.poll now).2.toGate) := by
  obtain ⟨interval, _ | since⟩ := g
  · rfl
  · by_cases due : interval < elapsed since now
    · have passed : interval.toNat < now.toNat - since.toNat := by
        rw [← toNat_elapsed]
        exact due
      simp only [poll, due, if_true, toGate, Option.map_some, Gate.poll, passed]
    · have early : ¬interval.toNat < now.toNat - since.toNat := by
        rw [← toNat_elapsed]
        exact due
      simp only [poll, due, if_false, toGate, Option.map_some, Gate.poll, early]

theorem toGate_call (g : RawGate) (c : Gate.Call UInt64) :
    g.toGate.call (c.map UInt64.toNat) = ((g.call c).1, (g.call c).2.toGate) := by
  cases c with
  | arm now => exact Prod.ext rfl (g.toGate_arm now)
  | poll now => exact g.toGate_poll now

/-- **A gate in words fires when the gate in numbers does**, and they stay the same. -/
theorem toGate_run (g : RawGate) (calls : List (Gate.Call UInt64)) :
    g.toGate.run (calls.map (Gate.Call.map UInt64.toNat)) =
      ((g.run calls).1, (g.run calls).2.toGate) := by
  induction calls generalizing g with
  | nil => rfl
  | cons c calls ih => rw [List.map_cons, Gate.run, toGate_call, ih, run]

end RawGate

namespace Gate

/-! ### Calls that do not matter -/

/-- **A gate takes no notice of calls that do not matter, nor of time going backwards.** Take a
gate that was just built or forgot its time, and any calls to it. It holds no time as long as
there was no call, and otherwise the time of the last call that fired, or of the first call if
none did; this time never decreases. There is an answer to each call, and a call fires exactly
if it is a poll with a time that exceeds the one held by more than the interval. Leave out any
call but the first that did not fire, or put in, anywhere after the first, a call that only arms
the gate or a poll with a time that does not exceed the one held there by more than the interval:
the answers to all other calls are the same, and so is the gate after them. For a gate whose
interval and times are words of sixty-four bits, nothing is different. -/
theorem useless_calls_leave_no_trace (g : Gate) (calls : List (Call Nat)) :
    let start := g.forget
    let answers := (start.run calls).1
    let last := (start.run calls).2
    let held (k : Nat) : Option Nat := (start.run (calls.take k)).2.since
    (last.since = none ↔ calls = []) ∧
    last.since = (firings calls answers).getLast?.or (calls.head?.map Call.time) ∧
    (∀ j k earlier, j ≤ k → held j = some earlier →
      ∃ later, held k = some later ∧ earlier ≤ later) ∧
    answers.length = calls.length ∧
    (∀ k : Nat, answers[k]? = some true ↔ ∃ now since,
      calls[k]? = some (.poll now) ∧ held k = some since ∧ since + g.interval < now) ∧
    (∀ k : Nat, 0 < k → answers[k]? = some false →
      start.run (calls.eraseIdx k) = (answers.eraseIdx k, last)) ∧
    (∀ k now, 0 < k → k ≤ calls.length →
      start.run (calls.insertIdx k (.arm now)) = (answers.insertIdx k false, last)) ∧
    (∀ k now since, held k = some since → now ≤ since + g.interval →
      start.run (calls.insertIdx k (.poll now)) = (answers.insertIdx k false, last)) ∧
    ∀ (words : RawGate) (events : List (Call UInt64)), words.toGate = g →
      events.map (Call.map UInt64.toNat) = calls →
      (words.forget.run events).1 = answers ∧ (words.forget.run events).2.toGate = last := by
  intro start answers last held
  have free : start.since = none := rfl
  have interval (k : Nat) : (start.run (calls.take k)).2.interval = g.interval :=
    interval_run start (calls.take k)
  have holds (k : Nat) (later : 0 < k) (within : k ≤ calls.length) :
      ∃ since, held k = some since := by
    rw [← Option.ne_none_iff_exists', ne_eq, since_run_eq_none_iff free, ← List.length_eq_zero_iff,
      List.length_take]
    omega
  refine ⟨since_run_eq_none_iff free, since_run_of_free free calls,
    fun _ _ _ => since_run_take_le, length_run start calls, ?_, ?_, ?_, ?_, ?_⟩
  · intro k
    rw [getElem?_run, Option.map_eq_some_iff]
    constructor
    · rintro ⟨c, called, fires⟩
      obtain ⟨now, since, rfl, latched, due⟩ := call_fires_iff.mp fires
      exact ⟨now, since, called, latched, by rwa [interval] at due⟩
    · rintro ⟨now, since, called, latched, due⟩
      exact ⟨_, called, call_fires_iff.mpr ⟨now, since, rfl, latched, by rwa [interval]⟩⟩
  · intro k later silent
    obtain ⟨within, -⟩ := List.getElem?_eq_some_iff.mp silent
    rw [length_run] at within
    obtain ⟨since, latched⟩ := holds k later (Nat.le_of_lt within)
    exact run_eraseIdx latched silent
  · intro k now later within
    obtain ⟨since, latched⟩ := holds k later within
    exact run_insertIdx (call_of_silent latched rfl)
  · intro k now since latched early
    refine run_insertIdx (poll_of_early latched ?_)
    rwa [interval]
  · rintro words events rfl rfl
    have same := words.forget.toGate_run events
    exact ⟨(congrArg Prod.fst same).symm, (congrArg Prod.snd same).symm⟩

/-- A gate with an interval that is hardly less than all times there are fires at the last of
them, and no time exceeds what it holds then by the interval. A poll told an earlier time can be
left out, another one at that last time put in; and the gate in words agrees. -/
theorem useless_calls_leave_no_trace_late :
    let g : Gate := ⟨18446744073709551606, some 7⟩
    let words : RawGate := ⟨18446744073709551606, some 7⟩
    let calls : List (Call Nat) :=
      [.arm 5, .poll 3, .arm 40, .poll 18446744073709551615, .poll 20]
    let events : List (Call UInt64) :=
      [.arm 5, .poll 3, .arm 40, .poll 18446744073709551615, .poll 20]
    let last : Gate := ⟨18446744073709551606, some 18446744073709551615⟩
    g.forget.run (calls.eraseIdx 1) = ([false, false, true, false], last) ∧
      g.forget.run (calls.insertIdx 2 (.arm 0)) =
        ([false, false, false, false, true, false], last) ∧
      g.forget.run (calls.insertIdx 5 (.poll 18446744073709551615)) =
        ([false, false, false, true, false, false], last) ∧
      (words.forget.run events).1 = [false, false, false, true, false] ∧
      (words.forget.run events).2.toGate = last := by
  intro g words calls events last
  obtain ⟨-, -, -, -, -, leaveOut, arm, poll, same⟩ := useless_calls_leave_no_trace g calls
  exact ⟨leaveOut 1 (by decide) rfl, arm 2 0 (by decide) (by decide),
    poll 5 18446744073709551615 18446744073709551615 rfl (by decide), same words events rfl rfl⟩

end Gate

end Chip8
