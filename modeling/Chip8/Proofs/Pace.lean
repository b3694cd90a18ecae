import Chip8.Proofs.Ticking

/-!
# The pace of a machine

Instructions and timers each have a gate of their own, which is meant to hold them to a rate.
The main statement is `Chip8.Machine.pace_bounds`: whatever times are reported to a machine,
in whatever order, the instructions executed and the countdowns made by some time are no more
than fit into the time that passed, a millisecond beyond the interval for each; and when times
are reported in order and without long gaps, they are not much fewer either.

Both gates are dealt with at once. `Chip8.Machine.Paces` says of a gate of the machine that
something is let through by it, and only while it fires; the upper bound is proved from that
(`Chip8.Machine.Paces.upper`). The lower bound is one of gates alone
(`Chip8.Gate.lower`): as long as no time is kept from a gate, what it lets through is what it
would let through if these times were all it ever heard of
(`Chip8.Machine.Paces.atTimes_eq_polls`).
-/

namespace Chip8

/-! ### A gate to which times are reported -/

namespace Gate

variable {g g' : Gate} {now since first last gap : Nat} {fires : Bool} {times : List Nat}

/-- A time that is reported to a gate, with or without asking whether it fires. -/
inductive Report (g : Gate) (now : Nat) : Bool → Gate → Prop where
  /-- The gate is not asked. -/
  | armed : Report g now false (g.arm now)
  /-- The gate is asked. -/
  | polled : Report g now (g.poll now).1 (g.poll now).2

/-- The first time is held, and the gate does not fire. -/
theorem Report.of_free (h : g.Report now fires g') (free : g.since = none) :
    fires = false ∧ g' = { g with since := some now } := by
  cases h with
  | armed => simp only [arm, free, and_self]
  | polled => simp only [poll_of_free free, and_self]

/-- After the first time, a gate fires more than an interval later and holds the time then, or
it is left alone. -/
theorem Report.of_held (h : g.Report now fires g') (held : g.since = some since) :
    (fires = true ∧ since + g.interval < now ∧ g' = { g with since := some now }) ∨
      (fires = false ∧ g' = g) := by
  cases h with
  | armed => exact Or.inr ⟨rfl, by simp only [arm, held]⟩
  | polled =>
    rcases Nat.lt_or_ge (since + g.interval) now with due | early
    · rw [poll_of_due held due]
      exact Or.inl ⟨rfl, due, rfl⟩
    · rw [poll_of_early held early]
      exact Or.inr ⟨rfl, rfl⟩

/-- A time at which it does not fire leaves a gate that holds one as it is. -/
theorem Report.of_silent (h : g.Report now fires g') (held : g.since = some since)
    (silent : fires = false) : g' = g := by
  rcases h.of_held held with ⟨fired, -, -⟩ | ⟨-, kept⟩
  · rw [silent] at fired
    contradiction
  · exact kept

/-- The answers of a gate that is asked at some times, one for each. -/
def polls (g : Gate) : List Nat → List Bool
  | [] => []
  | now :: times => (g.poll now).1 :: (g.poll now).2.polls times

/-- Times in their order, with no gap longer than `gap`. -/
abbrev Steady (gap : Nat) (times : List Nat) : Prop :=
  times.IsChain fun earlier later => earlier ≤ later ∧ later ≤ earlier + gap

/-- A gate that holds a time does not fall behind by more than a gap at each firing. -/
theorem lower_of_held {previous : Nat} (held : g.since = some since)
    (begun : since ≤ previous) (silent : previous ≤ since + g.interval)
    (steady : Steady gap (previous :: times)) :
    (previous :: times).getLast (List.cons_ne_nil _ _) ≤
      since + (g.polls times).count true * (g.interval + gap) + g.interval := by
  induction times generalizing g since previous with
  | nil => simpa [polls] using silent
  | cons now times ih =>
    obtain ⟨⟨ordered, near⟩, steady⟩ := List.isChain_cons_cons.mp steady
    rw [List.getLast_cons (List.cons_ne_nil _ _), polls]
    rcases Nat.lt_or_ge (since + g.interval) now with due | early
    · have rest := ih (g := { g with since := some now }) rfl (Nat.le_refl now)
        (Nat.le_add_right _ _) steady
      rw [poll_of_due held due, List.count_cons_self, Nat.add_mul]
      simp only at rest ⊢
      omega
    · rw [poll_of_early held early, List.count_cons_of_ne Bool.false_ne_true]
      exact ih held (Nat.le_trans begun ordered) early steady

/-- **A gate that hears of all times lets through what they leave room for**, up to a gap for
each firing. -/
theorem lower (free : g.since = none) (begins : times.head? = some first)
    (ends : times.getLast? = some last) (steady : Steady gap times) :
    last ≤ first + (g.polls times).count true * (g.interval + gap) + g.interval := by
  cases times with
  | nil => contradiction
  | cons now times =>
    obtain rfl : now = first := Option.some.inj begins
    rw [List.getLast?_eq_some_getLast (List.cons_ne_nil _ _), Option.some.injEq] at ends
    rw [polls, poll_of_free free, List.count_cons_of_ne Bool.false_ne_true, ← ends]
    exact lower_of_held (g := { g with since := some now }) rfl (Nat.le_refl now)
      (Nat.le_add_right _ _) steady

end Gate

namespace Machine

variable {gate : Machine → Gate} {through : Machine → Nat → Bool} {m : Machine}
  {operations : List Operation}

/-! ### What a gate lets through -/

/-- A gate of a machine, by which something is let through at some times. -/
structure Paces (gate : Machine → Gate) (through : Machine → Nat → Bool) : Prop where
  /-- Nothing but times and restarts touches the gate. -/
  untimed : ∀ {m operation}, ¬operation.Restarts → operation.time? = none →
    gate (m.apply operation).machine = gate m
  /-- Nothing is let through on a machine that was stopped. -/
  halted : ∀ {m now fault}, m.fault = some fault → through m now = false
  /-- A time is reported to the gate, which lets something through if it fires, or a fault
  keeps the time from the gate. -/
  timed : ∀ m now,
    (gate m).Report now (through m now) (gate (m.apply (.tick now)).machine) ∨
      (through m now = false ∧ gate (m.apply (.tick now)).machine = gate m ∧
        ∃ fault, (m.apply (.tick now)).machine.fault = some fault)

/-- The instructions are let through by their gate. -/
theorem paces_clock : Paces clock isDue where
  untimed goesOn untimed := (gates_apply goesOn untimed).1
  halted stopped := isDue_of_not_isReady (not_isReady_of_fault stopped)
  timed m now := by
    rcases Option.eq_none_or_eq_some m.fault with hf | ⟨fault, hf⟩
    · refine Or.inl ?_
      rcases Option.eq_none_or_eq_some m.processor.awaiting with hw | ⟨x, hw⟩
      · have ready : m.IsReady := ⟨hf, hw⟩
        have polled : (m.apply (.tick now)).machine.clock = (m.clock.poll now).2 :=
          clock_tick_of_isReady ready
        rw [isDue_of_isReady ready, polled]
        exact .polled
      · have armed : (m.apply (.tick now)).machine.clock = m.clock.arm now :=
          clock_tick_of_awaiting hf hw
        rw [isDue_of_not_isReady (not_isReady_of_awaiting hw), armed]
        exact .armed
    · refine Or.inr ⟨isDue_of_not_isReady (not_isReady_of_fault hf), ?_⟩
      rw [apply_of_executes hf (.tick now)]
      exact ⟨rfl, fault, hf⟩

/-- The countdowns are let through by the gate of the timers. -/
theorem paces_timer : Paces timer countsDown where
  untimed goesOn untimed := (gates_apply goesOn untimed).2
  halted {m now fault} stopped := by
    rw [countsDown, tick_of_fault stopped]
    rfl
  timed m now := by
    rcases Option.eq_none_or_eq_some (m.apply (.tick now)).machine.fault with hf | ⟨fault, hf⟩
    · obtain ⟨fires, polled⟩ := timer_tick_of_unstopped hf
      refine Or.inl ?_
      rw [fires]
      exact polled ▸ .polled
    · obtain ⟨silent, kept⟩ := timer_tick_of_fault hf
      exact Or.inr ⟨silent, kept, fault, hf⟩

namespace Paces

/-- After the first time, something is let through more than an interval later and the gate
holds the time then, or the gate is left alone. -/
theorem of_held (paces : Paces gate through) {since : Nat} (held : (gate m).since = some since)
    (now : Nat) :
    (through m now = true ∧ since + (gate m).interval < now ∧
        gate (m.apply (.tick now)).machine = { gate m with since := some now }) ∨
      (through m now = false ∧ gate (m.apply (.tick now)).machine = gate m) := by
  rcases paces.timed m now with report | ⟨silent, kept, -⟩
  · exact report.of_held held
  · exact Or.inr ⟨silent, kept⟩

variable (paces : Paces gate through) (goesOn : ∀ operation ∈ operations, ¬operation.Restarts)

include paces goesOn

theorem count_of_halted {fault : Fault} (stopped : m.fault = some fault) :
    (m.atTimes through operations).count true = 0 := by
  induction operations generalizing m with
  | nil => rfl
  | cons operation operations ih =>
    rw [List.forall_mem_cons] at goesOn
    have rest := ih goesOn.2 (fault_apply_of_halted stopped goesOn.1)
    rcases operation.eq_tick_or_untimed with ⟨now, rfl⟩ | untimed
    · rw [atTimes_tick_cons, paces.halted stopped, List.count_cons_of_ne Bool.false_ne_true, rest]
    · rw [atTimes_cons_of_untimed through untimed, rest]

theorem upper_of_held {since latest : Nat} (held : (gate m).since = some since)
    (begun : since ≤ latest) (bounded : ∀ time ∈ Operation.times operations, time ≤ latest) :
    (m.atTimes through operations).count true * ((gate m).interval + 1) + since ≤ latest := by
  induction operations generalizing m since with
  | nil => simpa [atTimes] using begun
  | cons operation operations ih =>
    rw [List.forall_mem_cons] at goesOn
    rcases operation.eq_tick_or_untimed with ⟨now, rfl⟩ | untimed
    · rw [Operation.times_tick_cons, List.forall_mem_cons] at bounded
      rw [atTimes_tick_cons]
      rcases paces.of_held held now with ⟨fires, late, latched⟩ | ⟨silent, kept⟩
      · have next : (gate (m.apply (.tick now)).machine).since = some now := by rw [latched]
        have rest := ih goesOn.2 next bounded.1 bounded.2
        rw [latched] at rest
        rw [fires, List.count_cons_self, Nat.add_mul]
        simp only at rest
        omega
      · have next : (gate (m.apply (.tick now)).machine).since = some since := by rw [kept, held]
        have rest := ih goesOn.2 next begun bounded.2
        rw [kept] at rest
        rw [silent, List.count_cons_of_ne Bool.false_ne_true]
        exact rest
    · have kept := paces.untimed (m := m) goesOn.1 untimed
      rw [Operation.times_cons_of_untimed untimed] at bounded
      rw [atTimes_cons_of_untimed through untimed, ← kept]
      exact ih goesOn.2 (by rw [kept, held]) begun bounded

/-- **What is let through by a gate fits into the time that passed.** -/
theorem upper {first latest : Nat} (free : (gate m).since = none)
    (begins : (Operation.times operations).head? = some first)
    (bounded : ∀ time ∈ Operation.times operations, time ≤ latest) :
    (m.atTimes through operations).count true * ((gate m).interval + 1) + first ≤ latest := by
  induction operations generalizing m with
  | nil => contradiction
  | cons operation operations ih =>
    rw [List.forall_mem_cons] at goesOn
    rcases operation.eq_tick_or_untimed with ⟨now, rfl⟩ | untimed
    · obtain rfl : now = first := Option.some.inj begins
      rw [Operation.times_tick_cons, List.forall_mem_cons] at bounded
      rw [atTimes_tick_cons]
      rcases paces.timed m now with report | ⟨silent, -, fault, stopped⟩
      · obtain ⟨silent, latched⟩ := report.of_free free
        have held : (gate (m.apply (.tick now)).machine).since = some now := by rw [latched]
        have rest := paces.upper_of_held goesOn.2 held bounded.1 bounded.2
        rw [latched] at rest
        rw [silent, List.count_cons_of_ne Bool.false_ne_true]
        exact rest
      · -- The first time finds the machine stopped, and nothing is ever let through.
        rw [silent, List.count_cons_of_ne Bool.false_ne_true,
          paces.count_of_halted goesOn.2 stopped, Nat.zero_mul, Nat.zero_add]
        exact bounded.1
    · have kept := paces.untimed (m := m) goesOn.1 untimed
      rw [Operation.times_cons_of_untimed untimed] at begins bounded
      rw [atTimes_cons_of_untimed through untimed, ← kept]
      exact ih goesOn.2 (by rw [kept, free]) begins bounded

end Paces

/-! ### When no time is kept from a gate -/

/-- The gate hears of the time that an operation reports, if it reports one. -/
def Polls (gate : Machine → Gate) (through : Machine → Nat → Bool) (m : Machine)
    (operation : Operation) : Prop :=
  ∀ now, operation = .tick now →
    through m now = ((gate m).poll now).1 ∧
      gate (m.tick now).machine = ((gate m).poll now).2

/-- A gate that hears of all times lets through what it would let through if it heard of
nothing else. -/
theorem Paces.atTimes_eq_polls (paces : Paces gate through)
    (goesOn : ∀ operation ∈ operations, ¬operation.Restarts)
    (along : m.Along (Polls gate through) operations) :
    m.atTimes through operations = (gate m).polls (Operation.times operations) := by
  induction operations generalizing m with
  | nil => rfl
  | cons operation operations ih =>
    rw [List.forall_mem_cons] at goesOn
    obtain ⟨first, along⟩ := along
    have rest := ih goesOn.2 along
    rcases operation.eq_tick_or_untimed with ⟨now, rfl⟩ | untimed
    · obtain ⟨fires, polled⟩ := first now rfl
      have next : gate (m.apply (.tick now)).machine = ((gate m).poll now).2 := polled
      rw [atTimes_tick_cons, Operation.times_tick_cons, Gate.polls, fires, rest, next]
    · rw [atTimes_cons_of_untimed through untimed, Operation.times_cons_of_untimed untimed, rest,
        paces.untimed goesOn.1 untimed]

/-- Without a fault, the gate of the timers hears of all times; -/
theorem polls_timer (goesOn : ∀ operation ∈ operations, ¬operation.Restarts)
    (ends : (m.run operations).fault = none) :
    m.Along (Polls timer countsDown) operations := by
  refine (along_unstopped goesOn ends).imp ?_
  rintro n operation ⟨-, unstopped⟩ now rfl
  exact timer_tick_of_unstopped unstopped

/-- and so does the gate of the instructions, if no register waits for a key press then. -/
theorem polls_clock (goesOn : ∀ operation ∈ operations, ¬operation.Restarts)
    (ends : (m.run operations).fault = none)
    (unblocked : m.Along
      (fun n operation => operation.time?.isSome → n.processor.awaiting = none) operations) :
    m.Along (Polls clock isDue) operations := by
  refine ((along_unstopped goesOn ends).and unblocked).imp ?_
  rintro n operation ⟨⟨unstopped, -⟩, unblocked⟩ now rfl
  have ready : n.IsReady := ⟨unstopped, unblocked rfl⟩
  exact ⟨isDue_of_isReady ready, clock_tick_of_isReady ready⟩

/-! ### The bounds -/

/-- **The pace of a machine is bounded from both sides.** Take a machine that was started
over, and any operations after that which do not start it over again. A time has one word
executed at most, and the timers counted down once at most, which takes one from each that is not
at zero. Up to any time that no reported one exceeds, the instructions executed in time leave room
for the interval and one more millisecond each, counted from the first time; so do the countdowns,
of which the interval is sixteen. If the times are in order with gaps of so many milliseconds at
most, and there is no fault, the countdowns cover the time that passed, each with its interval and
a gap, up to an interval at the end; and the instructions do so too, if no register waits for a key
press when a time is reported. -/
theorem pace_bounds (reachable : m.Reachable) {start : Operation} (restarts : start.Restarts)
    (goesOn : ∀ operation ∈ operations, ¬operation.Restarts) {first : Nat}
    (begins : (Operation.times operations).head? = some first) :
    let n := (m.apply start).machine
    let interval := m.settings.interval
    let instructions := (n.atTimes isDue operations).count true
    let countdowns := (n.atTimes countsDown operations).count true
    (∀ (k : Machine) now, (k.tick now).machine.processor =
      if k.countsDown now then (k.afterDue now).countDown else k.afterDue now) ∧
    (∀ p : Processor, p.countDown.delay.toNat = p.delay.toNat - 1 ∧
      p.countDown.sound.toNat = p.sound.toNat - 1 ∧
      p.countDown = { p with delay := p.countDown.delay, sound := p.countDown.sound }) ∧
    (∀ latest, (∀ time ∈ Operation.times operations, time ≤ latest) →
      instructions * (interval + 1) + first ≤ latest ∧ countdowns * 17 + first ≤ latest) ∧
    ∀ gap last, (Operation.times operations).getLast? = some last →
      Gate.Steady gap (Operation.times operations) → (n.run operations).fault = none →
      last ≤ first + countdowns * (16 + gap) + 16 ∧
      (n.Along (fun k operation => operation.time?.isSome → k.processor.awaiting = none)
          operations →
        last ≤ first + instructions * (interval + gap) + interval) := by
  intro n interval instructions countdowns
  obtain ⟨clock, timer⟩ := gates_apply_of_restarts reachable restarts
  have clock_free : n.clock.since = none := by rw [clock]; rfl
  have timer_free : n.timer.since = none := by rw [timer]; rfl
  refine ⟨processor_tick, Processor.countDown_spec, ?_, ?_⟩
  · intro latest bounded
    have executed := paces_clock.upper goesOn clock_free begins bounded
    have counted := paces_timer.upper goesOn timer_free begins bounded
    rw [clock] at executed
    rw [timer] at counted
    exact ⟨executed, counted⟩
  · intro gap last ends steady unstopped
    refine ⟨?_, fun unblocked => ?_⟩
    · have heard := paces_timer.atTimes_eq_polls goesOn (polls_timer goesOn unstopped)
      have lower := Gate.lower timer_free begins ends steady
      rw [← heard, timer] at lower
      exact lower
    · have heard := paces_clock.atTimes_eq_polls goesOn (polls_clock goesOn unstopped unblocked)
      have lower := Gate.lower clock_free begins ends steady
      rw [← heard, clock] at lower
      exact lower

/-- A program that jumps to itself is told the time four times, with a key press and a step in
between: two instructions are due, and one countdown, which is as early as it can be. -/
theorem pace_bounds_jump :
    let load : Operation := .load [0x12, 0x00]
    let events : List Operation :=
      [.tick 10, .tick 14, .pressKey 1, .step, .tick 15, .tick 27]
    let n := ((create .standard 0).machine.apply load).machine
    (n.atTimes isDue events).count true = 2 ∧ (n.atTimes countsDown events).count true = 1 ∧
      2 * (3 + 1) + 10 ≤ 27 ∧ 1 * 17 + 10 ≤ 27 ∧
      27 ≤ 10 + 1 * (16 + 12) + 16 ∧ 27 ≤ 10 + 2 * (3 + 12) + 3 := by
  intro load events n
  have reachable : (create .standard 0).machine.Reachable := ⟨.standard, 0, [], rfl⟩
  have goesOn : ∀ operation ∈ events, ¬operation.Restarts := by
    have continues : ∀ operation ∈ events, operation.Continues := by
      simp only [events, List.forall_mem_cons]
      exact ⟨.drives (.tick 10), .drives (.tick 14), .drives (.pressKey 1), .drives .step,
        .drives (.tick 15), .drives (.tick 27), List.forall_mem_nil _⟩
    exact fun operation member => (continues operation member).not_restarts
  have executed : (n.atTimes isDue events).count true = 2 := by decide +kernel
  have counted : (n.atTimes countsDown events).count true = 1 := by decide +kernel
  have restarts : load.Restarts := by
    have loads : load.loading? = some (.ok [0x12, 0x00]) := rfl
    exact .loads loads
  have begins : (Operation.times events).head? = some 10 := rfl
  obtain ⟨-, -, upper, lower⟩ := pace_bounds reachable restarts goesOn begins
  obtain ⟨fewer, rarer⟩ := upper 27 (by decide)
  obtain ⟨often, enough⟩ := lower 12 27 rfl (by decide) (by decide +kernel)
  have unblocked : n.Along
      (fun k operation => operation.time?.isSome → k.processor.awaiting = none) events := by
    refine ⟨?_, ?_, nofun, nofun, ?_, ?_, trivial⟩
    all_goals decide +kernel
  have many := enough unblocked
  rw [executed] at fewer many
  rw [counted] at rarer often
  exact ⟨executed, counted, fewer, rarer, often, many⟩

end Machine

end Chip8
