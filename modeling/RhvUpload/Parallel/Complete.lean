/-
**With one flush, every call completes normally, each block request handled once.**

`RhvUpload.Pool.one_flush_finishes` runs the pool model's calls to their end. With the requests
behind the pool, a block call also needs its exchange before it can leave its `with` body, and
the server of the wire contract must answer so that the call does not raise.

* `Reachable.progress` — **one step**: while a call is unfinished, some call can act without
  raising: the pool model's next action, or, for a block call that must first handle its
  response, its exchange. The contract server answers every block call that covers at least one
  byte inside the disk (`Linearized.answered`), so that call can then go on.
* `step_remaining_lt` — every step lowers the pool model's bound plus the exchanges still owed.
* `Reachable.complete` — **the whole run**: from every reachable state, a schedule in which no
  call raises runs every call to its end.
* `Pool.Pc.raised_next` — an action other than `raise` never starts an exception, so from the
  start such a schedule ends with every call returned normally.
* **`calls_complete`** — with at most one `flush` among the calls, they can all return normally;
  the server then has handled exactly one request of each block call, in an order in which the
  calls are linearized.
-/

import RhvUpload.Parallel.Linearizable

namespace RhvUpload

namespace Pool

/-- Whether a call is on its way out of an exception: in its `finally`, or out of its wrapper,
after a `raise`. -/
def Pc.raised : Pc → Bool
  | .unlocking _ raised => raised
  | .done raised => raised
  | _ => false

/-- **No action but `raise` starts an exception.** -/
theorem Pc.raised_next {N : Nat} {entry : Entry} {idle : List Nat} {pc : Pc} {a : Action}
    {next : Pc × List Nat × Effect} (enabled : pc.next N entry idle a = some next)
    (quiet : a ≠ .raise) : next.1.raised = pc.raised := by
  -- every move keeps the flag but the four raising ones, which no other action makes
  cases Pc.moves_of_next enabled <;> first
    | rfl
    | cases a <;> first
      | exact absurd rfl quiet
      | (simp only [Pc.next] at enabled; (repeat' split at enabled) <;> simp_all)

/-- Only a call of an entry point that uses `http_context` comes to hold a connection. -/
theorem Pc.Moves.context_of_holding {N : Nat} {entry : Entry} {idle : List Nat} {pc : Pc}
    {next : Pc × List Nat × Effect} (moves : pc.Moves N entry idle next) {http : Nat}
    (holding : next.1 = .holding http) : entry.access = .context := by
  cases moves <;> simp_all

/-- A call holding a connection in `http_context` is a block call. -/
theorem Reachable.holding_context {h : Handle} {entries : List Entry} {s : State}
    (reach : Reachable h entries s) {i : Nat} {call : Call} {http : Nat}
    (found : s.calls[i]? = some call) (holding : call.pc = .holding http) :
    call.entry.access = .context := by
  induction reach generalizing i call with
  | init =>
    simp only [State.init, List.getElem?_map, Option.map_eq_some'] at found
    obtain ⟨entry, -, rfl⟩ := found
    cases entry <;> simp [Entry.start] at holding
  | step _ stepped ih =>
    obtain ⟨⟨entry, pc⟩, next, foundMover, moves, rfl⟩ := step_inv stepped
    simp only [State.apply, List.getElem?_set] at found
    split at found
    · rw [if_pos (List.getElem?_eq_some.mp foundMover).1, Option.some.injEq] at found
      subst found
      exact moves.context_of_holding holding
    · exact ih found holding

end Pool

namespace Parallel

/-- A job that uses `http_context` is a block call. -/
theorem Job.block_of_context {job : Job} (context : job.entry.access = .context) :
    ∃ op, job = .block op := by
  rcases job with (_ | _ | _) | _ | _ | _ | _ | _ <;>
    simp_all [Job.entry, Pool.Entry.access]

/-- The `flush` calls among the jobs are the `flush` calls among their entry points. -/
theorem count_flush_entry (jobs : List Job) :
    (jobs.map Job.entry).count .flush = jobs.count .flush := by
  induction jobs with
  | nil => rfl
  | cons job jobs ih =>
    rw [List.map_cons, List.count_cons, List.count_cons, ih]
    rcases job with (_ | _ | _) | _ | _ | _ | _ | _ <;> rfl

/-- How many more steps the calls take at most: the pool model's bound, and one exchange for
each call that has not made it. -/
def State.remaining (s : State) : Nat := s.pool.remaining + s.replies.countP Option.isNone

/-- No call has raised: none is in a `finally` or out of its wrapper after an exception. -/
def State.Quiet (s : State) : Prop := ∀ call ∈ s.pool.calls, call.pc.raised = false

section Complete

variable {flagFua : Nat} {link : Link} {jobs : List Job} {h : Handle} {disk : List UInt8}
  {s s' : State} {i : Nat} {a : Action}

/-- **Every step lowers the bound**: a pool action the pool model's, an exchange the count of
exchanges still owed. -/
theorem step_remaining_lt (stepped : step flagFua link jobs s i a = some s') :
    s'.remaining < s.remaining := by
  cases a with
  | exchange =>
    obtain ⟨entry, http, op, found, job, unsent, rfl⟩ := step_exchange_inv stepped
    have inBounds := (List.getElem?_eq_some.mp unsent).1
    have owed : s.replies[i] = none := by simpa [List.getElem?_eq_getElem inBounds] using unsent
    have fewer := List.countP_set Option.isNone s.replies i (some (op.overWire flagFua link
      s.pool.handle s.log.length s.disk).2) inBounds
    have counted := List.countP_pos_iff.mpr ⟨_, List.getElem_mem inBounds, (by simp [owed] :
      Option.isNone s.replies[i] = true)⟩
    simp only [owed, Option.isNone_none, Option.isNone_some, if_true, Bool.false_eq_true,
      if_false] at fewer
    simp only [State.remaining, fewer]
    omega
  | pool b =>
    obtain ⟨call, next, found, enabled, -, -, rfl⟩ := step_pool_inv stepped
    have lower := Pool.step_remaining_lt (show Pool.step s.pool i b = some (s.pool.apply i call next)
      by simp [Pool.step, found, enabled])
    simp only [State.remaining]
    omega

/-- A step other than `raise` keeps every call clear of exceptions. -/
theorem step_quiet (stepped : step flagFua link jobs s i a = some s') (notRaise : a ≠ .pool .raise)
    (quiet : s.Quiet) : s'.Quiet := by
  cases a with
  | exchange =>
    obtain ⟨-, -, -, -, -, -, rfl⟩ := step_exchange_inv stepped
    exact quiet
  | pool b =>
    obtain ⟨call, next, found, enabled, -, -, rfl⟩ := step_pool_inv stepped
    intro after mem
    rcases List.mem_or_eq_of_mem_set mem with old | rfl
    · exact quiet after old
    · rw [Pool.Pc.raised_next enabled (by simpa using notRaise)]
      exact quiet call (List.getElem?_mem found)

/-- The calls start clear of exceptions. -/
theorem State.quiet_init (h : Handle) (jobs : List Job) (disk : List UInt8) :
    (State.init h jobs disk).Quiet := by
  intro call mem
  simp only [State.init, Pool.State.init, List.map_map, List.mem_map] at mem
  obtain ⟨job, -, rfl⟩ := mem
  cases entry : Job.entry job <;> simp [entry, Pool.Entry.start, Pool.Pc.raised]

/-- A schedule in which no call raises keeps every call clear of exceptions. -/
theorem run_quiet : ∀ {s s' : State} {schedule : List (Nat × Action)},
    Parallel.run flagFua link jobs s schedule = some s' →
      (∀ step ∈ schedule, step.2 ≠ .pool .raise) → s.Quiet → s'.Quiet
  | _, _, [], ran, _, quiet => by cases ran; exact quiet
  | s, _, (i, a) :: rest, ran, notRaise, quiet => by
    simp only [Parallel.run, Option.bind_eq_some] at ran
    obtain ⟨next, stepped, ran⟩ := ran
    exact run_quiet ran (fun step mem => notRaise step (List.mem_cons_of_mem _ mem))
      (step_quiet stepped (notRaise (i, a) (List.mem_cons_self _ _)) quiet)

variable (valid : ∀ job ∈ jobs, job.Valid disk.length)
include valid

/-- **While a call is unfinished, some call can act without raising**, given at most one
`flush`: the pool model's next action, or the exchange a block call makes before it can leave
its body. -/
theorem Reachable.progress (nonempty : 1 ≤ h.connections) (oneFlush : jobs.count .flush ≤ 1)
    (reach : Reachable flagFua link jobs h disk s)
    (unfinished : ∃ call ∈ s.pool.calls, call.Unfinished) :
    ∃ i a, a ≠ .pool .raise ∧ (Parallel.step flagFua link jobs s i a).isSome := by
  obtain ⟨i, b, notRaise, enabled⟩ := reach.pool.progress nonempty
    ((count_flush_entry jobs).symm ▸ oneFlush) unfinished
  obtain ⟨call, found⟩ : ∃ call, s.pool.calls[i]? = some call := by
    cases found : s.pool.calls[i]? with
    | none => simp [Pool.step, found] at enabled
    | some call => exact ⟨call, rfl⟩
  by_cases allowed : s.allows i call.pc b = true
  · refine ⟨i, .pool b, by simpa using notRaise, ?_⟩
    simpa [Parallel.step, found, allowed, Pool.step] using enabled
  · obtain ⟨http, holding, rfl, unanswered⟩ :=
      State.holding_of_not_allows (Bool.eq_false_iff.mpr allowed)
    have context := reach.pool.holding_context found holding
    obtain ⟨job, job', same⟩ := reach.job_entry found
    obtain ⟨op, rfl⟩ := Job.block_of_context (same ▸ context)
    have lin := reach.linearized valid
    have inBounds : i < s.replies.length := by
      rw [lin.length_replies]
      exact (List.getElem?_eq_some.mp job').1
    have unsent : s.replies[i]? = some none := by
      rw [List.getElem?_eq_getElem inBounds, Option.some.injEq]
      cases replied : s.replies[i] with
      | none => rfl
      | some reply =>
        have recorded := lin.recorded i reply (by simp [State.replyOf, inBounds, replied])
        obtain ⟨⟨j, op'⟩, served, same⟩ := List.mem_map.mp recorded
        cases same
        exact absurd (State.answered_iff.mpr (lin.answered served)) (by simp [unanswered])
    obtain ⟨entry, pc⟩ := call
    cases holding
    exact ⟨i, .exchange, by simp, by simp [Parallel.step, found, job', unsent]⟩

/-- From every reachable state, a schedule in which no call raises runs every call to its end. -/
theorem Reachable.complete (nonempty : 1 ≤ h.connections) (oneFlush : jobs.count .flush ≤ 1)
    (reach : Reachable flagFua link jobs h disk s) :
    ∃ schedule s', Parallel.run flagFua link jobs s schedule = some s' ∧
      (∀ step ∈ schedule, step.2 ≠ .pool .raise) ∧ Reachable flagFua link jobs h disk s' ∧
      ∀ call ∈ s'.pool.calls, ∃ raised, call.pc = .done raised := by
  generalize bound : s.remaining = n
  induction n using Nat.strong_induction_on generalizing s with
  | _ n ih =>
    by_cases finished : ∀ call ∈ s.pool.calls, ∃ raised, call.pc = .done raised
    · exact ⟨[], s, rfl, by simp, reach, finished⟩
    · have unfinished : ∃ call ∈ s.pool.calls, call.Unfinished := by
        push_neg at finished
        exact finished
      obtain ⟨i, a, notRaise, enabled⟩ := reach.progress valid nonempty oneFlush unfinished
      obtain ⟨next, stepped⟩ := Option.isSome_iff_exists.mp enabled
      obtain ⟨schedule, last, ran, quiet, reachLast, done⟩ :=
        ih _ (bound ▸ step_remaining_lt stepped) (reach.step stepped) rfl
      refine ⟨(i, a) :: schedule, last, by simp [Parallel.run, stepped, ran], ?_, reachLast, done⟩
      exact List.forall_mem_cons.mpr ⟨notRaise, quiet⟩

end Complete

/-- **With at most one `flush`, all calls can return normally, and the server then has handled
each block call once.** For every disk image, every link cutting the responses, every handle
whose pool has at least one connection, and every set of calls nbdkit runs at once on it with at
most one `flush`, whose block calls each cover at least one byte inside the disk: some
interleaving runs every call to its end, each returning normally; in the state it reaches, the
server has handled exactly the block calls' requests, each once, and that state is linearized,
so the server's image is the block device after all of them in the order handled, and each
`pread` returned the device's bytes at its place in that order. -/
theorem calls_complete {flagFua : Nat} {link : Link} {jobs : List Job} {h : Handle}
    {disk : List UInt8} (valid : ∀ job ∈ jobs, job.Valid disk.length)
    (nonempty : 1 ≤ h.connections) (oneFlush : jobs.count .flush ≤ 1) :
    ∃ schedule s, Parallel.run flagFua link jobs (State.init h jobs disk) schedule = some s ∧
      Reachable flagFua link jobs h disk s ∧ (∀ call ∈ s.pool.calls, call.pc = .done false) ∧
      (∀ i op, (i, op) ∈ s.served ↔ jobs[i]? = some (.block op)) ∧ Linearized jobs disk s := by
  obtain ⟨schedule, s, ran, notRaise, reach, finished⟩ :=
    (@Reachable.init flagFua link jobs h disk).complete valid nonempty oneFlush
  have quiet := run_quiet ran notRaise (State.quiet_init h jobs disk)
  have normal : ∀ call ∈ s.pool.calls, call.pc = .done false := fun call mem => by
    obtain ⟨raised, ended⟩ := finished call mem
    simpa [ended, Pool.Pc.raised] using quiet call mem
  have lin := reach.linearized valid
  exact ⟨schedule, s, ran, reach, normal, lin.served_iff reach normal, lin⟩

/-- A `pwrite`, a `pread` and a `flush` on a pool of two connections can all return normally. -/
theorem calls_complete_three :
    (∀ job ∈ [Job.block (.pwrite [9] 1 0), .block (.pread [0, 0] 0 0), .flush], job.Valid 2) ∧
      1 ≤ Pool.twoConnections.connections ∧
      [Job.block (.pwrite [9] 1 0), .block (.pread [0, 0] 0 0), .flush].count .flush ≤ 1 ∧
      ∃ schedule s, Parallel.run 2 Link.whole
          [.block (.pwrite [9] 1 0), .block (.pread [0, 0] 0 0), .flush]
          (State.init Pool.twoConnections
            [.block (.pwrite [9] 1 0), .block (.pread [0, 0] 0 0), .flush] [1, 2]) schedule =
          some s ∧
        Reachable 2 Link.whole [.block (.pwrite [9] 1 0), .block (.pread [0, 0] 0 0), .flush]
          Pool.twoConnections [1, 2] s ∧ (∀ call ∈ s.pool.calls, call.pc = .done false) ∧
        (∀ i op, (i, op) ∈ s.served ↔
          [Job.block (.pwrite [9] 1 0), .block (.pread [0, 0] 0 0), .flush][i]? = some (.block op)) ∧
        Linearized [.block (.pwrite [9] 1 0), .block (.pread [0, 0] 0 0), .flush] [1, 2] s :=
  ⟨by decide, by decide, by decide, calls_complete (by decide) (by decide) (by decide)⟩

end Parallel

end RhvUpload
