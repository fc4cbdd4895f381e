/-
**Two concurrent flushes deadlock the pool; one never does.**

`iter_http_pool` locks the pool one `pool.get()` at a time, and only puts anything back once it
holds all `h['connections']` connections. Two `flush` calls running at once (nbdkit may issue
them in parallel: `thread_model` is `THREAD_MODEL_PARALLEL`) can each take part of the pool and
then wait in `pool.get()` for the rest, which neither ever puts back.

* `State.Deadlocked` — the queue is empty, some call is unfinished, and every unfinished call
  waits in `pool.get()`.
* `run_gets` — a call collecting in `iter_http_pool` takes the whole queue, one `get` each.
* **`flush_pair_deadlock`** — on every pool of `N ≥ 2` connections, the schedule "the first
  flush takes connection `0`, the second the other `N - 1`" reaches a deadlock in which no call
  can take any action at all.
* **`deadlock_two_flushes`** — conversely, every reachable deadlock on a pool of at least one
  connection has two different `flush` calls each holding part of the pool: one `flush` with any
  number of `pread`, `pwrite` and `zero` calls never deadlocks.
* `step_remaining_lt` — every step lowers a bound on the actions the calls have left
  (`State.remaining`), so every interleaving ends.
* **`one_flush_finishes`** — with at most one `flush`, from every reachable state some schedule
  in which no call raises runs every call to its end, after which the queue is whole again.
-/

import RhvUpload.Pool.Invariant

namespace RhvUpload

namespace Pool

/-! ## Deadlocks -/

/-- A call has not returned from its wrapper. -/
def Call.Unfinished (call : Call) : Prop := ∀ raised, call.pc ≠ .done raised

/-- A call waits in `pool.get()`: in `http_context` before its checkout, or in
`iter_http_pool`'s loop with fewer than `N` connections taken. -/
def Call.Waiting (N : Nat) (call : Call) : Prop :=
  (call.pc = .ready ∧ call.entry.access = .context) ∨
    ∃ locked, call.pc = .locking locked ∧ locked.length < N

/-- **A deadlock**: the queue is empty, some call is unfinished, and every unfinished call waits
in `pool.get()`, so none of them is ever woken. -/
def State.Deadlocked (s : State) : Prop :=
  s.idle = [] ∧ (∃ call ∈ s.calls, call.Unfinished) ∧
    ∀ call ∈ s.calls, call.Unfinished → call.Waiting s.handle.connections

/-! ## Two flushes reach one -/

/-- **A collecting call takes the whole queue**, one `get` at a time, when the queue fits in
what it still lacks. -/
theorem run_gets {handle : Handle} {flushed : List (Nat × Nat)} {entry : Entry} {i : Nat} :
    ∀ {idle locked : List Nat} {calls : List Call},
      calls[i]? = some ⟨entry, .locking locked⟩ →
      locked.length + idle.length ≤ handle.connections →
      run ⟨handle, idle, calls, flushed⟩ (List.replicate idle.length (i, .get)) =
        some ⟨handle, [], calls.set i ⟨entry, .locking (locked ++ idle)⟩, flushed⟩
  | [], locked, calls, found, _ => by
    have inBounds : i < calls.length := (List.getElem?_eq_some.mp found).1
    have same : calls.set i ⟨entry, .locking locked⟩ = calls := List.ext_getElem? fun j => by
      rw [List.getElem?_set]
      split <;> simp_all
    simp [run, same]
  | x :: rest, locked, calls, found, room => by
    have inBounds : i < calls.length := (List.getElem?_eq_some.mp found).1
    have taken : (calls.set i ⟨entry, .locking (locked ++ [x])⟩)[i]? =
        some ⟨entry, .locking (locked ++ [x])⟩ := List.getElem?_set_self inBounds
    have later := @run_gets handle flushed entry i rest _ _ taken (by simp at room ⊢; omega)
    simp only [List.length_cons, List.replicate_succ, run, step, found, Option.map_some',
      Option.some_bind]
    rw [show Pc.next handle.connections entry (x :: rest) (.locking locked) .get =
        some (.locking (locked ++ [x]), rest, .quiet) by
      simp only [Pc.next]
      rw [if_pos (by simp at room; omega)]]
    simpa [State.apply, Effect.onHandle, Effect.onLog, List.set_set] using later

/-- Where two flushes on `h` end when the first takes connection `0` and the second all the
others: the queue is empty, and each holds part of the pool. -/
def splitPool (h : Handle) : State :=
  ⟨{ h with failed := false }, [],
    [⟨.flush, .locking [0]⟩, ⟨.flush, .locking (List.range' 1 (h.connections - 1))⟩], []⟩

/-- The schedule that splits a pool of `N` between two flushes: one `get` of the first, then
`N - 1` of the second. -/
def splitSchedule (N : Nat) : List (Nat × Action) := (0, .get) :: List.replicate (N - 1) (1, .get)

section Split

variable (h : Handle)

/-- The split schedule runs to `splitPool` on every nonempty pool. -/
theorem run_splitSchedule (nonempty : 1 ≤ h.connections) :
    run (State.init h [.flush, .flush]) (splitSchedule h.connections) = some (splitPool h) := by
  have range : List.range h.connections = 0 :: List.range' 1 (h.connections - 1) := by
    obtain ⟨n, size⟩ : ∃ n, h.connections = n + 1 := ⟨h.connections - 1, by omega⟩
    rw [size, List.range_eq_range', List.range'_succ]
    simp
  have first : step (State.init h [.flush, .flush]) 0 .get =
      some ⟨{ h with failed := false }, List.range' 1 (h.connections - 1),
        [⟨.flush, .locking [0]⟩, ⟨.flush, .locking []⟩], []⟩ := by
    have positive : h.connections ≠ 0 := by omega
    simp [step, State.init, Entry.start, Pc.next, range, positive, State.apply, Effect.onHandle,
      Effect.onLog]
  have rest := @run_gets { h with failed := false } [] .flush 1
    (List.range' 1 (h.connections - 1)) [] [⟨.flush, .locking [0]⟩, ⟨.flush, .locking []⟩] rfl
    (by simp)
  simp only [splitSchedule, run, first, Option.some_bind]
  simpa [splitPool] using rest

/-- The split pool is reachable. -/
theorem splitPool_reachable (nonempty : 1 ≤ h.connections) :
    Reachable h [.flush, .flush] (splitPool h) :=
  Reachable.init.run (run_splitSchedule h nonempty)

/-- On a pool of at least two, both flushes of the split pool wait for the rest of it. -/
theorem splitPool_deadlocked (two : 2 ≤ h.connections) : (splitPool h).Deadlocked := by
  refine ⟨rfl, ⟨_, List.mem_cons_self _ _, by simp [Call.Unfinished]⟩, ?_⟩
  simp [splitPool, Call.Waiting]
  omega

/-- On a pool of at least two, no call of the split pool can take any action. -/
theorem splitPool_stuck (two : 2 ≤ h.connections) (i : Nat) (a : Action) :
    step (splitPool h) i a = none := by
  have more : h.connections - 1 = h.connections - 2 + 1 := by omega
  rcases i with _ | _ | i
  · cases a <;> simp [step, splitPool, Pc.next]
    omega
  · cases a <;> simp [step, splitPool, Pc.next, more, List.range'_succ]
    omega
  · simp [step, splitPool]

end Split

/-- **Two flushes deadlock every pool of at least two connections.** The first flush takes
connection `0`, the second the other `N - 1`; then the queue is empty, both flushes are
unfinished and wait in `pool.get()`, and no call can take any action: not a `get`, not the
`lock` that needs all `N`, and not a `raise`, since nothing in the collecting loop raises. -/
theorem flush_pair_deadlock (h : Handle) (two : 2 ≤ h.connections) :
    Reachable h [.flush, .flush] (splitPool h) ∧ (splitPool h).Deadlocked ∧
      ∀ i a, step (splitPool h) i a = none :=
  ⟨splitPool_reachable h (by omega), splitPool_deadlocked h two, splitPool_stuck h two⟩

/-- Two flushes deadlock a pool of two connections. -/
theorem flush_pair_deadlock_twoConnections :
    2 ≤ twoConnections.connections ∧
      Reachable twoConnections [.flush, .flush] (splitPool twoConnections) ∧
      (splitPool twoConnections).Deadlocked ∧ ∀ i a, step (splitPool twoConnections) i a = none :=
  ⟨by decide, flush_pair_deadlock twoConnections (by decide)⟩

/-! ## Every deadlock is two flushes -/

/-- In a deadlock, every call that holds a connection is a `flush` still collecting. -/
theorem Inv.holder_collecting {s : State} (inv : Inv s) (stuck : s.Deadlocked) {i : Nat}
    {call : Call} (found : s.calls[i]? = some call) {x : Nat} (holds : x ∈ call.pc.held) :
    call.entry = .flush ∧
      ∃ locked, call.pc = .locking locked ∧ locked.length < s.handle.connections := by
  have unfinished : call.Unfinished := by
    rintro raised ended
    simp [ended] at holds
  rcases stuck.2.2 call (List.getElem?_mem found) unfinished with
    ⟨ready, -⟩ | ⟨locked, locking, short⟩
  · simp [ready] at holds
  · refine ⟨?_, locked, locking, short⟩
    have ok := inv.logged i call found
    rw [locking] at ok
    cases entry : call.entry <;> simp only [entry, Entry.access, SentOk] at ok ⊢

/-- In a reachable deadlock on a pool of at least one connection, two different calls are
`flush` calls, each holding some connection. -/
theorem Reachable.deadlock_flushes {h : Handle} {entries : List Entry} {s : State}
    (reach : Reachable h entries s) (nonempty : 1 ≤ h.connections) (stuck : s.Deadlocked) :
    ∃ (i j : Nat) (a b : Call), i ≠ j ∧ s.calls[i]? = some a ∧ s.calls[j]? = some b ∧
      a.entry = .flush ∧ b.entry = .flush ∧ a.pc.held ≠ [] ∧ b.pc.held ≠ [] := by
  have inv := reach.inv
  have size := reach.connections
  have whole : s.held.Perm (List.range h.connections) := by
    simpa [stuck.1, size] using inv.conserved
  obtain ⟨i, a, foundA, holdsA⟩ :=
    State.mem_held.mp (whole.mem_iff.mpr (List.mem_range.mpr nonempty))
  obtain ⟨flushA, locked, locking, short⟩ := inv.holder_collecting stuck foundA holdsA
  obtain ⟨y, below, missing⟩ : ∃ y, y < h.connections ∧ y ∉ locked := by
    by_contra full
    push_neg at full
    have covers := ((List.nodup_range h.connections).subperm fun y mem =>
      full y (List.mem_range.mp mem)).length_le
    simp only [List.length_range] at covers
    omega
  obtain ⟨j, b, foundB, holdsB⟩ := State.mem_held.mp (whole.mem_iff.mpr (List.mem_range.mpr below))
  have apart : i ≠ j := by
    rintro rfl
    rw [foundA, Option.some.injEq] at foundB
    subst foundB
    exact missing (by simpa [locking, Pc.held] using holdsB)
  exact ⟨i, j, a, b, apart, foundA, foundB, flushA, (inv.holder_collecting stuck foundB holdsB).1,
    List.ne_nil_of_mem holdsA, List.ne_nil_of_mem holdsB⟩

/-- **Every deadlock is two flushes holding part of the pool each.** In every reachable state
that is deadlocked, on a pool of at least one connection, two different calls are `flush` calls
and each holds some connection. So one `flush` and any number of `pread`, `pwrite` and `zero`
calls never deadlock. -/
theorem deadlock_two_flushes {h : Handle} {entries : List Entry} {s : State}
    (reach : Reachable h entries s) (nonempty : 1 ≤ h.connections) (stuck : s.Deadlocked) :
    ∃ (i j : Nat) (a b : Call), i ≠ j ∧ s.calls[i]? = some a ∧ s.calls[j]? = some b ∧
      a.entry = .flush ∧ b.entry = .flush ∧ a.pc.held ≠ [] ∧ b.pc.held ≠ [] :=
  reach.deadlock_flushes nonempty stuck

/-- The split pool of two connections is a deadlock of its two flushes. -/
theorem deadlock_two_flushes_split :
    Reachable twoConnections [.flush, .flush] (splitPool twoConnections) ∧
      1 ≤ twoConnections.connections ∧ (splitPool twoConnections).Deadlocked ∧
      ∃ (i j : Nat) (a b : Call), i ≠ j ∧ (splitPool twoConnections).calls[i]? = some a ∧
        (splitPool twoConnections).calls[j]? = some b ∧ a.entry = .flush ∧ b.entry = .flush ∧
        a.pc.held ≠ [] ∧ b.pc.held ≠ [] :=
  ⟨splitPool_reachable twoConnections (by decide), by decide,
    splitPool_deadlocked twoConnections (by decide),
    deadlock_two_flushes (splitPool_reachable twoConnections (by decide)) (by decide)
      (splitPool_deadlocked twoConnections (by decide))⟩

/-! ## One flush always finishes -/

/-- Two positions of `l` holding `x` make `x` appear twice. -/
theorem two_le_count {α : Type} [DecidableEq α] {l : List α} {x : α} {i j : Nat} (before : i < j)
    (first : l[i]? = some x) (second : l[j]? = some x) : 2 ≤ l.count x := by
  have inTake : x ∈ l.take j :=
    List.mem_iff_getElem?.mpr ⟨i, by rw [List.getElem?_take_of_lt before]; exact first⟩
  have inDrop : x ∈ l.drop j :=
    List.mem_iff_getElem?.mpr ⟨0, by rw [List.getElem?_drop]; exact second⟩
  have taken := List.count_pos_iff.mpr inTake
  have dropped := List.count_pos_iff.mpr inDrop
  rw [← List.take_append_drop j l, List.count_append]
  omega

/-- Replacing one entry of a list of numbers by a smaller number lowers its sum. -/
theorem sum_set_lt : ∀ {l : List Nat} {i x y : Nat}, l[i]? = some y → x < y → (l.set i x).sum < l.sum
  | _ :: _, 0, _, _, found, smaller => by
    simp only [List.getElem?_cons_zero, Option.some.injEq] at found
    subst found
    simp only [List.set_cons_zero, List.sum_cons]
    omega
  | _ :: rest, i + 1, x, y, found, smaller => by
    simpa using @sum_set_lt rest i x y (by simpa using found) smaller

/-- How many more actions a call at `pc` takes at most, in a pool of `N`. -/
def Pc.remaining (N : Nat) : Pc → Nat
  | .ready => 4
  | .holding _ => 3
  | .locking locked => 3 * (N - locked.length) + 2 * locked.length + 3
  | .flushing locked sent => (locked.length - sent) + locked.length + 2
  | .unlocking rest _ => rest.length + 1
  | .done _ => 0

/-- How many more actions all calls take at most. -/
def State.remaining (s : State) : Nat :=
  (s.calls.map fun call => call.pc.remaining s.handle.connections).sum

/-- Every move lowers the mover's bound. -/
theorem Pc.Moves.remaining_lt {N : Nat} {entry : Entry} {idle : List Nat} {pc : Pc}
    {next : Pc × List Nat × Effect} (moves : pc.Moves N entry idle next) :
    next.1.remaining N < pc.remaining N := by
  cases moves <;> simp only [Pc.remaining, List.length_append, List.length_cons,
    List.length_nil, List.length_singleton] <;> try omega
  rename_i found
  have := (List.getElem?_eq_some.mp found).1
  omega

/-- **Every step lowers the bound**, so every interleaving of the calls ends. -/
theorem step_remaining_lt {s s' : State} {i : Nat} {a : Action} (stepped : step s i a = some s') :
    s'.remaining < s.remaining := by
  obtain ⟨call, next, found, moves, rfl⟩ := step_inv stepped
  simp only [State.remaining, State.apply, Effect.onHandle_connections, List.map_set]
  exact sum_set_lt (by simp [found]) moves.remaining_lt

/-- **An unfinished call that is not waiting in `pool.get()` on an empty queue can act** without
raising. -/
theorem Call.forward {N : Nat} {idle : List Nat} {call : Call} {log : List Nat}
    (unfinished : call.Unfinished) (shape : SentOk N call.entry.access call.pc log)
    (free : idle ≠ [] ∨ ¬ call.Waiting N) :
    ∃ a, a ≠ .raise ∧ (call.pc.next N call.entry idle a).isSome := by
  obtain ⟨entry, pc⟩ := call
  cases pc with
  | ready =>
    cases access : entry.access
    · exact ⟨.finish, by decide, by simp [Pc.next, access]⟩
    · rcases free with nonempty | notWaiting
      · obtain ⟨http, rest, rfl⟩ := List.exists_cons_of_ne_nil nonempty
        exact ⟨.get, by decide, by simp [Pc.next, access]⟩
      · exact absurd (.inl ⟨rfl, access⟩) notWaiting
    · simp [SentOk, access] at shape
  | holding http => exact ⟨.finish, by decide, by simp [Pc.next]⟩
  | locking locked =>
    by_cases full : N ≤ locked.length
    · exact ⟨.lock, by decide, by simp [Pc.next, full]⟩
    · rcases free with nonempty | notWaiting
      · obtain ⟨http, rest, rfl⟩ := List.exists_cons_of_ne_nil nonempty
        exact ⟨.get, by decide, by simp [Pc.next]; omega⟩
      · exact absurd (.inr ⟨locked, rfl, by omega⟩) notWaiting
  | flushing locked sent =>
    by_cases sentAll : locked.length ≤ sent
    · exact ⟨.finish, by decide, by simp [Pc.next, sentAll]⟩
    · exact ⟨.send, by decide, by simp [Pc.next, List.getElem?_eq_getElem (not_le.mp sentAll)]⟩
  | unlocking rest raised =>
    cases rest
    · exact ⟨.leave, by decide, by simp [Pc.next]⟩
    · exact ⟨.put, by decide, by simp [Pc.next]⟩
  | done raised => exact absurd rfl (unfinished raised)

/-- A reachable state in which no call can act without raising, while some call is unfinished,
is a deadlock. -/
theorem Reachable.deadlocked_of_stuck {h : Handle} {entries : List Entry} {s : State}
    (reach : Reachable h entries s) (unfinished : ∃ call ∈ s.calls, call.Unfinished)
    (stuck : ∀ i a, a ≠ .raise → Pool.step s i a = none) : s.Deadlocked := by
  have waits : ∀ call ∈ s.calls, call.Unfinished →
      s.idle = [] ∧ call.Waiting s.handle.connections := by
    intro call mem unfinishedCall
    obtain ⟨i, found⟩ := List.mem_iff_getElem?.mp mem
    by_contra moving
    obtain ⟨a, notRaise, enabled⟩ := Call.forward unfinishedCall (reach.inv.logged i call found)
      (not_and_or.mp moving)
    have none := stuck i a notRaise
    simp only [Pool.step, found, Option.map_eq_none'] at none
    simp [none] at enabled
  obtain ⟨call, mem, unfinishedCall⟩ := unfinished
  exact ⟨(waits call mem unfinishedCall).1, ⟨call, mem, unfinishedCall⟩,
    fun other memOther unfinishedOther => (waits other memOther unfinishedOther).2⟩

/-- **With at most one `flush`, some call can always act** without raising, while a call is
unfinished: the converse of the two-flush deadlock. -/
theorem Reachable.progress {h : Handle} {entries : List Entry} {s : State}
    (reach : Reachable h entries s) (nonempty : 1 ≤ h.connections)
    (oneFlush : entries.count .flush ≤ 1) (unfinished : ∃ call ∈ s.calls, call.Unfinished) :
    ∃ i a, a ≠ .raise ∧ (Pool.step s i a).isSome := by
  by_contra stuck
  push_neg at stuck
  have deadlocked := reach.deadlocked_of_stuck unfinished fun i a notRaise =>
    Option.not_isSome_iff_eq_none.mp (stuck i a notRaise)
  obtain ⟨i, j, a, b, apart, foundA, foundB, flushA, flushB, -, -⟩ :=
    reach.deadlock_flushes nonempty deadlocked
  have entryAt : ∀ (k : Nat) (call : Call), s.calls[k]? = some call → call.entry = .flush →
      entries[k]? = some .flush := fun k call found isFlush => by
    rw [← reach.frame.2, List.getElem?_map, found, Option.map_some', isFlush]
  have twice : 2 ≤ entries.count .flush := by
    rcases Nat.lt_or_gt_of_ne apart with before | after
    · exact two_le_count before (entryAt i a foundA flushA) (entryAt j b foundB flushB)
    · exact two_le_count after (entryAt j b foundB flushB) (entryAt i a foundA flushA)
  omega

/-- **One `flush` never keeps the others from finishing.** On a pool of at least one
connection, with at most one `flush` among the calls, from every reachable state some schedule
in which no call raises runs every call to its end; and then, by `Reachable.drained`, the queue
holds all `N` connections again. -/
theorem one_flush_finishes {h : Handle} {entries : List Entry} (nonempty : 1 ≤ h.connections)
    (oneFlush : entries.count .flush ≤ 1) {s : State} (reach : Reachable h entries s) :
    ∃ schedule s', Pool.run s schedule = some s' ∧ (∀ step ∈ schedule, step.2 ≠ .raise) ∧
      Reachable h entries s' ∧ ∀ call ∈ s'.calls, ∃ raised, call.pc = .done raised := by
  generalize bound : s.remaining = n
  induction n using Nat.strong_induction_on generalizing s with
  | _ n ih =>
    by_cases finished : ∀ call ∈ s.calls, ∃ raised, call.pc = .done raised
    · exact ⟨[], s, rfl, by simp, reach, finished⟩
    · have unfinished : ∃ call ∈ s.calls, call.Unfinished := by
        push_neg at finished
        obtain ⟨call, mem, never⟩ := finished
        exact ⟨call, mem, never⟩
      obtain ⟨i, a, notRaise, enabled⟩ := reach.progress nonempty oneFlush unfinished
      obtain ⟨next, stepped⟩ := Option.isSome_iff_exists.mp enabled
      obtain ⟨schedule, last, ran, quiet, reachLast, done⟩ :=
        ih _ (bound ▸ step_remaining_lt stepped) (reach.step stepped) rfl
      refine ⟨(i, a) :: schedule, last, by simp [Pool.run, stepped, ran], ?_, reachLast, done⟩
      exact List.forall_mem_cons.mpr ⟨notRaise, quiet⟩

/-- A `pread` and a `flush` on a pool of two connections can both run to their end. -/
theorem one_flush_finishes_init :
    1 ≤ twoConnections.connections ∧ [Entry.pread, .flush].count .flush ≤ 1 ∧
      Reachable twoConnections [.pread, .flush] (State.init twoConnections [.pread, .flush]) ∧
      ∃ schedule s', Pool.run (State.init twoConnections [.pread, .flush]) schedule = some s' ∧
        (∀ step ∈ schedule, step.2 ≠ .raise) ∧ Reachable twoConnections [.pread, .flush] s' ∧
        ∀ call ∈ s'.calls, ∃ raised, call.pc = .done raised :=
  ⟨by decide, by decide, .init, one_flush_finishes (by decide) (by decide) .init⟩

end Pool

end RhvUpload
