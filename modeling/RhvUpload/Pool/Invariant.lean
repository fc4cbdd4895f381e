/-
**The pool's invariant: every connection in exactly one place.**

`Inv` holds in every reachable state:

* `conserved` — the idle queue and the connections the calls hold are, together, a permutation
  of `0, …, N - 1`: no connection is lost, made twice, or held by two calls;
* `logged` — each call's flush requests are what its program counter says (`SentOk`): none
  before it holds the whole pool, the first `sent` of its connections while it flushes, and
  after it, each connection at most once, every one of them once if it returns normally;
* `failed` — `h['failed']` is set exactly when some call has raised out of its wrapper.

`Pc.Moves.count_conserved`, `Pc.Moves.sentOk` and the `done` lemmas say what one move does to
each part; `Inv.step` assembles them, and `Reachable.inv` is the run lemma.

* `Reachable.frame` — a run changes the handle only in `failed`, and keeps the calls' entries.
* **`pool_conserved`** — every reachable state keeps the pool's `Contract`: the `N`
  connections are split between the queue and the calls, `h['connections']` is still `N`, a
  flush that sends holds all `N` while no other call holds any, each flush sends at most once
  per connection and once on each if it returns, and once every call has returned the queue
  holds all `N` again.
-/

import RhvUpload.Pool.State

namespace RhvUpload

namespace Pool

/-! ## What the calls hold and send -/

/-- The connections all calls hold. -/
def State.held (s : State) : List Nat := (s.calls.map fun call => call.pc.held).flatten

/-- The connections call `i` has sent a flush request on, in order. -/
def State.sentBy (s : State) (i : Nat) : List Nat :=
  (s.flushed.filter fun request => request.1 == i).map Prod.snd

/-- The connection a flush request went to, as a list. -/
def Effect.sent : Effect → List Nat
  | .flushOn http => [http]
  | _ => []

/-- A call's flush requests `log`, as its program counter says they are, in a pool of `N`. A
`flush` sends nothing while it locks, the first `sent` of its connections while it flushes, and
then each connection at most once, or every one once when it returns normally. No other entry
point sends, or ever runs `iter_http_pool`; a `flush` never runs `http_context`. -/
def SentOk (N : Nat) : Access → Pc → List Nat → Prop
  | .drain, .locking locked, log => log = [] ∧ locked.length ≤ N
  | .drain, .flushing locked sent, log => log = locked.take sent ∧ locked.length = N
  | .drain, .unlocking _ raised, log => if raised then log.Nodup else log.Perm (List.range N)
  | .drain, .done raised, log => if raised then log.Nodup else log.Perm (List.range N)
  | .drain, _, _ => False
  | _, .locking _, _ => False
  | _, .flushing _ _, _ => False
  | _, _, log => log = []

/-- **The pool invariant.** -/
structure Inv (s : State) : Prop where
  conserved : (s.idle ++ s.held).Perm (List.range s.handle.connections)
  logged : ∀ i call, s.calls[i]? = some call →
    SentOk s.handle.connections call.entry.access call.pc (s.sentBy i)
  failed : s.handle.failed = true ↔
    ∃ (i : Nat) (call : Call), s.calls[i]? = some call ∧ call.pc = .done true

/-! ## One move -/

section Move

variable {N : Nat} {entry : Entry} {idle : List Nat} {pc : Pc} {next : Pc × List Nat × Effect}

/-- **A move keeps the connections**: the queue and the mover's holding change only by the
connections passed between them. -/
theorem Pc.Moves.count_conserved (moves : pc.Moves N entry idle next) (x : Nat) :
    next.2.1.count x + next.1.held.count x = idle.count x + pc.held.count x := by
  cases moves <;> simp [Pc.held, List.count_cons, List.count_append, *] <;> omega

/-- No move starts from `done`. -/
theorem Pc.Moves.source_ne_done (moves : pc.Moves N entry idle next) (raised : Bool) :
    pc ≠ .done raised := by
  cases moves <;> simp

/-- Only leaving the wrapper ends at `done`, with the effect that says so. -/
theorem Pc.Moves.done_target (moves : pc.Moves N entry idle next) {raised : Bool}
    (ended : next.1 = .done raised) : next.2.2 = .leave raised := by
  cases moves <;> simp_all

/-- Only leaving the wrapper touches the handle. -/
theorem Pc.Moves.onHandle (moves : pc.Moves N entry idle next) (h : Handle) :
    next.2.2.onHandle h = h ∨
      ∃ raised, next.1 = .done raised ∧ next.2.2.onHandle h = failing h raised := by
  cases moves <;> simp [Effect.onHandle]

/-- **A move keeps the flush log right**, given that the mover's connections are distinct pool
connections. -/
theorem Pc.Moves.sentOk (moves : pc.Moves N entry idle next) {log : List Nat}
    (ok : SentOk N entry.access pc log) (distinct : pc.held.Nodup)
    (inPool : ∀ http ∈ pc.held, http < N) :
    SentOk N entry.access next.1 (log ++ next.2.2.sent) := by
  cases access : entry.access <;> cases moves <;>
    simp_all [SentOk, Effect.sent, Pc.held]
  case drain.take => omega
  case drain.lock => omega
  case drain.send found => rw [List.take_succ, found]; rfl
  case drain.raiseFlushing => exact distinct.sublist (List.take_sublist _ _)
  case drain.finishFlushing locked sent covered =>
    rw [List.take_of_length_le (by omega)]
    exact (distinct.subperm fun http mem => List.mem_range.mpr (inPool http mem)).perm_of_length_le
      (by simp [ok.2])

/-- A flush's log, as `SentOk` says it is, repeats no connection when the flush's own
connections are distinct. -/
theorem SentOk.nodup {log : List Nat} (ok : SentOk N .drain pc log) (distinct : pc.held.Nodup) :
    log.Nodup := by
  cases pc <;> simp only [SentOk] at ok
  case locking => simp [ok.1]
  case flushing => exact ok.1 ▸ distinct.sublist (List.take_sublist _ _)
  case unlocking raised | done raised =>
    cases raised
    · exact ok.nodup_iff.mpr (List.nodup_range N)
    · exact ok

end Move

/-! ## One step -/

section Step

variable {s : State} {i : Nat} {call : Call} {next : Pc × List Nat × Effect}

/-- An effect keeps the pool size. -/
@[simp] theorem Effect.onHandle_connections (effect : Effect) (h : Handle) :
    (effect.onHandle h).connections = h.connections := by
  cases effect <;> simp only [Effect.onHandle]
  unfold failing
  split <;> rfl

/-- Replacing one call's program counter changes the held connections by that call's only. -/
theorem count_held_set :
    ∀ {calls : List Call} {i : Nat} {call : Call}, calls[i]? = some call → ∀ (pc : Pc) (x : Nat),
      ((calls.set i { call with pc := pc }).map fun c => c.pc.held).flatten.count x +
          call.pc.held.count x =
        (calls.map fun c => c.pc.held).flatten.count x + pc.held.count x
  | [], _, _, found, _, _ => by cases found
  | first :: rest, 0, call, found, pc, x => by
    rw [List.getElem?_cons_zero, Option.some.injEq] at found
    subst found
    simp only [List.set_cons_zero, List.map_cons, List.flatten_cons, List.count_append]
    omega
  | first :: rest, i + 1, call, found, pc, x => by
    rw [List.getElem?_cons_succ] at found
    have later := count_held_set found pc x
    simp only [List.set_cons_succ, List.map_cons, List.flatten_cons, List.count_append]
    omega

/-- Two calls' holdings both count in the holdings of all calls. -/
theorem count_held_pair {calls : List Call} {i j : Nat} {a b : Call} (apart : i ≠ j)
    (foundI : calls[i]? = some a) (foundJ : calls[j]? = some b) (x : Nat) :
    a.pc.held.count x + b.pc.held.count x ≤ (calls.map fun c => c.pc.held).flatten.count x := by
  have first := count_held_set foundI .ready x
  have second := count_held_set
    (show (calls.set i { a with pc := .ready })[j]? = some b by
      rw [List.getElem?_set_ne apart]; exact foundJ)
    .ready x
  simp only [Pc.held_ready, List.count_nil] at first second
  omega

/-- The flush log after a step: only the mover's grows, by what it sent. -/
theorem State.sentBy_apply (j : Nat) :
    (s.apply i call next).sentBy j = s.sentBy j ++ if j = i then next.2.2.sent else [] := by
  obtain ⟨pc, idle, effect⟩ := next
  cases effect <;> simp only [State.apply, State.sentBy, Effect.onLog, Effect.sent, ite_self,
    List.append_nil]
  by_cases same : j = i
  · subst same
    simp [List.filter_append]
  · have other : (i == j) = false := beq_false_of_ne (Ne.symm same)
    simp [List.filter_append, same, other]

/-- The connections a call holds are distinct pool connections. -/
theorem Inv.held_distinct (inv : Inv s) (found : s.calls[i]? = some call) :
    call.pc.held.Nodup ∧ ∀ http ∈ call.pc.held, http < s.handle.connections := by
  have member : call.pc.held ∈ s.calls.map fun c => c.pc.held :=
    List.mem_map_of_mem _ (List.getElem?_mem found)
  have distinct := (inv.conserved.nodup_iff.mpr (List.nodup_range _))
  refine ⟨(List.nodup_flatten.mp (List.nodup_append.mp distinct).2.1).1 _ member, ?_⟩
  intro http mem
  have inAll : http ∈ s.idle ++ s.held :=
    List.mem_append_right _ (List.mem_flatten.mpr ⟨_, member, mem⟩)
  exact List.mem_range.mp (inv.conserved.subset inAll)

/-- No connection is both idle and held by a call. -/
theorem Inv.held_not_idle (inv : Inv s) (found : s.calls[i]? = some call) {x : Nat}
    (mem : x ∈ call.pc.held) : x ∉ s.idle := by
  intro idle
  have once := List.nodup_iff_count_le_one.mp (inv.conserved.nodup_iff.mpr (List.nodup_range _)) x
  have mine := count_held_set found .ready x
  have held := List.count_pos_iff.mpr mem
  have queued := List.count_pos_iff.mpr idle
  simp only [Pc.held_ready, List.count_nil, List.count_append, State.held] at once mine
  omega

/-- No connection is held by two calls. -/
theorem Inv.held_apart (inv : Inv s) {j : Nat} {other : Call} (found : s.calls[i]? = some call)
    (foundOther : s.calls[j]? = some other) (apart : i ≠ j) {x : Nat} (mem : x ∈ call.pc.held) :
    x ∉ other.pc.held := by
  intro memOther
  have once := List.nodup_iff_count_le_one.mp (inv.conserved.nodup_iff.mpr (List.nodup_range _)) x
  have both := count_held_pair apart found foundOther x
  have held := List.count_pos_iff.mpr mem
  have heldOther := List.count_pos_iff.mpr memOther
  simp only [List.count_append, State.held] at once
  omega

variable (inv : Inv s) (found : s.calls[i]? = some call)
  (moves : call.pc.Moves s.handle.connections call.entry s.idle next)
include inv found moves

theorem Inv.conserved_apply :
    ((s.apply i call next).idle ++ (s.apply i call next).held).Perm
      (List.range (s.apply i call next).handle.connections) := by
  refine List.perm_iff_count.mpr fun x => ?_
  have before := List.perm_iff_count.mp inv.conserved x
  have swap := count_held_set found next.1 x
  have move := moves.count_conserved x
  simp only [State.apply, State.held, List.count_append, Effect.onHandle_connections] at *
  omega

theorem Inv.logged_apply (j : Nat) (after : Call)
    (foundAfter : (s.apply i call next).calls[j]? = some after) :
    SentOk (s.apply i call next).handle.connections after.entry.access after.pc
      ((s.apply i call next).sentBy j) := by
  rw [State.sentBy_apply]
  change SentOk (next.2.2.onHandle s.handle).connections _ _ _
  rw [Effect.onHandle_connections]
  change (s.calls.set i { call with pc := next.1 })[j]? = some after at foundAfter
  by_cases same : j = i
  · subst same
    rw [List.getElem?_set_self (List.getElem?_eq_some.mp found).1, Option.some.injEq]
      at foundAfter
    subst foundAfter
    obtain ⟨distinct, inPool⟩ := inv.held_distinct found
    simpa using moves.sentOk (inv.logged j call found) distinct inPool
  · rw [List.getElem?_set_ne (Ne.symm same)] at foundAfter
    simpa [same] using inv.logged j after foundAfter

theorem Inv.failed_apply :
    (s.apply i call next).handle.failed = true ↔ ∃ (j : Nat) (after : Call),
      (s.apply i call next).calls[j]? = some after ∧ after.pc = .done true := by
  have inBounds : i < s.calls.length := (List.getElem?_eq_some.mp found).1
  have atMover : (s.apply i call next).calls[i]? = some { call with pc := next.1 } :=
    List.getElem?_set_self inBounds
  have others : ∀ j, j ≠ i → (s.apply i call next).calls[j]? = s.calls[j]? :=
    fun j different => List.getElem?_set_ne (Ne.symm different)
  have oldDone : ∀ j after, s.calls[j]? = some after → after.pc = .done true → j ≠ i := by
    rintro j after foundOld ended rfl
    rw [found, Option.some.injEq] at foundOld
    exact moves.source_ne_done true (foundOld ▸ ended)
  constructor
  · intro failedAfter
    rcases moves.onHandle s.handle with same | ⟨raised, ended, onHandle⟩
    · obtain ⟨j, after, foundOld, ended⟩ :=
        inv.failed.mp (by simpa [State.apply, same] using failedAfter)
      exact ⟨j, after, by rw [others j (oldDone j after foundOld ended)]; exact foundOld, ended⟩
    · simp only [State.apply, onHandle, failing] at failedAfter
      cases raised
      · obtain ⟨j, after, foundOld, done⟩ := inv.failed.mp (by simpa using failedAfter)
        exact ⟨j, after, by rw [others j (oldDone j after foundOld done)]; exact foundOld, done⟩
      · exact ⟨i, _, atMover, ended⟩
  · rintro ⟨j, after, foundAfter, ended⟩
    by_cases same : j = i
    · subst same
      rw [atMover, Option.some.injEq] at foundAfter
      subst foundAfter
      simp [State.apply, moves.done_target ended, Effect.onHandle, failing]
    · rw [others j same] at foundAfter
      have failedBefore := inv.failed.mpr ⟨j, after, foundAfter, ended⟩
      rcases moves.onHandle s.handle with unchanged | ⟨raised, _, onHandle⟩
      · simpa [State.apply, unchanged] using failedBefore
      · simp only [State.apply, onHandle, failing]
        split <;> simp [failedBefore]

end Step

/-- **One step keeps the invariant.** -/
theorem Inv.step {s s' : State} {i : Nat} {a : Action} (inv : Inv s)
    (stepped : step s i a = some s') : Inv s' := by
  obtain ⟨call, next, found, moves, rfl⟩ := step_inv stepped
  exact ⟨inv.conserved_apply found moves, inv.logged_apply found moves,
    inv.failed_apply found moves⟩

/-- A call starts holding nothing. -/
theorem Entry.held_start (entry : Entry) : entry.start.held = [] := by cases entry <;> rfl

/-- A call starts having sent nothing, in the shape its entry point allows. -/
theorem Entry.sentOk_start (N : Nat) (entry : Entry) : SentOk N entry.access entry.start [] := by
  cases entry <;> simp [SentOk, Entry.start, Entry.access]

/-- The invariant holds when the calls are issued. -/
theorem Inv.init (h : Handle) (entries : List Entry) : Inv (State.init h entries) where
  conserved := by simp [State.init, State.held, Function.comp_def, Entry.held_start]
  logged i call found := by
    simp only [State.init, List.getElem?_map, Option.map_eq_some'] at found
    obtain ⟨entry, -, rfl⟩ := found
    simpa [State.sentBy, State.init] using Entry.sentOk_start _ entry
  failed := by
    simp only [State.init, List.getElem?_map, Option.map_eq_some', Bool.false_eq_true, false_iff,
      not_exists, not_and]
    rintro i call ⟨entry, -, rfl⟩
    cases entry <;> simp [Entry.start]

/-- **Every reachable state keeps the invariant.** -/
theorem Reachable.inv {h : Handle} {entries : List Entry} {s : State}
    (reach : Reachable h entries s) : Inv s := by
  induction reach with
  | init => exact Inv.init h entries
  | step _ stepped ih => exact ih.step stepped

/-! ## Frames -/

/-- A step changes the handle only in its `failed` flag, and keeps each call's entry point. -/
theorem step_frame {s s' : State} {i : Nat} {a : Action} (stepped : step s i a = some s') :
    s'.handle = { s.handle with failed := s'.handle.failed } ∧
      s'.calls.map Call.entry = s.calls.map Call.entry := by
  obtain ⟨call, next, found, moves, rfl⟩ := step_inv stepped
  refine ⟨?_, ?_⟩
  · rcases moves.onHandle s.handle with same | ⟨raised, -, onHandle⟩
    · simp [State.apply, same]
    · simp only [State.apply, onHandle, failing]
      split <;> rfl
  · refine List.ext_getElem? fun j => ?_
    simp only [State.apply, List.getElem?_map, List.getElem?_set]
    split
    · rename_i same
      subst same
      simp [found, (List.getElem?_eq_some.mp found).1]
    · rfl

/-- In a reachable state the handle is the one `open` returned but for `failed`, and the calls
are the ones issued. -/
theorem Reachable.frame {h : Handle} {entries : List Entry} {s : State}
    (reach : Reachable h entries s) :
    s.handle = { h with failed := s.handle.failed } ∧ s.calls.map Call.entry = entries := by
  induction reach with
  | init => simp [State.init, Function.comp_def]
  | step _ stepped ih =>
    obtain ⟨handle, entries⟩ := step_frame stepped
    refine ⟨?_, entries.trans ih.2⟩
    rw [handle, ih.1]

/-- The pool size never changes. -/
theorem Reachable.connections {h : Handle} {entries : List Entry} {s : State}
    (reach : Reachable h entries s) : s.handle.connections = h.connections := by
  rw [reach.frame.1]

/-- A connection is held exactly when some call holds it. -/
theorem State.mem_held {s : State} {x : Nat} :
    x ∈ s.held ↔ ∃ (i : Nat) (call : Call), s.calls[i]? = some call ∧ x ∈ call.pc.held := by
  simp only [State.held, List.mem_flatten, List.mem_map]
  constructor
  · rintro ⟨_, ⟨call, member, rfl⟩, mem⟩
    obtain ⟨i, found⟩ := List.mem_iff_getElem?.mp member
    exact ⟨i, call, found, mem⟩
  · rintro ⟨i, call, found, mem⟩
    exact ⟨_, ⟨call, List.getElem?_mem found, rfl⟩, mem⟩

/-- Once every call has returned, the queue holds all `N` connections again. -/
theorem Reachable.drained {h : Handle} {entries : List Entry} {s : State}
    (reach : Reachable h entries s)
    (finished : ∀ call ∈ s.calls, ∃ raised, call.pc = .done raised) :
    s.idle.Perm (List.range h.connections) := by
  have empty : s.held = [] := by
    simp only [State.held, List.flatten_eq_nil_iff, List.mem_map]
    rintro _ ⟨call, mem, rfl⟩
    obtain ⟨raised, ended⟩ := finished call mem
    simp [ended]
  simpa [empty, reach.connections] using reach.inv.conserved

/-! ## The contract of the pool -/

/-- **The pool's contract** in a state of the calls on `h`, with `N = h['connections']`
connections made by `create_http_pool`. -/
structure Contract (h : Handle) (s : State) : Prop where
  /-- The idle queue and the connections the calls hold are, together, exactly `0, …, N - 1`,
  each once: none lost, none made twice, none held by two calls. -/
  conserved : (s.idle ++ s.held).Perm (List.range h.connections)
  /-- `h['connections']` is still `N`. -/
  connections : s.handle.connections = h.connections
  /-- A `flush` that is sending holds all `N` connections, the queue is empty, and no other call
  holds one. -/
  exclusive : ∀ (i : Nat) (entry : Entry) (locked : List Nat) (sent : Nat),
    s.calls[i]? = some ⟨entry, .flushing locked sent⟩ →
      locked.Perm (List.range h.connections) ∧ s.idle = [] ∧
        ∀ (j : Nat) (call : Call), j ≠ i → s.calls[j]? = some call → call.pc.held = []
  /-- Every `flush` has sent at most one request on each connection, and one on every
  connection if it returned normally. -/
  flushedOnce : ∀ (i : Nat) (call : Call), s.calls[i]? = some call → call.entry = .flush →
    (s.sentBy i).Nodup ∧ (call.pc = .done false → (s.sentBy i).Perm (List.range h.connections))
  /-- Once every call has returned, the queue holds all `N`, so `close_http_pool`'s drain finds
  them all. -/
  drained : (∀ call ∈ s.calls, ∃ raised, call.pc = .done raised) →
    s.idle.Perm (List.range h.connections)

/-- **The pool keeps its contract** in every state that any interleaving of any calls on `h`
reaches. -/
theorem pool_conserved {h : Handle} {entries : List Entry} {s : State}
    (reach : Reachable h entries s) : Contract h s := by
  have inv := reach.inv
  have size := reach.connections
  refine ⟨size ▸ inv.conserved, size, ?exclusive, ?flushedOnce, ?drained⟩
  case exclusive =>
    intro i entry locked sent found
    have ok := inv.logged i _ found
    obtain ⟨distinct, inPool⟩ := inv.held_distinct found
    have full : locked.length = h.connections := by
      cases access : entry.access <;> simp only [access, SentOk] at ok
      exact size ▸ ok.2
    have whole : locked.Perm (List.range h.connections) :=
      (distinct.subperm fun x mem => List.mem_range.mpr (size ▸ inPool x mem)).perm_of_length_le
        (by simp [Pc.held, full])
    have inRange : ∀ x, x < h.connections → x ∈ locked := fun x below =>
      whole.mem_iff.mpr (List.mem_range.mpr below)
    refine ⟨whole, ?_, ?_⟩
    · refine List.eq_nil_iff_forall_not_mem.mpr fun x idle => inv.held_not_idle found ?_ idle
      exact inRange x
        (size ▸ List.mem_range.mp (inv.conserved.subset (List.mem_append_left _ idle)))
    · intro j call apart foundJ
      refine List.eq_nil_iff_forall_not_mem.mpr fun x mem =>
        inv.held_apart found foundJ (Ne.symm apart) ?_ mem
      exact inRange x (size ▸ (inv.held_distinct foundJ).2 x mem)
  case flushedOnce =>
    intro i call found isFlush
    have ok := inv.logged i call found
    rw [isFlush] at ok
    refine ⟨ok.nodup (inv.held_distinct found).1, fun ended => ?_⟩
    rw [ended] at ok
    simpa [SentOk, size] using ok
  case drained => exact reach.drained

/-- The contract in the middle of a run: a `pread` took a connection and gave it back, then a
`flush` locked both connections and sent its first flush request. -/
theorem pool_conserved_flushing :
    ∃ s, run (State.init twoConnections [.pread, .flush])
        [(0, .get), (0, .finish), (0, .put), (0, .leave), (1, .get), (1, .get), (1, .lock),
          (1, .send)] = some s ∧
      s.calls[1]? = some ⟨.flush, .flushing [1, 0] 1⟩ ∧ s.idle = [] ∧
      Reachable twoConnections [.pread, .flush] s ∧ Contract twoConnections s := by
  have ran : run (State.init twoConnections [.pread, .flush])
      [(0, .get), (0, .finish), (0, .put), (0, .leave), (1, .get), (1, .get), (1, .lock),
        (1, .send)] = some _ := rfl
  exact ⟨_, ran, rfl, rfl, Reachable.init.run ran, pool_conserved (Reachable.init.run ran)⟩

/-! ## Calls in flight -/

end Pool

end RhvUpload
