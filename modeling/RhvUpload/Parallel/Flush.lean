/-
**A flush that has reached every connection leaves no write unflushed.**

`flush` first waits for all requests in flight (`iter_http_pool` takes every connection out of
the pool), then sends `PATCH {"op": "flush"}` on each connection. The imageio server flushes
what was written through the connection a flush request arrives on, so a write is safe on disk
once a flush request followed it on its own connection (`Flushed`).

* `Flushed` — every `pwrite` or `zero` request the server handled on a connection was followed
  by a flush request on that connection; appending requests keeps it, and a flush request on the
  connection makes it.
* `Durable` — **the invariant**: a call that is sending flush requests has left no write
  unflushed on the connections it has sent on. No write is handled while it sends, since it
  holds the whole pool (`Contract.exclusive`).
* **`flush_covers_writes`** — in every state that any interleaving reaches, once a flush call
  has sent its request on every connection it locked, every write the server has handled, from
  any call, was followed by a flush request on its own connection. So when `flush` returns
  normally, every write that returned before it was called, or was in flight when it was called,
  is flushed.
* `Reachable.flush_sender` — every flush request the server handled was sent by a `flush` call.
-/

import RhvUpload.Parallel.State

namespace RhvUpload

/-- A block call that changes the image: a `pwrite` or a `zero`. -/
def Op.writes : Op → Bool
  | .pread .. => false
  | _ => true

namespace Parallel

/-! ## Flushed connections -/

/-- Every write the server handled on connection `http` was followed by a flush request on
`http`. -/
def Flushed (log : List Event) (http : Nat) : Prop :=
  ∀ (p i : Nat) (op : Op), log[p]? = some (.block i http op) → op.writes →
    ∃ q j, p < q ∧ log[q]? = some (.flush j http)

section Flushed

variable {log : List Event} {http : Nat}

/-- A block request in a log extended by requests that are no block requests was in the log. -/
theorem getElem?_append_block {more : List Event} (noBlock : ∀ e ∈ more, Event.block? e = none)
    {p i : Nat} {op : Op} (found : (log ++ more)[p]? = some (.block i http op)) :
    log[p]? = some (.block i http op) := by
  have before : p < log.length := by
    by_contra after
    rw [List.getElem?_append_right (by omega)] at found
    simpa [Event.block?] using noBlock _ (List.getElem?_mem found)
  rwa [List.getElem?_append_left before] at found

/-- Requests after a flushed connection's writes leave it flushed, when none is a write. -/
theorem Flushed.append (flushed : Flushed log http) {more : List Event}
    (noBlock : ∀ e ∈ more, Event.block? e = none) : Flushed (log ++ more) http := by
  intro p i op found writes
  obtain ⟨q, j, later, flush⟩ := flushed p i op (getElem?_append_block noBlock found) writes
  exact ⟨q, j, later, by rw [List.getElem?_append_left (List.getElem?_eq_some.mp flush).1]; exact flush⟩

/-- A flush request on a connection flushes every write handled on it before. -/
theorem flushed_append_flush (j : Nat) : Flushed (log ++ [.flush j http]) http := by
  intro p i op found writes
  have before : p < log.length := by
    by_contra after
    rw [List.getElem?_append_right (by omega)] at found
    simpa using List.getElem?_mem found
  exact ⟨log.length, j, before, by simp⟩

/-- The requests of a pool action are no writes. -/
theorem block?_ofEffect (i : Nat) (effect : Pool.Effect) :
    ∀ e ∈ Event.ofEffect i effect, Event.block? e = none := by
  cases effect <;> simp [Event.ofEffect, Event.block?]

end Flushed

/-! ## The invariant -/

/-- **A call sending flush requests has left no write unflushed** on the connections it has sent
on. -/
def Durable (s : State) : Prop :=
  ∀ (f : Nat) (entry : Pool.Entry) (locked : List Nat) (sent : Nat),
    s.pool.calls[f]? = some ⟨entry, .flushing locked sent⟩ →
      ∀ http ∈ locked.take sent, Flushed s.log http

/-- Every block request went on a connection of the pool. -/
def OnPool (N : Nat) (s : State) : Prop :=
  ∀ (p i http : Nat) (op : Op), s.log[p]? = some (.block i http op) → http < N

section Invariant

variable {flagFua : Nat} {link : Link} {jobs : List Job} {h : Handle} {disk : List UInt8}
  {s s' : State} {i : Nat} {a : Action}

/-- A move that ends sending flush requests locked the pool, or sent one more. -/
theorem flushing_of_moves {N : Nat} {entry : Pool.Entry} {idle : List Nat} {pc : Pool.Pc}
    {next : Pool.Pc × List Nat × Pool.Effect} (moves : pc.Moves N entry idle next)
    {locked : List Nat} {sent : Nat} (sending : next.1 = .flushing locked sent) :
    (sent = 0 ∧ next.2.2 = .quiet) ∨ ∃ http before, pc = .flushing locked before ∧
      sent = before + 1 ∧ locked[before]? = some http ∧ next.2.2 = .flushOn http := by
  cases moves <;> simp_all

/-- Only a call sending flush requests makes a flush request. -/
theorem flushing_of_flushOn {N : Nat} {entry : Pool.Entry} {idle : List Nat} {pc : Pool.Pc}
    {next : Pool.Pc × List Nat × Pool.Effect} (moves : pc.Moves N entry idle next) {http : Nat}
    (sending : next.2.2 = .flushOn http) : ∃ locked sent, pc = .flushing locked sent := by
  cases moves <;> simp_all

/-- A call that runs `iter_http_pool` is a `flush`. -/
theorem Job.flush_of_drain {job : Job} (drain : job.entry.access = .drain) : job = .flush := by
  rcases job with (_ | _ | _) | _ | _ | _ | _ | _ <;>
    simp_all [Job.entry, Pool.Entry.access]

/-- A call sending flush requests holds the whole pool. -/
theorem flushing_whole {pool : Pool.State} (poolInv : Pool.Inv pool) {f : Nat} {entry : Pool.Entry}
    {locked : List Nat} {sent : Nat} (found : pool.calls[f]? = some ⟨entry, .flushing locked sent⟩) :
    locked.Perm (List.range pool.handle.connections) := by
  have ok := poolInv.logged f _ found
  obtain ⟨distinct, inPool⟩ := poolInv.held_distinct found
  have full : locked.length = pool.handle.connections := by
    cases access : entry.access <;> simp only [access, Pool.SentOk] at ok
    exact ok.2
  exact (distinct.subperm fun x mem => List.mem_range.mpr (inPool x mem)).perm_of_length_le
    (by simp [Pool.Pc.held, full])

/-- **One step keeps the invariant.** -/
theorem Durable.step (durable : Durable s) (poolInv : Pool.Inv s.pool)
    (stepped : Parallel.step flagFua link jobs s i a = some s') : Durable s' := by
  intro f entry locked sent found http mem
  cases a with
  | exchange =>
    -- no exchange is made while a call holds the whole pool
    obtain ⟨mover, held, op, foundMover, -, -, rfl⟩ := step_exchange_inv stepped
    have apart : f ≠ i := by rintro rfl; simp [foundMover] at found
    have inPool := (poolInv.held_distinct foundMover).2 held (List.mem_singleton_self _)
    exact poolInv.held_apart found foundMover apart
      (((flushing_whole poolInv found).mem_iff).mpr (List.mem_range.mpr inPool))
      (List.mem_singleton_self _) |>.elim
  | pool b =>
    obtain ⟨⟨entry', pc⟩, next, foundMover, -, moves, -, rfl⟩ := step_pool_inv stepped
    change (s.pool.calls.set i ⟨entry', next.1⟩)[f]? = some _ at found
    by_cases same : f = i
    · subst same
      rw [List.getElem?_set_self (List.getElem?_eq_some.mp foundMover).1, Option.some.injEq,
        Pool.Call.mk.injEq] at found
      rcases flushing_of_moves moves found.2 with ⟨rfl, -⟩ | ⟨sentOn, before, was, rfl, next', effect⟩
      · simp at mem
      · cases was
        rw [List.take_succ, next', Option.toList_some, List.mem_append, List.mem_singleton] at mem
        change Flushed (s.log ++ Event.ofEffect f next.2.2) http
        rw [effect]
        rcases mem with old | rfl
        · exact (durable f entry' locked before foundMover http old).append
            (block?_ofEffect f _)
        · exact flushed_append_flush f
    · rw [List.getElem?_set_ne (Ne.symm same)] at found
      exact (durable f entry locked sent found http mem).append (block?_ofEffect i _)

/-- **One step keeps every block request on the pool.** -/
theorem OnPool.step (onPool : OnPool s.pool.handle.connections s) (poolInv : Pool.Inv s.pool)
    (stepped : Parallel.step flagFua link jobs s i a = some s') :
    OnPool s'.pool.handle.connections s' := by
  intro p j http op found
  cases a with
  | exchange =>
    obtain ⟨mover, held, op', foundMover, -, -, rfl⟩ := step_exchange_inv stepped
    rcases Nat.lt_or_ge p s.log.length with before | after
    · rw [List.getElem?_append_left before] at found
      exact onPool p j http op found
    · rw [List.getElem?_append_right after] at found
      obtain ⟨bound, same⟩ := List.getElem?_eq_some.mp found
      simp only [List.getElem_singleton, Event.block.injEq] at same
      obtain ⟨-, rfl, -⟩ := same
      exact (poolInv.held_distinct foundMover).2 _ (List.mem_singleton_self _)
  | pool b =>
    obtain ⟨call, next, foundMover, -, -, -, rfl⟩ := step_pool_inv stepped
    change _ < (next.2.2.onHandle s.pool.handle).connections
    rw [Pool.Effect.onHandle_connections]
    exact onPool p j http op (getElem?_append_block (block?_ofEffect i _) found)

/-- The calls start with no request handled and no call sending. -/
theorem Reachable.durable (reach : Reachable flagFua link jobs h disk s) :
    Durable s ∧ OnPool s.pool.handle.connections s := by
  induction reach with
  | init =>
    refine ⟨fun f entry locked sent found => ?_, fun p _ _ _ found => by simp [State.init] at found⟩
    simp only [State.init, Pool.State.init, List.map_map, List.getElem?_map,
      Option.map_eq_some'] at found
    obtain ⟨job, -, started⟩ := found
    cases entry : Job.entry job <;> simp [entry, Pool.Entry.start] at started
  | step reach stepped ih =>
    exact ⟨ih.1.step reach.pool.inv stepped, ih.2.step reach.pool.inv stepped⟩

/-- **Every flush request the server handled was sent by a `flush` call.** -/
theorem Reachable.flush_sender (reach : Reachable flagFua link jobs h disk s) :
    ∀ i http, Event.flush i http ∈ s.log → jobs[i]? = some .flush := by
  induction reach with
  | init => simp [State.init]
  | step before stepped ih =>
    rename_i a
    cases a with
    | exchange =>
      obtain ⟨-, -, -, -, -, -, rfl⟩ := step_exchange_inv stepped
      intro i http mem
      exact ih i http (by simpa using mem)
    | pool b =>
      obtain ⟨call, next, found, -, moves, -, rfl⟩ := step_pool_inv stepped
      intro i http mem
      rcases List.mem_append.mp mem with old | new
      · exact ih i http old
      rcases sending : next.2.2 with _ | http' | _ <;>
        simp only [sending, Event.ofEffect, List.mem_singleton, List.not_mem_nil,
          Event.flush.injEq] at new
      obtain ⟨rfl, rfl⟩ := new
      -- the sender is sending flush requests, so it runs `iter_http_pool`
      obtain ⟨locked, sent, flushing⟩ := flushing_of_flushOn moves sending
      have logged := before.pool.inv.logged _ call found
      rw [flushing] at logged
      have drain : call.entry.access = .drain := by
        cases access : call.entry.access <;> simp_all [Pool.SentOk]
      obtain ⟨job, job', same⟩ := before.job_entry found
      rw [job', Job.flush_of_drain ((congrArg Pool.Entry.access same).trans drain)]

end Invariant

/-- **Once a flush has reached every connection, no write is unflushed.** For every disk image,
every link and every set of calls nbdkit runs at once on a handle: in every state that any
interleaving reaches, when a call has sent its flush request on every connection it locked,
every `pwrite` or `zero` request the server has handled, from any call, was followed by a flush
request on the connection it went on. -/
theorem flush_covers_writes {flagFua : Nat} {link : Link} {jobs : List Job} {h : Handle}
    {disk : List UInt8} {s : State} (reach : Reachable flagFua link jobs h disk s) {f : Nat}
    {entry : Pool.Entry} {locked : List Nat} {sent : Nat}
    (found : s.pool.calls[f]? = some ⟨entry, .flushing locked sent⟩) (sentAll : locked.length ≤ sent) :
    ∀ (p i http : Nat) (op : Op), s.log[p]? = some (.block i http op) → op.writes →
      ∃ q j, p < q ∧ s.log[q]? = some (.flush j http) := by
  intro p i http op handled writes
  obtain ⟨durable, onPool⟩ := reach.durable
  have locking := (flushing_whole reach.pool.inv found).mem_iff.mpr
    (List.mem_range.mpr (onPool p i http op handled))
  rw [← List.take_of_length_le sentAll] at locking
  exact durable f entry locked sent found http locking p i op handled writes

/-- A `pwrite` that returned, then a `flush` on a pool of two connections that has sent on both:
the write went on connection `0`, which the flush reached second. -/
theorem flush_covers_writes_pwrite :
    ∃ s, Parallel.run 2 Link.whole [.block (.pwrite [9] 1 0), .flush]
        (State.init Pool.twoConnections [.block (.pwrite [9] 1 0), .flush] [1, 2])
        [(0, .pool .get), (0, .exchange), (0, .pool .finish), (0, .pool .put), (0, .pool .leave),
          (1, .pool .get), (1, .pool .get), (1, .pool .lock), (1, .pool .send),
          (1, .pool .send)] = some s ∧
      s.pool.calls[1]? = some ⟨.flush, .flushing [1, 0] 2⟩ ∧ [1, 0].length ≤ 2 ∧
      ∀ (p i http : Nat) (op : Op), s.log[p]? = some (.block i http op) → op.writes →
        ∃ q j, p < q ∧ s.log[q]? = some (.flush j http) := by
  have ran : Parallel.run 2 Link.whole [.block (.pwrite [9] 1 0), .flush]
      (State.init Pool.twoConnections [.block (.pwrite [9] 1 0), .flush] [1, 2])
      [(0, .pool .get), (0, .exchange), (0, .pool .finish), (0, .pool .put), (0, .pool .leave),
        (1, .pool .get), (1, .pool .get), (1, .pool .lock), (1, .pool .send),
        (1, .pool .send)] = some _ := rfl
  exact ⟨_, ran, rfl, by decide, @flush_covers_writes 2 Link.whole _ _ _ _
    (Reachable.init.run ran) 1 .flush [1, 0] 2 rfl (by decide)⟩

end Parallel

end RhvUpload
