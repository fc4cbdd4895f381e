/-
**The whole life of a handle: the calls, then `close`.**

nbdkit closes a handle once every call on it has returned. What `close` does then depends on
what the calls did: `h['failed']` says whether one raised, and the server holds what they wrote.
Here the calls run against the server behind the pool (`RhvUpload.Parallel`), so the two can be
put together.

* `close_of_drained` — once every call has returned and every pooled `http.close()` returns,
  `close` closes the pool's connections and settles the transfer.
* `writeDiskId_mem_settle` — `close` writes the disk id exactly when the handle is not failed and
  `finalize_transfer` returned.
* `open_handle` (in `RhvUpload.Lifecycle.Open`) — the handle `open` returns is sized by the
  options `get_options` read.
* **`open_within_limits`** — the pool that `open` makes keeps the calls within the server's
  limits: at most `min(max_readers, max_writers, MAX_CONNECTIONS)` of them hold a connection at
  once, in every interleaving.
* **`close_publishes_complete`** — `close` writes the disk id only after an upload in which every
  call returned normally; then the server has handled every block call's request once, and its
  image is the block device after all of them.
* `features_exchange` — a block call relies only on the features its handle says the server has.
* **`calls_use_announced`** — in every interleaving of the calls on the handle `open` returned,
  every request the server handles relies only on features its `OPTIONS` answer announced: a zero
  `PATCH` on `"zero"`, and a flush `PATCH` or a request that asks for a flush on `"flush"`.
-/

import RhvUpload.Lifecycle.Close
import RhvUpload.Lifecycle.Open
import RhvUpload.Parallel.Complete
import RhvUpload.Parallel.Flush

namespace RhvUpload

section Publish

variable (params : Params) (world : World)

/-- Once every call has returned and every pooled `http.close()` returns, `close` closes the
queue's connections in order and then settles the transfer. -/
theorem close_of_drained {h : Handle} {entries : List Pool.Entry} {s : Pool.State}
    (reach : Pool.Reachable h entries s)
    (finished : ∀ call ∈ s.calls, ∃ raised, call.pc = .done raised)
    (poolCloses : ∀ http, world.closePool http = .ok ()) :
    close params world s.handle s.idle =
      some ⟨(s.idle.take s.handle.connections).map .closePool ++
        (settleTransfer params world s.handle).calls, (settleTransfer params world s.handle).result⟩ := by
  have fits : s.handle.connections ≤ s.idle.length := by
    rw [reach.connections, (reach.drained finished).length_eq, List.length_range]
  simp [close, closeHttpPool, fits, closeEach_ok poolCloses]

/-- `close` writes the disk id exactly when the handle is not failed and `finalize_transfer`
returned normally. -/
theorem writeDiskId_mem_settle (h : Handle) :
    Event.writeDiskId params.diskidFile h.diskId ∈ (settleTransfer params world h).calls ↔
      h.failed = false ∧ (finalizeTransfer world h.transfer h.diskId).result.isOk := by
  have notWritten : Event.writeDiskId params.diskidFile h.diskId ∉
      (finalizeTransfer world h.transfer h.diskId).calls := fun mem => by
    simpa [Event.kind] using (finalizeTransfer_calls world h.transfer h.diskId).1 _ mem
  rw [settleTransfer_calls]
  cases h.failed <;> cases (finalizeTransfer world h.transfer h.diskId).result.isOk <;>
    simp [notWritten]

/-- **`close` publishes the disk only after a complete upload.** Take any handle, any calls
nbdkit runs at once on it whose block calls each cover at least one byte inside the disk, any
interleaving against the contract server in which all of them returned, and let every pooled
`http.close()` return. Then `close` does not block, and it writes the disk id to
`params['diskid_file']` exactly when every call returned normally and `finalize_transfer`
returned; and when it writes it, the server has handled each block call's request exactly once
and the calls are linearized: the image is the block device after all of them, in the order the
server handled them. -/
theorem close_publishes_complete {flagFua : Nat} {link : Link} {jobs : List Parallel.Job}
    {h : Handle} {disk : List UInt8} (valid : ∀ job ∈ jobs, job.Valid disk.length)
    {s : Parallel.State} (reach : Parallel.Reachable flagFua link jobs h disk s)
    (finished : ∀ call ∈ s.pool.calls, ∃ raised, call.pc = .done raised)
    (poolCloses : ∀ http, world.closePool http = .ok ()) :
    ∃ run, close params world s.pool.handle s.pool.idle = some run ∧
      (Event.writeDiskId params.diskidFile h.diskId ∈ run.calls ↔
        (∀ call ∈ s.pool.calls, call.pc = .done false) ∧
          (finalizeTransfer world h.transfer h.diskId).result.isOk) ∧
      (Event.writeDiskId params.diskidFile h.diskId ∈ run.calls →
        (∀ i op, (i, op) ∈ s.served ↔ jobs[i]? = some (.block op)) ∧
          Parallel.Linearized jobs disk s) := by
  have poolReach := reach.pool
  have handle : s.pool.handle = { h with failed := s.pool.handle.failed } := poolReach.frame.1
  -- the handle is failed exactly when some call raised
  have normal : s.pool.handle.failed = false ↔ ∀ call ∈ s.pool.calls, call.pc = .done false := by
    rw [← Bool.not_eq_true, poolReach.inv.failed]
    constructor
    · intro none call mem
      obtain ⟨raised, ended⟩ := finished call mem
      cases raised
      · exact ended
      · obtain ⟨i, found⟩ := List.mem_iff_getElem?.mp mem
        exact absurd ⟨i, call, found, ended⟩ none
    · rintro all ⟨i, call, found, ended⟩
      simpa [ended] using all call (List.getElem?_mem found)
  have written : Event.writeDiskId params.diskidFile h.diskId ∈
      (s.pool.idle.take s.pool.handle.connections).map Event.closePool ++
        (settleTransfer params world s.pool.handle).calls ↔
      (∀ call ∈ s.pool.calls, call.pc = .done false) ∧
        (finalizeTransfer world h.transfer h.diskId).result.isOk := by
    have settled := writeDiskId_mem_settle params world s.pool.handle
    rw [show s.pool.handle.diskId = h.diskId by rw [handle],
      show s.pool.handle.transfer = h.transfer by rw [handle]] at settled
    have notClosed : Event.writeDiskId params.diskidFile h.diskId ∉
        (s.pool.idle.take s.pool.handle.connections).map Event.closePool := by
      rw [List.mem_map]
      rintro ⟨_, -, impossible⟩
      cases impossible
    rw [List.mem_append, or_iff_right notClosed, settled, normal]
  refine ⟨_, close_of_drained params world poolReach finished poolCloses, written, fun mem => ?_⟩
  have lin := reach.linearized valid
  exact ⟨lin.served_iff reach (written.mp mem).1, lin⟩

/-- A `pwrite` and a `pread` that both return on a smooth world: `close` publishes the disk. -/
theorem close_publishes_complete_smooth :
    let jobs : List Parallel.Job := [.block (.pwrite [9] 1 0), .block (.pread [0, 0] 0 0)]
    ∃ s, Parallel.run 2 Link.whole jobs (Parallel.State.init Pool.twoConnections jobs [1, 2])
        [(0, .pool .get), (0, .exchange), (0, .pool .finish), (0, .pool .put), (0, .pool .leave),
          (1, .pool .get), (1, .exchange), (1, .pool .finish), (1, .pool .put), (1, .pool .leave)] = some s ∧
      (∀ job ∈ jobs, job.Valid 2) ∧ (∀ call ∈ s.pool.calls, ∃ raised, call.pc = .done raised) ∧
      (∀ http, smoothWorld.closePool http = .ok ()) ∧
      ∃ run, close smoothParams smoothWorld s.pool.handle s.pool.idle = some run ∧
        (Event.writeDiskId smoothParams.diskidFile Pool.twoConnections.diskId ∈ run.calls ↔
          (∀ call ∈ s.pool.calls, call.pc = .done false) ∧
            (finalizeTransfer smoothWorld Pool.twoConnections.transfer
              Pool.twoConnections.diskId).result.isOk) ∧
        (Event.writeDiskId smoothParams.diskidFile Pool.twoConnections.diskId ∈ run.calls →
          (∀ i op, (i, op) ∈ s.served ↔ jobs[i]? = some (.block op)) ∧
            Parallel.Linearized jobs [1, 2] s) := by
  intro jobs
  have ran : Parallel.run 2 Link.whole jobs (Parallel.State.init Pool.twoConnections jobs [1, 2])
      [(0, .pool .get), (0, .exchange), (0, .pool .finish), (0, .pool .put), (0, .pool .leave),
        (1, .pool .get), (1, .exchange), (1, .pool .finish), (1, .pool .put), (1, .pool .leave)] = some _ := rfl
  exact ⟨_, ran, by decide, by decide, fun _ => rfl,
    close_publishes_complete smoothParams smoothWorld (by decide) (Parallel.Reachable.init.run ran)
      (by decide) fun _ => rfl⟩

end Publish

/-! ## The server's limits -/

/-- On the smooth world `open` returns a handle with one connection, the server having given no
limits, that can flush and zero. -/
theorem open_smooth :
    («open» smoothParams smoothWorld).result =
      .ok ⟨true, true, "disk", Pool.twoConnections.transfer, false, 1, "/images/transfer"⟩ := by
  have disked : waitForDisk smoothWorld Pool.twoConnections.diskId 0 =
      ⟨[.getDisk Pool.twoConnections.diskId], .ok ()⟩ := by
    rw [waitForDisk]
    simp [smoothWorld]
  have polled : waitForTransfer smoothWorld Pool.twoConnections.transfer.id 0
      Pool.twoConnections.transfer =
        ⟨[.getTransfer Pool.twoConnections.transfer.id], .ok Pool.twoConnections.transfer⟩ := by
    rw [waitForTransfer]
    simp [smoothWorld, Run.tryCatch]
  simp only [«open», directHost, createDisk, createTransfer, Run.result_bind, Run.call_eq,
    show smoothWorld.connect = .ok () from rfl,
    show smoothWorld.addDisk = .ok Pool.twoConnections.diskId from rfl,
    show smoothWorld.addTransfer = .ok Pool.twoConnections.transfer from rfl,
    show smoothParams.rhvDirect = false from rfl, disked, polled]
  rfl

/-- The server features a request relies on, on a transfer whose path is `path`: a zero `PATCH`
needs `"zero"`; a flush `PATCH`, a zero `PATCH` with `"flush": true` and a `PUT` to
`path?flush=y` need `"flush"`. -/
def Request.features (path : String) : Request → List String
  | .get .. => []
  | .put target .. => if target = path ++ "?flush=y" then ["flush"] else []
  | .patch _ (.zero _ _ flush) => if flush then ["zero", "flush"] else ["zero"]
  | .patch _ .flush => ["flush"]

/-- A feature the handle says the server has. -/
def Handle.Supports (h : Handle) (feature : String) : Prop :=
  feature = "zero" ∧ h.canZero = true ∨ feature = "flush" ∧ h.canFlush = true

/-- A `PUT` asks the server to flush exactly when the call is FUA on a server that can flush. -/
theorem putTarget_eq_flush (flagFua : Nat) (h : Handle) (flags : Nat) :
    putTarget flagFua h flags = h.path ++ "?flush=y" ↔ fuaFlush flagFua h.canFlush flags = true := by
  unfold putTarget flushQuery
  cases fuaFlush flagFua h.canFlush flags
  · simp only [if_false, Bool.false_eq_true, iff_false]
    intro same
    simpa [String.data_append] using congrArg String.data same
  · simp only [if_true, iff_true, String.append_assoc]
    rfl

/-- The features a `PUT` of `pwrite` or `emulate_zero` relies on. -/
theorem features_put (flagFua : Nat) (h : Handle) (flags : Nat) (first last : Int) (length : Nat)
    (sends : List (List UInt8)) :
    ∀ feature ∈ (Request.put (putTarget flagFua h flags) first last length sends).features h.path,
      h.Supports feature := by
  intro feature mem
  simp only [Request.features, putTarget_eq_flush] at mem
  split at mem
  · simp only [List.mem_singleton] at mem
    exact .inr ⟨mem, by simp_all [fuaFlush]⟩
  · simp at mem

/-- **A block call relies only on what its handle says the server has**: `zero` sends its
`PATCH` only when `h['can_zero']`, and every request asks for a flush only when
`h['can_flush']`. -/
theorem features_exchange (flagFua : Nat) (h : Handle) (op : Op) :
    ∀ feature ∈ (op.exchange flagFua h).request.features h.path, h.Supports feature := by
  cases op with
  | pread buf offset flags => simp [Op.exchange, RhvUpload.pread, Request.features]
  | pwrite buf offset flags => exact features_put flagFua h flags _ _ _ _
  | zero count offset flags =>
    simp only [Op.exchange, Exchange.map_request, RhvUpload.zero]
    cases canZero : h.canZero
    · exact features_put flagFua h flags _ _ _ _
    intro feature mem
    simp only [Request.features, Bool.not_true, Bool.false_eq_true, if_false] at mem
    split at mem
    · simp only [List.mem_cons, List.mem_singleton, List.not_mem_nil, or_false] at mem
      rcases mem with rfl | rfl
      · exact .inl ⟨rfl, canZero⟩
      · exact .inr ⟨rfl, by simp_all [fuaFlush]⟩
    · simp only [List.mem_singleton] at mem
      exact .inl ⟨mem, canZero⟩

/-- The request a handled request stands for, on the handle `h`: the block call's request, or
`flush`'s `PATCH`. -/
def Parallel.Event.request (flagFua : Nat) (h : Handle) : Parallel.Event → Request
  | .block _ _ op => (op.exchange flagFua h).request
  | .flush .. => (flushConnection h).request

/-- **The calls use only the features the server announced.** When `open` returns a handle, in
every state that any interleaving of any calls on it reaches, against the contract server, every
request the server has handled relies only on features the server's `OPTIONS` answer listed: a
zero `PATCH` only if it listed `"zero"`, and a `PUT` with `flush=y`, a zero `PATCH` with
`"flush": true` or a flush `PATCH` only if it listed `"flush"`. nbdkit calls `flush` only when
`can_flush` returned true. -/
theorem calls_use_announced (params : Params) (world : World) {h : Handle}
    (opened : («open» params world).result = .ok h) {flagFua : Nat} {link : Link}
    {jobs : List Parallel.Job} {disk : List UInt8} {s : Parallel.State}
    (reach : Parallel.Reachable flagFua link jobs h disk s)
    (flushGated : Parallel.Job.flush ∈ jobs → canFlush h = true) :
    ∀ event ∈ s.log, ∀ feature ∈ (event.request flagFua h).features h.path,
      Announces world feature := by
  obtain ⟨options, optioned, -, flushes, zeroes, -⟩ := open_handle opened
  -- `get_options` reads the same options on any connection
  have announced := getOptions_announces (optioned (.unix "") h.transfer.proxyUrl)
  have supported : ∀ feature, h.Supports feature → Announces world feature := by
    rintro feature (⟨rfl, zero⟩ | ⟨rfl, flush⟩)
    · exact announced.2 (zeroes ▸ zero)
    · exact announced.1 (flushes ▸ flush)
  intro event mem feature needed
  apply supported
  cases event with
  | block i http op => exact features_exchange flagFua h op feature needed
  | flush i http =>
    simp only [Parallel.Event.request, flushConnection, Request.features,
      List.mem_singleton] at needed
    exact .inr ⟨needed, flushGated (List.getElem?_mem (reach.flush_sender i http mem))⟩

/-- A FUA zero and a flush on the handle of the smooth world: the zero `PATCH` asks for a flush,
and the server announced both features. -/
theorem calls_use_announced_smooth :
    let h : Handle := ⟨true, true, "disk", Pool.twoConnections.transfer, false, 1,
      "/images/transfer"⟩
    let jobs : List Parallel.Job := [.block (.zero 1 0 2), .flush]
    ∃ s, Parallel.run 2 Link.whole jobs (Parallel.State.init h jobs [1, 2])
        [(0, .pool .get), (0, .exchange), (0, .pool .finish), (0, .pool .put), (0, .pool .leave),
          (1, .pool .get), (1, .pool .lock), (1, .pool .send)] = some s ∧
      («open» smoothParams smoothWorld).result = .ok h ∧
      (Parallel.Job.flush ∈ jobs → canFlush h = true) ∧
      s.log.map (fun event => (event.request 2 h).features h.path) = [["zero", "flush"], ["flush"]] ∧
      ∀ event ∈ s.log, ∀ feature ∈ (event.request 2 h).features h.path,
        Announces smoothWorld feature := by
  intro h jobs
  have ran : Parallel.run 2 Link.whole jobs (Parallel.State.init h jobs [1, 2])
      [(0, .pool .get), (0, .exchange), (0, .pool .finish), (0, .pool .put), (0, .pool .leave),
        (1, .pool .get), (1, .pool .lock), (1, .pool .send)] = some _ := rfl
  exact ⟨_, ran, open_smooth, fun _ => rfl, by decide,
    calls_use_announced smoothParams smoothWorld open_smooth (Parallel.Reachable.init.run ran)
      fun _ => rfl⟩

end RhvUpload
