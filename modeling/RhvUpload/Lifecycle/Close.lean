/-
**`close`, and the whole life of a handle.**

`close` drains the pool (`close_http_pool`: take all `h['connections']` connections, close
each), and then, on a handle some call marked failed, cancels the transfer; on any other it
finalizes the transfer, cancels it if that raises, and writes the disk id if it does not.
Either way a `finally:` closes the control-plane connection. The handle `close` gets is the one
`open` returned, as the entry points left it: the pool model (`RhvUpload.Pool`) says what that
is after any interleaving of any calls.

* `closeHttpPool` — blocks forever (`none`) unless the queue holds all `h['connections']`
  connections; `Pool.Reachable.drained` says that it does once every call has returned.
* **`close_skips_cleanup`** — when `http.close()` in `close_http_pool` raises, `close` raises at
  once: the transfer of a failed handle is never cancelled, and `connection.close()` is never
  called.
* `settleTransfer_calls` — the calls `close` makes after the pool, whatever each answers.
* `Cleanup` — what `close` does to the control plane when the pool closes cleanly, with every
  `cancel()` and `finalize()` on the service of `h['transfer']`.
* **`close_cleanup`** — after `open`'s handle went through any interleaving of any entry-point
  calls, all returned: `h['failed']` is set iff some call raised, `close` does not block, and
  when every pooled `http.close()` returns it does what `Cleanup` says.
-/

import RhvUpload.Lifecycle.Finalize
import RhvUpload.Pool.Invariant

namespace RhvUpload

/-! ## `close` -/

/-- `for http in locked: http.close()`. -/
def closeEach (world : World) : List Nat → Run Unit
  | [] => pure ()
  | http :: rest => Run.call (.closePool http) (world.closePool http) >>= fun _ =>
    closeEach world rest

/-- `close_http_pool`: `pool.get()` until all `h['connections']` connections are taken, which
never happens (`none`) when the queue holds fewer, then close them in the queue's order. -/
def closeHttpPool (world : World) (h : Handle) (idle : List Nat) : Option (Run Unit) :=
  if h.connections ≤ idle.length then some (closeEach world (idle.take h.connections)) else none

/-- The rest of `close` after `close_http_pool`: on a failed handle `try: cancel_transfer
finally: connection.close()`; on any other `try: finalize_transfer except: cancel_transfer;
raise else: write the disk id finally: connection.close()`. -/
def settleTransfer (params : Params) (world : World) (h : Handle) : Run Unit :=
  if h.failed then
    (cancelTransfer world h.transfer).tryFinally (Run.call .closeConnection world.closeConnection)
  else
    ((finalizeTransfer world h.transfer h.diskId).handle
        (fun e => cancelTransfer world h.transfer >>= fun _ => Run.throw e)
        fun _ => Run.call (.writeDiskId params.diskidFile h.diskId) world.writeDiskId).tryFinally
      (Run.call .closeConnection world.closeConnection)

/-- `close(h)`, with `idle` the pool's queue; `none` when it blocks in `close_http_pool`. -/
def close (params : Params) (world : World) (h : Handle) (idle : List Nat) : Option (Run Unit) :=
  (closeHttpPool world h idle).map fun drain => drain >>= fun _ => settleTransfer params world h

/-- Closing connections that all close cleanly: one `http.close()` each, in order. -/
theorem closeEach_ok {world : World} (fine : ∀ http, world.closePool http = .ok ()) :
    ∀ locked, closeEach world locked = ⟨locked.map .closePool, .ok ()⟩
  | [] => rfl
  | http :: rest => by simp [closeEach, fine, closeEach_ok fine rest]

/-! ## A raising `http.close()` skips the cleanup -/

/-- **`close_http_pool` raising skips all cleanup.** Take the handle `open` returned, with a pool
of `n + 1` connections, and one `pread` call that took a connection, raised (as `request_failed`
does on an error status) and put the connection back, so that `h['failed']` is set and all
connections are idle. If `http.close()` raises `name` on the pooled connections, `close` raises
`name` after the first of them: it never cancels the transfer and never calls
`connection.close()`. -/
theorem close_skips_cleanup (params : Params) (world : World) (h : Handle) (n : Nat)
    (name : String) :
    let pool : Handle := { h with connections := n + 1 }
    let failed : Pool.State :=
      ⟨{ pool with failed := true }, List.range' 1 n ++ [0], [⟨.pread, .done true⟩], []⟩
    Pool.run (Pool.State.init pool [.pread]) [(0, .get), (0, .raise), (0, .put), (0, .leave)] =
        some failed ∧
      Pool.Reachable pool [.pread] failed ∧ failed.handle.failed = true ∧
      (∀ call ∈ failed.calls, ∃ raised, call.pc = .done raised) ∧
      ∃ http, close params { world with closePool := fun _ => .error (.raised name) } failed.handle
          failed.idle = some ⟨[.closePool http], .error (.raised name)⟩ := by
  intro pool failed
  have range : List.range (n + 1) = 0 :: List.range' 1 n := by
    rw [List.range_eq_range', List.range'_succ]
  have ran : Pool.run (Pool.State.init pool [.pread])
      [(0, .get), (0, .raise), (0, .put), (0, .leave)] = some failed := by
    simp [Pool.run, Pool.step, Pool.State.init, Pool.Entry.start, Pool.Pc.next, Pool.Entry.access,
      range, Pool.State.apply, Pool.Effect.onHandle, Pool.Effect.onLog, failing, failed, pool]
  refine ⟨ran, Pool.Reachable.init.run ran, rfl, by simp [failed], ?_⟩
  cases n <;> simp [close, closeHttpPool, failed, pool, closeEach]

/-! ## The cleanup -/

/-- What `close` does to the control plane on the handle `h`. -/
structure Cleanup (params : Params) (world : World) (h : Handle) (run : Run Unit) : Prop where
  /-- `connection.close()` exactly once. -/
  released : run.count .closeConnection = 1
  /-- On a failed handle: one `cancel()`, no `finalize()`, and no disk id written. -/
  cancelled : h.failed = true →
    run.count .cancel = 1 ∧ run.count .finalize = 0 ∧ run.count .writeDiskId = 0
  /-- On any other: `finalize_transfer` once; the disk id written to `params['diskid_file']`
  exactly when it returned normally, and one `cancel()` exactly when it raised. -/
  finalized : h.failed = false → run.count .finalize = 1 ∧
    (Event.writeDiskId params.diskidFile h.diskId ∈ run.calls ↔
      (finalizeTransfer world h.transfer h.diskId).result.isOk) ∧
    run.count .writeDiskId = (if (finalizeTransfer world h.transfer h.diskId).result.isOk then 1
      else 0) ∧
    run.count .cancel = if (finalizeTransfer world h.transfer h.diskId).result.isOk then 0 else 1
  /-- Every `cancel()` and every `finalize()` is on the service of `h['transfer']`. -/
  targeted : ∀ event ∈ run.calls, (event.kind = .cancel → event = .cancel h.transfer.id) ∧
    (event.kind = .finalize → event = .finalize h.transfer.id)

/-- The calls `close` makes after the pool, whatever each of them answers: on a failed handle
`cancel()` and `connection.close()`; on any other `finalize_transfer`'s calls, then the disk id
written if it returned or `cancel()` if it raised, then `connection.close()`. -/
theorem settleTransfer_calls (params : Params) (world : World) (h : Handle) :
    (settleTransfer params world h).calls =
      if h.failed then [.cancel h.transfer.id, .closeConnection]
      else (finalizeTransfer world h.transfer h.diskId).calls ++
        (if (finalizeTransfer world h.transfer h.diskId).result.isOk then
          [.writeDiskId params.diskidFile h.diskId] else [.cancel h.transfer.id]) ++
        [.closeConnection] := by
  unfold settleTransfer cancelTransfer
  cases h.failed
  · generalize finalizeTransfer world h.transfer h.diskId = finalize
    obtain ⟨calls, e | _⟩ := finalize
    · rcases world.cancel with _ | _ <;> simp [Except.isOk, Except.toBool]
    · simp [Except.isOk, Except.toBool]
  · simp

/-- **After the pool, `close` cleans up as it should**, whatever each remote call answers. -/
theorem settleTransfer_cleanup (params : Params) (world : World) (h : Handle) :
    Cleanup params world h (settleTransfer params world h) := by
  have calls := settleTransfer_calls params world h
  obtain ⟨kinds, once⟩ := finalizeTransfer_calls world h.transfer h.diskId
  have finalizes : ((finalizeTransfer world h.transfer h.diskId).calls.map Event.kind).count
      .finalize = 1 := once
  have noCancel : ((finalizeTransfer world h.transfer h.diskId).calls.map Event.kind).count
      .cancel = 0 := kinds.count_eq_zero (by decide)
  have noWrite : ((finalizeTransfer world h.transfer h.diskId).calls.map Event.kind).count
      .writeDiskId = 0 := kinds.count_eq_zero (by decide)
  have noClose : ((finalizeTransfer world h.transfer h.diskId).calls.map Event.kind).count
      .closeConnection = 0 := kinds.count_eq_zero (by decide)
  have notWritten : Event.writeDiskId params.diskidFile h.diskId ∉
      (finalizeTransfer world h.transfer h.diskId).calls := fun mem => by
    simpa [Event.kind] using kinds _ mem
  refine ⟨?released, fun failed => ?cancelled, fun failed => ?finalized,
    fun event mem => ?targeted⟩
  case targeted =>
    rw [calls] at mem
    split at mem
    · simp only [List.mem_cons, List.not_mem_nil, or_false] at mem
      rcases mem with rfl | rfl <;> simp [Event.kind]
    · simp only [List.mem_append, List.mem_singleton] at mem
      rcases mem with (inFinalize | settled) | rfl
      · rcases finalizeTransfer_targets world h.transfer h.diskId event inFinalize with
          rfl | rfl | rfl <;> simp [Event.kind]
      · split at settled <;> simp only [List.mem_singleton] at settled <;> subst settled <;>
          simp [Event.kind]
      · simp [Event.kind]
  all_goals simp only [Run.count, calls]
  case released =>
    split
    · simp [Event.kind]
    · split <;> simp [noClose, Event.kind]
  case cancelled => simp [failed, Event.kind]
  case finalized =>
    cases ok : (finalizeTransfer world h.transfer h.diskId).result.isOk <;>
      simp [failed, ok, finalizes, noCancel, noWrite, notWritten, Event.kind]

/-- Pool closes before the cleanup leave it as it is. -/
theorem Cleanup.afterPool {params : Params} {world : World} {h : Handle} {run : Run Unit}
    (cleanup : Cleanup params world h run) (locked : List Nat) :
    Cleanup params world h ⟨locked.map .closePool ++ run.calls, run.result⟩ := by
  have quiet : ∀ kind, kind ≠ .closePool →
      ((locked.map Event.closePool ++ run.calls).map Event.kind).count kind = run.count kind :=
    fun kind other => by simp [Run.count, List.count_eq_zero, Event.kind, Ne.symm other]
  have fresh : Event.writeDiskId params.diskidFile h.diskId ∉ locked.map Event.closePool := by simp
  obtain ⟨released, cancelled, finalized, targeted⟩ := cleanup
  refine ⟨?_, fun flag => ?_, fun flag => ?_, fun event mem => ?targets⟩
  case targets =>
    rcases List.mem_append.mp mem with pooled | later
    · obtain ⟨http, -, rfl⟩ := List.mem_map.mp pooled
      simp [Event.kind]
    · exact targeted event later
  all_goals simp only [Run.count_mk, List.mem_append, fresh, false_or,
      quiet _ (show Kind.closeConnection ≠ .closePool by decide),
      quiet _ (show Kind.cancel ≠ .closePool by decide),
      quiet _ (show Kind.finalize ≠ .closePool by decide),
      quiet _ (show Kind.writeDiskId ≠ .closePool by decide)]
  · exact released
  · exact cancelled flag
  · exact finalized flag

/-- **`close` cleans up after any run of the pool.** Take the handle `open` returned, let any
calls run through any interleaving until all of them returned, and let every pooled
`http.close()` return. Then `h['failed']` is set exactly when some call raised, `close` does not
block in `close_http_pool`, and it does what `Cleanup` says, whatever every other remote call
answers. -/
theorem close_cleanup (params : Params) (world : World) {h : Handle} {entries : List Pool.Entry}
    {s : Pool.State} (reach : Pool.Reachable h entries s)
    (finished : ∀ call ∈ s.calls, ∃ raised, call.pc = .done raised)
    (poolCloses : ∀ http, world.closePool http = .ok ()) :
    (s.handle.failed = true ↔
        ∃ (i : Nat) (call : Pool.Call), s.calls[i]? = some call ∧ call.pc = .done true) ∧
      ∃ run, close params world s.handle s.idle = some run ∧ Cleanup params world s.handle run := by
  have fits : s.handle.connections ≤ s.idle.length := by
    rw [reach.connections, (reach.drained finished).length_eq, List.length_range]
  refine ⟨reach.inv.failed, _, ?_,
    (settleTransfer_cleanup params world s.handle).afterPool (s.idle.take s.handle.connections)⟩
  simp [close, closeHttpPool, fits, closeEach_ok poolCloses]

/-! ## A world where every call returns -/

/-- A clock whose `k`-th reading is `k` seconds. -/
def Clock.seconds : Clock := ⟨fun k => k, fun k => by simp⟩

/-- A world in which every remote call returns at once: the disk is ok and the transfer of
`twoConnections` is transferring at their first poll, and finishes at its first. -/
def smoothWorld : World where
  connect := .ok ()
  vdsmId := .error (.raised "FileNotFoundError")
  dataCenters := .ok []
  hosts := .ok []
  addDisk := .ok Pool.twoConnections.diskId
  diskClock := Clock.seconds
  diskPoll := fun _ => .ok .ok
  supportsFormat := true
  addTransfer := .ok Pool.twoConnections.transfer
  transferClock := Clock.seconds
  transferPoll := fun _ => .ok ⟨Pool.twoConnections.transfer, .transferring⟩
  cancel := .ok ()
  unixHttp := .ok ()
  sslContext := .ok ()
  options := .ok ⟨200, "OK", .ok ⟨["flush", "zero"], none, none, none⟩⟩
  closeHttp := .ok ()
  closePool := fun _ => .ok ()
  finalize := .ok ()
  finalizeClock := Clock.seconds
  finalizePoll := fun _ => .ok ⟨Pool.twoConnections.transfer, .finishedSuccess⟩
  finalizeDisk := .ok .ok
  closeConnection := .ok ()
  writeDiskId := .ok ()

/-- Parameters for a raw disk of one GiB, written through the proxy. -/
def smoothParams : Params :=
  ⟨false, "/etc/pki/ovirt-engine/ca.pem", false, "raw", "disk", 1073741824, none, "data",
    "diskid"⟩

/-- A `pread` that raised and then a `flush` that returned, on a pool of two connections: the
handle is failed, and `close` cancels the transfer on the smooth world. -/
theorem close_cleanup_failed :
    ∃ s, Pool.run (Pool.State.init Pool.twoConnections [.pread, .flush])
        [(0, .get), (0, .raise), (0, .put), (0, .leave), (1, .get), (1, .get), (1, .lock),
          (1, .send), (1, .send), (1, .finish), (1, .put), (1, .put), (1, .leave)] = some s ∧
      s.handle.failed = true ∧ Pool.Reachable Pool.twoConnections [.pread, .flush] s ∧
      (∀ call ∈ s.calls, ∃ raised, call.pc = .done raised) ∧
      (∀ http, smoothWorld.closePool http = .ok ()) ∧
      (s.handle.failed = true ↔
        ∃ (i : Nat) (call : Pool.Call), s.calls[i]? = some call ∧ call.pc = .done true) ∧
      ∃ run, close smoothParams smoothWorld s.handle s.idle = some run ∧
        Cleanup smoothParams smoothWorld s.handle run := by
  have ran : Pool.run (Pool.State.init Pool.twoConnections [.pread, .flush])
      [(0, .get), (0, .raise), (0, .put), (0, .leave), (1, .get), (1, .get), (1, .lock),
        (1, .send), (1, .send), (1, .finish), (1, .put), (1, .put), (1, .leave)] = some _ := rfl
  exact ⟨_, ran, rfl, Pool.Reachable.init.run ran, by decide, fun _ => rfl,
    close_cleanup smoothParams smoothWorld (Pool.Reachable.init.run ran) (by decide) fun _ => rfl⟩

end RhvUpload
