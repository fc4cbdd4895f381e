/-
**`finalize_transfer`: finalize once, then wait for the verdict.**

`finalize_transfer` calls `transfer_service.finalize()` once and polls the transfer every second.
Two oVirt versions answer differently: a transfer that is kept reaches `FINISHED_SUCCESS`,
`FINISHED_FAILURE` or `PAUSED_SYSTEM`; a transfer that is removed (oVirt < 4.4.7) answers
`NotFoundError`, and then the disk's status, read once, is the verdict. The loop gives up once
`time.time()` is past `start + timeout`, checked only while the transfer is in another phase.

* `GoesOn`, `Succeeds` — a poll that sends the loop round again (a phase outside the three final
  ones, read before the deadline), and one that ends it well (`FINISHED_SUCCESS`, or
  `NotFoundError` and then the disk `OK`).
* `FinalizeWait` — what the wait did (`waitForFinalize_wait`): at most `timeout - k + 1` polls, no
  call but polls of the transfer and the disk, a normal return exactly after some polls that go
  on and one that succeeds, and an exception that is one of the plugin's verdicts or the world's
  own exception passed through.
* **`finalizeTransfer_spec`** — for every world, `finalize_transfer` calls `finalize()` exactly
  once, never cancels, polls at most `timeout + 1` times, returns normally iff `finalize()` did and some
  poll `k` succeeds after polls that all go on, and otherwise raises one of those exceptions.
-/

import RhvUpload.Lifecycle.Remote

namespace RhvUpload

/-! ## The wait -/

/-- `finalize_transfer`'s wait from its `k`-th pass, on the service of transfer `service`, for the
disk `disk`, with `transfer` the last transfer object seen. -/
def waitForFinalize (world : World) (service disk : String) (k : Nat) (transfer : Transfer) :
    Run Unit :=
  (Run.call (.getTransfer service) (world.finalizePoll k)).handle
    (fun e =>
      if e.isNotFound then
        (Run.call (.getDisk disk) world.finalizeDisk).tryCatch Error.isNotFound
            (fun _ => Run.throw (.runtime (.finalizeDiskRemoved transfer.id disk))) >>= fun status =>
          if status = .ok then pure ()
          else Run.throw (.runtime (.finalizeDiskStatus transfer.id status))
      else Run.throw e)
    fun polled =>
      if polled.phase = .finishedSuccess then pure ()
      else if polled.phase = .finishedFailure then
        Run.throw (.runtime (.transferFailed polled.transfer.id))
      else if polled.phase = .pausedSystem then
        Run.throw (.runtime (.transferPaused polled.transfer.id))
      else if late : world.finalizeClock.read (k + 1) > world.finalizeClock.read 0 + timeout then
        Run.throw (.runtime (.finalizeTimeout polled.transfer.id polled.phase))
      else waitForFinalize world service disk (k + 1) polled.transfer
termination_by timeout - k
decreasing_by have := world.finalizeClock.succ_le_of_onTime late; omega

/-- `finalize_transfer(connection, transfer, disk_id)`. -/
def finalizeTransfer (world : World) (transfer : Transfer) (disk : String) : Run Unit := do
  Run.call (.finalize transfer.id) world.finalize
  waitForFinalize world transfer.id disk 0 transfer

/-! ## What the answers mean -/

/-- Poll `j` sends the wait round again: the transfer is in a phase other than
`FINISHED_SUCCESS`, `FINISHED_FAILURE` and `PAUSED_SYSTEM`, read before the deadline. -/
def GoesOn (world : World) (j : Nat) : Prop :=
  ∃ polled, world.finalizePoll j = .ok polled ∧ polled.phase ≠ .finishedSuccess ∧
    polled.phase ≠ .finishedFailure ∧ polled.phase ≠ .pausedSystem ∧
    ¬ world.finalizeClock.read (j + 1) > world.finalizeClock.read 0 + timeout

/-- Poll `j` ends the wait well: `FINISHED_SUCCESS`, or the transfer removed and the disk `OK`. -/
def Succeeds (world : World) (j : Nat) : Prop :=
  (∃ t, world.finalizePoll j = .ok ⟨t, .finishedSuccess⟩) ∨
    (world.finalizePoll j = .error .notFound ∧ world.finalizeDisk = .ok .ok)

/-- The verdicts `finalize_transfer` raises itself. -/
def Verdict : Message → Prop
  | .transferFailed _ | .transferPaused _ | .finalizeDiskRemoved _ _ | .finalizeTimeout _ _ => True
  | .finalizeDiskStatus _ status => status ≠ .ok
  | _ => False

/-- What the wait on the service of `service`, for the disk `disk`, did when started at pass
`k`. -/
structure FinalizeWait (world : World) (service disk : String) (k : Nat) (r : Run Unit) :
    Prop where
  /-- At most `timeout - k + 1` polls of the transfer. -/
  polls : r.count .getTransfer ≤ timeout - k + 1
  /-- No call but polls of the transfer's service and the one read of the disk. -/
  targets : ∀ event ∈ r.calls, event = .getTransfer service ∨ event = .getDisk disk
  /-- A normal return exactly after polls that go on and then one that succeeds. -/
  succeeds : r.result = .ok () ↔
    ∃ j, k ≤ j ∧ (∀ i, k ≤ i → i < j → GoesOn world i) ∧ Succeeds world j
  /-- An exception is a verdict, or an exception of a poll or of the disk read passed through. -/
  raised : ∀ e, r.result = .error e → (∃ msg, e = .runtime msg ∧ Verdict msg) ∨
    (∃ j, world.finalizePoll j = .error e ∧ e ≠ .notFound) ∨
    (world.finalizeDisk = .error e ∧ e ≠ .notFound)

section Pass

variable {world : World} {k : Nat}

/-- A poll that sends the wait round again does not end it. -/
theorem GoesOn.not_succeeds (goesOn : GoesOn world k) : ¬ Succeeds world k := by
  obtain ⟨polled, answer, notSuccess, -⟩ := goesOn
  rintro (⟨t, found⟩ | ⟨found, -⟩) <;> rw [answer] at found <;> cases found
  exact notSuccess rfl

/-- A last pass: one poll, perhaps the disk read, and the wait's outcome. -/
theorem FinalizeWait.last (service : String) {disk : String} {extra : List Event}
    (reads : ∀ event ∈ extra, event = .getDisk disk) {result : Except Error Unit}
    (stops : ¬ GoesOn world k) (succeeds : result = .ok () ↔ Succeeds world k)
    (raised : ∀ e, result = .error e → (∃ msg, e = .runtime msg ∧ Verdict msg) ∨
      (∃ j, world.finalizePoll j = .error e ∧ e ≠ .notFound) ∨
      (world.finalizeDisk = .error e ∧ e ≠ .notFound)) :
    FinalizeWait world service disk k ⟨.getTransfer service :: extra, result⟩ where
  polls := by
    have none : (extra.map Event.kind).count .getTransfer = 0 :=
      List.count_eq_zero.mpr fun mem => by
        obtain ⟨event, inExtra, same⟩ := List.mem_map.mp mem
        rw [reads event inExtra] at same
        cases same
    simp [Event.kind, none]
  targets := by
    rintro event (_ | ⟨_, mem⟩)
    · exact .inl rfl
    · exact .inr (reads event mem)
  succeeds := by
    rw [succeeds]
    constructor
    · exact fun here => ⟨k, le_rfl, fun i atLeast below => by omega, here⟩
    · rintro ⟨j, atLeast, goesOn, there⟩
      rcases Nat.eq_or_lt_of_le atLeast with rfl | later
      · exact there
      · exact absurd (goesOn k le_rfl later) stops
  raised := raised

/-- A pass that goes on adds its poll to what the later passes did. -/
theorem FinalizeWait.cons {service disk : String} {calls : List Event}
    {result : Except Error Unit} (rest : FinalizeWait world service disk (k + 1) ⟨calls, result⟩)
    (goesOn : GoesOn world k) :
    FinalizeWait world service disk k ⟨.getTransfer service :: calls, result⟩ where
  polls := by
    obtain ⟨-, -, -, -, -, onTime⟩ := goesOn
    have := world.finalizeClock.succ_le_of_onTime onTime
    have := rest.polls
    simp only [Run.count_mk, List.map_cons, Event.kind, List.count_cons_self] at this ⊢
    omega
  targets := by
    rintro event (_ | ⟨_, mem⟩)
    · exact .inl rfl
    · exact rest.targets event mem
  succeeds := by
    rw [rest.succeeds]
    constructor
    · rintro ⟨j, after, goOn, there⟩
      refine ⟨j, by omega, fun i atLeast below => ?_, there⟩
      rcases Nat.eq_or_lt_of_le atLeast with rfl | later
      · exact goesOn
      · exact goOn i later below
    · rintro ⟨j, atLeast, goOn, there⟩
      rcases Nat.eq_or_lt_of_le atLeast with rfl | later
      · exact absurd there goesOn.not_succeeds
      · exact ⟨j, later, fun i after below => goOn i (by omega) below, there⟩
  raised := rest.raised

end Pass

/-- **`finalize_transfer`'s wait ends**, and what it did is what the answers say
(`FinalizeWait`). -/
theorem waitForFinalize_wait (world : World) (service disk : String) (k : Nat)
    (transfer : Transfer) :
    FinalizeWait world service disk k (waitForFinalize world service disk k transfer) := by
  induction k, transfer using waitForFinalize.induct world service disk with
  | case1 k transfer ih =>
    rw [waitForFinalize]
    rcases answer : world.finalizePoll k with e | ⟨polled, phase⟩
    · have stops : ¬ GoesOn world k := by
        rintro ⟨polled, found, -⟩
        rw [answer] at found
        cases found
      by_cases gone : e = .notFound
      · subst gone
        rcases read : world.finalizeDisk with d | status
        · by_cases removed : d = .notFound
          · subst removed
            simpa [answer, read, Run.tryCatch] using
              FinalizeWait.last service (by simp) stops
                (by simp [Succeeds, answer, read]) (by simp [Verdict])
          · simpa [answer, read, Run.tryCatch, removed] using
              FinalizeWait.last service (by simp) stops
                (by simp [Succeeds, answer, read]) (by simp [read, removed])
        · by_cases fine : status = .ok
          · subst fine
            simpa [answer, read, Run.tryCatch] using
              FinalizeWait.last service (by simp) stops
                (by simp [Succeeds, answer, read]) (by simp)
          · simpa [answer, read, fine, Run.tryCatch] using
              FinalizeWait.last service (by simp) stops
                (by simp [Succeeds, answer, read, fine]) (by simp [Verdict, fine])
      · simpa [answer, gone] using
          FinalizeWait.last service (by simp) stops (by simp [Succeeds, answer, gone])
            (fun e' raised => .inr (.inl ⟨k, by simp_all, by simp_all⟩))
    · have final : (phase = .finishedSuccess ∨ phase = .finishedFailure ∨
          phase = .pausedSystem ∨
          world.finalizeClock.read (k + 1) > world.finalizeClock.read 0 + timeout) →
          ¬ GoesOn world k := by
        rintro ends ⟨_, found, success, failure, paused, onTime⟩
        rw [answer] at found
        cases found
        rcases ends with rfl | rfl | rfl | late
        exacts [success rfl, failure rfl, paused rfl, onTime late]
      by_cases success : phase = .finishedSuccess
      · subst success
        simpa [answer] using FinalizeWait.last service (by simp) (final (.inl rfl))
          (by simp [Succeeds, answer]) (by simp)
      have fails : ¬ Succeeds world k := by simp [Succeeds, answer, success]
      by_cases failure : phase = .finishedFailure
      · subst failure
        simpa [answer] using FinalizeWait.last service (by simp)
          (final (.inr (.inl rfl))) (by simpa using fails) (by simp [Verdict])
      by_cases paused : phase = .pausedSystem
      · subst paused
        simpa [answer] using FinalizeWait.last service (by simp)
          (final (.inr (.inr (.inl rfl)))) (by simpa using fails) (by simp [Verdict])
      by_cases late : world.finalizeClock.read (k + 1) > world.finalizeClock.read 0 + timeout
      · simpa [answer, success, failure, paused, late] using FinalizeWait.last service (by simp)
          (final (.inr (.inr (.inr late)))) (by simpa using fails) (by simp [Verdict])
      simpa [answer, success, failure, paused, late] using
        (ih ⟨polled, phase⟩ late).cons ⟨_, answer, success, failure, paused, late⟩

/-! ## `finalize_transfer` -/

/-- Every call `finalize_transfer` makes is on its transfer or its disk: `finalize()` and the
polls on the transfer's service, and the read of the disk. -/
theorem finalizeTransfer_targets (world : World) (transfer : Transfer) (disk : String) :
    ∀ event ∈ (finalizeTransfer world transfer disk).calls, event = .finalize transfer.id ∨
      event = .getTransfer transfer.id ∨ event = .getDisk disk := by
  have waited := (waitForFinalize_wait world transfer.id disk 0 transfer).targets
  simp only [finalizeTransfer, Run.bind_eq, Run.call_eq]
  rcases world.finalize with e | _
  · simp
  · simpa using fun event mem => .inr (waited event mem)

/-- `finalize_transfer` calls `finalize()` exactly once, and otherwise only polls the transfer
and reads the disk. -/
theorem finalizeTransfer_calls (world : World) (transfer : Transfer) (disk : String) :
    (finalizeTransfer world transfer disk).Within
      (fun kind => kind = .finalize ∨ kind = .getTransfer ∨ kind = .getDisk) ∧
      (finalizeTransfer world transfer disk).count .finalize = 1 := by
  have targets := finalizeTransfer_targets world transfer disk
  refine ⟨fun event mem => by rcases targets event mem with rfl | rfl | rfl <;> simp [Event.kind],
    ?_⟩
  have waited := (waitForFinalize_wait world transfer.id disk 0 transfer).targets
  have none : ((waitForFinalize world transfer.id disk 0 transfer).calls.map Event.kind).count
      .finalize = 0 :=
    List.count_eq_zero.mpr fun mem => by
      obtain ⟨event, inWait, same⟩ := List.mem_map.mp mem
      rcases waited event inWait with rfl | rfl <;> cases same
  simp only [finalizeTransfer, Run.bind_eq, Run.call_eq]
  rcases world.finalize with e | _
  · simp [Event.kind]
  · simpa [Event.kind] using none

/-- **What `finalize_transfer` does, for every world.** It calls `transfer_service.finalize()`
exactly once, never calls `cancel()`, and polls the transfer at most `timeout + 1` times, so it
ends; every call it makes is on its transfer's service or on its disk. It returns normally iff `finalize()` did and, for some `k`, every poll before the `k`-th
saw a phase outside `FINISHED_SUCCESS`, `FINISHED_FAILURE` and `PAUSED_SYSTEM` before the
deadline, and the `k`-th saw `FINISHED_SUCCESS`, or `NotFoundError` and then the disk `OK`.
Otherwise it raises one of its verdicts (failure, pause, disk removed, disk not `OK`, deadline),
or an exception of `finalize()`, of a poll or of the disk read, passed through. -/
theorem finalizeTransfer_spec (world : World) (transfer : Transfer) (disk : String) :
    let run := finalizeTransfer world transfer disk
    run.count .finalize = 1 ∧ run.count .cancel = 0 ∧ run.count .getTransfer ≤ timeout + 1 ∧
      (∀ event ∈ run.calls, event = .finalize transfer.id ∨ event = .getTransfer transfer.id ∨
        event = .getDisk disk) ∧
      (run.result = .ok () ↔ world.finalize = .ok () ∧
        ∃ k, (∀ j, j < k → GoesOn world j) ∧ Succeeds world k) ∧
      ∀ e, run.result = .error e → (∃ msg, e = .runtime msg ∧ Verdict msg) ∨
        world.finalize = .error e ∨ (∃ j, world.finalizePoll j = .error e ∧ e ≠ .notFound) ∨
        (world.finalizeDisk = .error e ∧ e ≠ .notFound) := by
  intro run
  obtain ⟨kinds, once⟩ := finalizeTransfer_calls world transfer disk
  refine ⟨once, kinds.count_eq_zero (by decide), ?_⟩
  rw [and_left_comm]
  refine ⟨finalizeTransfer_targets world transfer disk, ?_⟩
  obtain ⟨polls, -, succeeds, raised⟩ := waitForFinalize_wait world transfer.id disk 0 transfer
  simp only [Nat.sub_zero, zero_le, true_and, true_implies] at polls succeeds
  rcases finalized : world.finalize with e | _ <;>
    simp [run, finalizeTransfer, -Run.bind_eq, Run.count_bind, Run.result_bind, finalized,
      Event.kind]
  exact ⟨polls, succeeds, fun e failed => by simpa using raised e failed⟩

end RhvUpload
