/-
**Sequential code against the outside world: remote calls, exceptions and the clock.**

The control-plane half of the plugin (`open`, `create_disk`, `create_transfer`,
`finalize_transfer`, `close`) runs alone on one thread. It calls the oVirt SDK, the imageio
server and the file system, any of which may raise, and its polling loops sleep one second and
then read `time.time()`. Here such code is a function of the world's answers (`World`) to a
`Run`: the calls it made, in order, and how it ended. Every theorem over these functions is over
every `World`, so over every answer each call can give.

* `Run.handle` — run code, then one continuation on its exception and another on its value.
  `bind`, `Run.tryCatch` (`try: … except E: …`), `Run.tryFinally` (`try: … finally: …`) and
  `try: … except: … else: …` are all this one combinator.
* `Run.count` — how many calls of one kind a run made; `Run.count_bind`, `Run.result_bind` and
  `Run.mem_calls_bind` take a chain of stages apart one stage at a time.
* `Clock` — the readings of `time.time()` in a polling loop: `read 0` before the loop and
  `read (k + 1)` after the sleep of its `k`-th pass, so at least one second apart.
  `Clock.succ_le_of_onTime` is why every polling loop ends: a pass that is not yet past
  `read 0 + bound` is at most the `bound`-th.
-/

import RhvUpload.Basic

namespace RhvUpload

/-! ## What the plugin asks the world -/

/-- `types.DiskFormat`, as `create_disk` and `create_transfer` choose it. -/
inductive DiskFormat
  | raw
  | cow
  deriving DecidableEq, Repr

/-- The disk `create_disk` asks `disks_service.add` for (the literal description and
`sparse=True` apart). -/
structure DiskSpec where
  id : Option String
  name : String
  format : DiskFormat
  initialSize : Nat
  provisionedSize : Nat
  storageDomain : String
  deriving DecidableEq, Repr

/-- The image transfer `create_transfer` asks `transfers_service.add` for. -/
structure TransferSpec where
  disk : String
  host : Option String
  inactivityTimeout : Nat
  format : Option DiskFormat
  deriving DecidableEq, Repr

/-- An imageio connection as `create_http` makes it. -/
inductive Http
  | unix (socket : String)
  | https (hostname : String) (port : Option Nat) (cafile : String) (insecure : Bool)
  | http (hostname : String) (port : Option Nat)
  deriving DecidableEq, Repr

/-- A call of the plugin to the outside world.

* `connect` — `sdk.Connection(...)`, with `parse_username` and `read_password`;
* `readVdsmId` — reading this machine's `/etc/vdsm/vdsm.id` in `find_host`;
* `listDataCenters`, `listHosts` — `find_host`'s searches, by the values they format;
* `addDisk`, `getDisk` — `disks_service.add` and `disk_service.get()`;
* `addTransfer`, `getTransfer` — `transfers_service.add` and `transfer_service.get()`;
* `cancel`, `finalize` — `transfer_service.cancel()` and `transfer_service.finalize()`;
* `createHttp` — making an imageio connection object (`create_http`);
* `options` — the `OPTIONS` request of `get_options`;
* `closeHttp`, `closePool` — `http.close()` of `open`'s first connection and of a pooled one;
* `closeConnection` — `connection.close()`;
* `writeDiskId` — writing the disk id to `params['diskid_file']`. -/
inductive Event
  | connect
  | readVdsmId
  | listDataCenters (storage : String)
  | listHosts (hwId datacenter : String)
  | addDisk (disk : DiskSpec)
  | getDisk (disk : String)
  | addTransfer (transfer : TransferSpec)
  | getTransfer (transfer : String)
  | cancel (transfer : String)
  | finalize (transfer : String)
  | createHttp (http : Http)
  | options (http : Http) (path : String)
  | closeHttp
  | closePool (http : Nat)
  | closeConnection
  | writeDiskId (path disk : String)
  deriving DecidableEq, Repr

/-- The kind of a call, without its arguments. -/
inductive Kind
  | connect
  | readVdsmId
  | listDataCenters
  | listHosts
  | addDisk
  | getDisk
  | addTransfer
  | getTransfer
  | cancel
  | finalize
  | createHttp
  | options
  | closeHttp
  | closePool
  | closeConnection
  | writeDiskId
  deriving DecidableEq, Repr

/-- The kind of each call. -/
def Event.kind : Event → Kind
  | .connect => .connect
  | .readVdsmId => .readVdsmId
  | .listDataCenters _ => .listDataCenters
  | .listHosts _ _ => .listHosts
  | .addDisk _ => .addDisk
  | .getDisk _ => .getDisk
  | .addTransfer _ => .addTransfer
  | .getTransfer _ => .getTransfer
  | .cancel _ => .cancel
  | .finalize _ => .finalize
  | .createHttp _ => .createHttp
  | .options _ _ => .options
  | .closeHttp => .closeHttp
  | .closePool _ => .closePool
  | .closeConnection => .closeConnection
  | .writeDiskId _ _ => .writeDiskId

/-! ## Runs -/

/-- One execution of sequential plugin code: the calls it made, in order, and its value or the
exception it raised. -/
structure Run (α : Type) where
  calls : List Event
  result : Except Error α

namespace Run

variable {α β : Type}

/-- Run `x`, then `onError` on the exception it raised or `onOk` on its value. -/
def handle (x : Run α) (onError : Error → Run β) (onOk : α → Run β) : Run β :=
  let next := match x.result with
    | .ok a => onOk a
    | .error e => onError e
  ⟨x.calls ++ next.calls, next.result⟩

/-- `raise e`. -/
def throw (e : Error) : Run α := ⟨[], .error e⟩

/-- One call to the outside, and the world's answer to it. -/
def call (event : Event) (answer : Except Error α) : Run α := ⟨[event], answer⟩

instance : Monad Run where
  pure a := ⟨[], .ok a⟩
  bind x f := x.handle throw f

/-- `try: x except E: handler(e)`, where `catches` says which exceptions `E` names; the others
propagate. -/
def tryCatch (x : Run α) (catches : Error → Bool) (handler : Error → Run α) : Run α :=
  x.handle (fun e => if catches e then handler e else throw e) pure

/-- `try: x finally: final`: `final` runs on both paths, and an exception it raises replaces
`x`'s outcome. -/
def tryFinally (x : Run α) (final : Run Unit) : Run α :=
  x.handle (fun e => final >>= fun _ => throw e) fun a => final >>= fun _ => pure a

/-- How many calls of a kind a run made. -/
def count (x : Run α) (kind : Kind) : Nat := (x.calls.map Event.kind).count kind

@[simp] theorem pure_eq (a : α) : (pure a : Run α) = ⟨[], .ok a⟩ := rfl

@[simp] theorem bind_eq (x : Run α) (f : α → Run β) : x >>= f = x.handle throw f := rfl

@[simp] theorem call_eq (event : Event) (answer : Except Error α) :
    call event answer = ⟨[event], answer⟩ := rfl

@[simp] theorem throw_eq (e : Error) : (throw e : Run α) = ⟨[], .error e⟩ := rfl

@[simp] theorem handle_ok (calls : List Event) (a : α) (onError : Error → Run β)
    (onOk : α → Run β) :
    Run.handle ⟨calls, .ok a⟩ onError onOk = ⟨calls ++ (onOk a).calls, (onOk a).result⟩ := rfl

@[simp] theorem handle_error (calls : List Event) (e : Error) (onError : Error → Run β)
    (onOk : α → Run β) :
    Run.handle ⟨calls, .error e⟩ onError onOk = ⟨calls ++ (onError e).calls, (onError e).result⟩ :=
  rfl

@[simp] theorem count_mk (calls : List Event) (result : Except Error α) (kind : Kind) :
    count ⟨calls, result⟩ kind = (calls.map Event.kind).count kind := rfl

/-- The calls of `x.handle`: those of `x`, then those of the continuation that ran. -/
theorem count_handle (x : Run α) (onError : Error → Run β) (onOk : α → Run β) (kind : Kind) :
    (x.handle onError onOk).count kind =
      x.count kind + (match x.result with
        | .ok a => (onOk a).count kind
        | .error e => (onError e).count kind) := by
  obtain ⟨calls, result | a⟩ := x <;> simp [count]

/-- The calls of `x >>= f`: those of `x`, then those of `f` if `x` returned. -/
theorem count_bind (x : Run α) (f : α → Run β) (kind : Kind) :
    (x >>= f).count kind = x.count kind + (match x.result with
      | .ok a => (f a).count kind
      | .error _ => 0) := by
  obtain ⟨calls, result | a⟩ := x <;> simp [count]

/-- `x >>= f` ends as `f` does if `x` returned, and raises what `x` raised otherwise. -/
theorem result_bind (x : Run α) (f : α → Run β) :
    (x >>= f).result = match x.result with
      | .ok a => (f a).result
      | .error e => .error e := by
  obtain ⟨calls, result | a⟩ := x <;> rfl

/-- `x >>= f` returns only when `x` returned and `f` returned on its value. -/
theorem ok_of_bind {x : Run α} {f : α → Run β} {b : β} (ok : (x >>= f).result = .ok b) :
    ∃ a, x.result = .ok a ∧ (f a).result = .ok b := by
  obtain ⟨calls, e | a⟩ := x
  · cases ok
  · exact ⟨a, rfl, ok⟩

/-- A call of `x >>= f` is one of `x`'s, or one of `f`'s on the value `x` returned. -/
theorem mem_calls_bind {x : Run α} {f : α → Run β} {event : Event}
    (mem : event ∈ (x >>= f).calls) :
    event ∈ x.calls ∨ ∃ a, x.result = .ok a ∧ event ∈ (f a).calls := by
  obtain ⟨calls, e | a⟩ := x <;> simpa using mem

/-- `try: x finally: final` makes `x`'s calls and then `final`'s, on both paths. -/
@[simp] theorem calls_tryFinally (x : Run α) (final : Run Unit) :
    (x.tryFinally final).calls = x.calls ++ final.calls := by
  obtain ⟨calls, result | a⟩ := x <;> obtain ⟨finalCalls, finalResult | u⟩ := final <;>
    simp [tryFinally]

/-- Every call of `x` is of a kind that `allowed` admits. -/
def Within (allowed : Kind → Prop) (x : Run α) : Prop := ∀ event ∈ x.calls, allowed event.kind

section Within

variable {allowed : Kind → Prop}

theorem within_pure (a : α) : (pure a : Run α).Within allowed := by simp [Within]

theorem within_throw (e : Error) : (throw e : Run α).Within allowed := by simp [Within]

theorem within_call {event : Event} (admitted : allowed event.kind) (answer : Except Error α) :
    (call event answer).Within allowed := by
  simpa only [Within, call_eq, List.mem_singleton, forall_eq] using admitted

/-- Code whose parts stay within `allowed` stays within it. -/
theorem Within.handle {x : Run α} {onError : Error → Run β} {onOk : α → Run β}
    (first : x.Within allowed) (errors : ∀ e, (onError e).Within allowed)
    (values : ∀ a, (onOk a).Within allowed) : (x.handle onError onOk).Within allowed := by
  obtain ⟨calls, result | a⟩ := x <;> intro event mem <;>
    simp only [handle_ok, handle_error, List.mem_append] at mem
  · exact mem.elim (first event) (errors result event)
  · exact mem.elim (first event) (values a event)

/-- Code within `allowed` is within anything weaker. -/
theorem Within.mono {x : Run α} {wider : Kind → Prop} (within : x.Within allowed)
    (weaker : ∀ kind, allowed kind → wider kind) : x.Within wider :=
  fun event mem => weaker _ (within event mem)

/-- A `try:` whose body and handler stay within `allowed` stays within it. -/
theorem Within.tryCatch {x : Run α} {catches : Error → Bool} {handler : Error → Run α}
    (body : x.Within allowed) (handled : ∀ e, (handler e).Within allowed) :
    (x.tryCatch catches handler).Within allowed :=
  body.handle (fun e => by
    by_cases caught : catches e
    · simpa [caught] using handled e
    · simpa [caught] using within_throw e) within_pure

/-- Code within `allowed` makes no call of a kind it excludes. -/
theorem Within.count_eq_zero {x : Run α} (within : x.Within allowed) {kind : Kind}
    (excluded : ¬ allowed kind) : x.count kind = 0 := by
  simp only [count, List.count_eq_zero, List.mem_map, not_exists, not_and]
  exact fun event mem same => excluded (same ▸ within event mem)

end Within

end Run

/-! ## The clock -/

/-- The readings of `time.time()` a polling loop takes: `read 0` before the loop, `read (k + 1)`
after the `k`-th pass's `time.sleep(1)`. -/
structure Clock where
  read : Nat → ℚ
  advances : ∀ k, read k + 1 ≤ read (k + 1)

/-- The `k`-th reading is at least `k` seconds after the first. -/
theorem Clock.start_add_le (clock : Clock) : ∀ k : Nat, clock.read 0 + k ≤ clock.read k
  | 0 => by simp
  | k + 1 => by
    have earlier := clock.start_add_le k
    have step := clock.advances k
    push_cast
    linarith

/-- **Polling loops end**: a pass whose reading is not past `read 0 + bound` is at most the
`bound`-th. -/
theorem Clock.succ_le_of_onTime (clock : Clock) {bound k : Nat}
    (onTime : ¬ clock.read (k + 1) > clock.read 0 + bound) : k + 1 ≤ bound := by
  have elapsed := clock.start_add_le (k + 1)
  have within : ((k + 1 : Nat) : ℚ) ≤ bound := by linarith [not_lt.mp onTime]
  exact_mod_cast within

/-! ## The world -/

/-- What `transfer_service.get()` answers: the transfer object and its phase. -/
structure Polled where
  transfer : Transfer
  phase : Phase
  deriving DecidableEq, Repr

/-- The JSON body of an `OPTIONS` answer with the fields `get_options` reads. -/
structure OptionsBody where
  features : List String
  unixSocket : Option String
  maxReaders : Option Nat
  maxWriters : Option Nat
  deriving DecidableEq, Repr

/-- The answer to the `OPTIONS` request: its status and reason, and its body as `json.loads`
and `j["features"]` read it, or the exception they raise. -/
structure OptionsReply where
  status : Nat
  reason : String
  body : Except Error OptionsBody

/-- Everything the outside world answers to the lifecycle code: each call's value or exception,
each polling loop's clock, and the answers to its polls by number. -/
structure World where
  connect : Except Error Unit
  /-- The first line of `/etc/vdsm/vdsm.id`, stripped, or what reading it raised. -/
  vdsmId : Except Error String
  /-- The names of the data centers that `find_host`'s storage search finds. -/
  dataCenters : Except Error (List String)
  /-- The ids of the hosts that `find_host`'s host search finds. -/
  hosts : Except Error (List String)
  addDisk : Except Error String
  diskClock : Clock
  diskPoll : Nat → Except Error DiskStatus
  supportsFormat : Bool
  addTransfer : Except Error Transfer
  transferClock : Clock
  transferPoll : Nat → Except Error Polled
  cancel : Except Error Unit
  unixHttp : Except Error Unit
  sslContext : Except Error Unit
  options : Except Error OptionsReply
  closeHttp : Except Error Unit
  closePool : Nat → Except Error Unit
  finalize : Except Error Unit
  finalizeClock : Clock
  finalizePoll : Nat → Except Error Polled
  finalizeDisk : Except Error DiskStatus
  closeConnection : Except Error Unit
  writeDiskId : Except Error Unit

/-- `except sdk.NotFoundError:`. -/
def Error.isNotFound : Error → Bool
  | .notFound => true
  | _ => false

@[simp] theorem Error.isNotFound_iff {e : Error} : e.isNotFound = true ↔ e = .notFound := by
  cases e <;> simp [Error.isNotFound]

/-- `cancel_transfer`: one `cancel()` on the transfer's service. -/
def cancelTransfer (world : World) (transfer : Transfer) : Run Unit :=
  Run.call (.cancel transfer.id) world.cancel

end RhvUpload
