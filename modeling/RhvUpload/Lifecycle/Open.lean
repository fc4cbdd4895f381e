/-
**The plugin's start, and `open`: the disk, the transfer and the imageio connections.**

Before `open`, nbdkit passes the plugin its configuration: `config` loads the `params` file, and
`config_complete` checks that it was given. `open` connects to oVirt, finds the host it runs on
when `params['rhv_direct']` (`find_host`), creates a disk and waits for it to be `OK`
(`create_disk`), creates an image transfer and waits for it to be `TRANSFERRING`
(`create_transfer`), and then, inside a `try:` that cancels the transfer on any exception,
finds the imageio URL, asks the server for its options and fills the connection pool. Both
waits are `while True:` loops that sleep one second, poll, and give up `timeout` seconds after
they started.

* `configure`, `startup` — the `config` calls in order, then `config_complete`; `config`'s
  `debug` reads `params['verbose']` of the file it loaded. **`startup_spec`** says what they
  leave: the last file loaded when every call named `params` and loaded a file with the key
  `verbose`, and otherwise the first call's exception, or `missing configuration parameters`.
* `waitForDisk`, `waitForTransfer` — the two polling loops, by well-founded recursion: a pass
  goes round again only when `time.time()` is not past the deadline, which by
  `Clock.succ_le_of_onTime` bounds the passes.
* `TransferWait` — what `create_transfer`'s wait did, by what it observed
  (`waitForTransfer_wait`): only polls and cancels of the service it waits on, at most
  `timeout + 1` polls, at most one `cancel()`, a transfer only after `INITIALIZING` answers and
  then `TRANSFERRING`, and on an exception either one `cancel()`, or none with the last poll
  reporting the transfer removed or `FINISHED_FAILURE`, or none with the last poll raising
  something else.
* **`open_leaks_transfer`** — when `transfer_service.get()` raises anything but `NotFoundError`,
  `open` raises it with the transfer added and never cancelled, though the control plane never
  reported the transfer gone or failed.
* **`open_cleanup`** — for every world: `open` cancels only its own transfer (`open_cancels`),
  makes at most `timeout + 1` polls of each kind and at most one `cancel()`; it returns a handle
  only after it saw the disk `OK` and the transfer `TRANSFERRING` after only `INITIALIZING`; and
  when it raises after the transfer was added, the transfer got exactly one `cancel()`, or none
  and the control plane had reported it removed or `FINISHED_FAILURE`, or none and a poll of the
  transfer raised another exception.
* `open_handle` — the handle `open` returns is sized and flagged by the options `get_options`
  read; `getOptions_announces` — those options say the server can flush or zero only when its
  `OPTIONS` answer listed the feature.
-/

import RhvUpload.Lifecycle.Remote

namespace RhvUpload

/-! ## `config` and `config_complete` -/

/-- What `json.load` returned for the params file: the `params` the modelled functions read, and
what `params['verbose']` gives on it: the value's truth, or the `KeyError` (no such key) or
`TypeError` (a document that is not a JSON object) that the lookup raises. -/
structure Loaded where
  params : Params
  verbose : Except Error Bool

/-- `config(key, value)`: for the key `params`, `params = json.load(open(value))`, with `loaded`
the parsed file or what opening or parsing it raised, then `debug("using params: %s" % params)`,
which reads `params['verbose']`; any other key raises. -/
def config (key : String) (loaded : Except Error Loaded) : Except Error Params :=
  if key = "params" then do
    let document ← loaded
    let _ ← document.verbose
    pure document.params
  else .error (.runtime (.unknownConfigKey key))

/-- nbdkit's `config` calls, in order, on the global `params`; the first exception stops
nbdkit. -/
def configure (params : Option Params) :
    List (String × Except Error Loaded) → Except Error (Option Params)
  | [] => .ok params
  | (key, loaded) :: rest => config key loaded >>= fun loaded => configure (some loaded) rest

/-- `config_complete`: raises unless a `config` call set `params`, which `open` then reads. -/
def configComplete : Option Params → Except Error Params
  | none => .error (.runtime .missingParams)
  | some params => .ok params

/-- nbdkit's start of the plugin: every `config` call, then `config_complete`. -/
def startup (calls : List (String × Except Error Loaded)) : Except Error Params :=
  configure none calls >>= configComplete

/-- A `config` call that names `params` and whose file loads with the key `verbose`. -/
def Loads (call : String × Except Error Loaded) : Prop :=
  call.1 = "params" ∧ ∃ document, call.2 = .ok document ∧ document.verbose.isOk

/-- `config` returns the loaded params exactly when the call loads. -/
theorem config_ok_iff (key : String) (loaded : Except Error Loaded) (params : Params) :
    config key loaded = .ok params ↔
      Loads (key, loaded) ∧ ∃ document, loaded = .ok document ∧ document.params = params := by
  by_cases named : key = "params"
  · rcases loaded with e | document
    · simp [config, named, Loads, bind, Except.bind]
    · rcases verbose : document.verbose with e | v <;>
        simp [config, named, Loads, verbose, bind, Except.bind, pure, Except.pure, Except.isOk,
          Except.toBool]
  · simp [config, named, Loads]

/-- What `config` raises: a `RuntimeError` for a key other than `params`, or what loading the
file raised, or what `params['verbose']` raised on it. -/
theorem config_error_iff (key : String) (loaded : Except Error Loaded) (e : Error) :
    config key loaded = .error e ↔ key ≠ "params" ∧ e = .runtime (.unknownConfigKey key) ∨
      key = "params" ∧ (loaded = .error e ∨
        ∃ document, loaded = .ok document ∧ document.verbose = .error e) := by
  by_cases named : key = "params"
  · rcases loaded with raised | document
    · simp [config, named, bind, Except.bind]
    · rcases verbose : document.verbose with raised | v <;>
        simp [config, named, verbose, bind, Except.bind, pure, Except.pure]
  · simp [config, named, eq_comm]

/-- A call loads exactly when `config` returns. -/
theorem loads_iff (key : String) (loaded : Except Error Loaded) :
    Loads (key, loaded) ↔ ∃ params, config key loaded = .ok params := by
  simp only [config_ok_iff]
  constructor
  · rintro loads
    obtain ⟨document, same, -⟩ := loads.2
    exact ⟨document.params, loads, document, same, rfl⟩
  · rintro ⟨_, loads, -⟩
    exact loads

/-- The `config` calls go through exactly when each names `params` and loads its file with the key
`verbose`, and leave the last file loaded, or `params` as it was when there is none. -/
theorem configure_ok (params after : Option Params) (calls : List (String × Except Error Loaded)) :
    configure params calls = .ok after ↔ (∀ call ∈ calls, Loads call) ∧
      (calls = [] ∧ after = params ∨ ∃ document, calls.getLast? = some ("params", .ok document) ∧
        after = some document.params) := by
  induction calls generalizing params with
  | nil => simp [configure, eq_comm]
  | cons call rest ih =>
    obtain ⟨key, loaded⟩ := call
    rcases configured : config key loaded with e | p
    · have stuck : ¬ Loads (key, loaded) := by simp [loads_iff, configured]
      simp [configure, configured, bind, Except.bind, stuck]
    · obtain ⟨loads, document, rfl, rfl⟩ := (config_ok_iff key loaded p).mp configured
      have named : key = "params" := loads.1
      subst named
      simp only [configure, configured, bind, Except.bind, ih, List.forall_mem_cons, loads,
        true_and]
      cases rest with
      | nil => simp
      | cons next rest => simp

/-- The `config` calls raise exactly what the first call that raises raises. -/
theorem configure_error (params : Option Params) (e : Error)
    (calls : List (String × Except Error Loaded)) :
    configure params calls = .error e ↔ ∃ before key loaded after,
      calls = before ++ (key, loaded) :: after ∧ (∀ call ∈ before, Loads call) ∧
        config key loaded = .error e := by
  induction calls generalizing params with
  | nil => simp [configure]
  | cons call rest ih =>
    obtain ⟨key, loaded⟩ := call
    rcases configured : config key loaded with raised | p
    · have stuck : ¬ Loads (key, loaded) := by simp [loads_iff, configured]
      simp only [configure, configured, bind, Except.bind, Except.error.injEq]
      constructor
      · rintro rfl
        exact ⟨[], key, loaded, rest, rfl, by simp, configured⟩
      · rintro ⟨_ | ⟨first, before⟩, key', loaded', after, split, loads, failed⟩ <;>
          obtain ⟨same, -⟩ := List.cons_eq_cons.mp split
        · obtain ⟨rfl, rfl⟩ := Prod.mk.inj same
          rw [configured] at failed
          exact Except.error.inj failed
        · exact absurd (same ▸ loads first (List.mem_cons_self _ _)) stuck
    · have goes : Loads (key, loaded) := (loads_iff key loaded).mpr ⟨p, configured⟩
      simp only [configure, configured, bind, Except.bind, ih]
      constructor
      · rintro ⟨before, key', loaded', after, rfl, loads, failed⟩
        exact ⟨(key, loaded) :: before, key', loaded', after, rfl,
          List.forall_mem_cons.mpr ⟨goes, loads⟩, failed⟩
      · rintro ⟨_ | ⟨first, before⟩, key', loaded', after, split, loads, failed⟩ <;>
          obtain ⟨same, rest⟩ := List.cons_eq_cons.mp split
        · obtain ⟨rfl, rfl⟩ := Prod.mk.inj same
          rw [configured] at failed
          cases failed
        · exact ⟨before, key', loaded', after, rest, fun call mem =>
            loads call (List.mem_cons_of_mem _ mem), failed⟩

/-- The start returns the `params` the `config` calls left, when they set it. -/
theorem startup_ok (calls : List (String × Except Error Loaded)) (params : Params) :
    startup calls = .ok params ↔ configure none calls = .ok (some params) := by
  rcases configured : configure none calls with e | (_ | p) <;>
    simp [startup, configured, configComplete, bind, Except.bind]

/-- The start raises what the `config` calls raised, or, when they left no `params`,
`missing configuration parameters`. -/
theorem startup_error (calls : List (String × Except Error Loaded)) (e : Error) :
    startup calls = .error e ↔ configure none calls = .error e ∨
      (configure none calls = .ok none ∧ e = .runtime .missingParams) := by
  rcases configured : configure none calls with raised | (_ | p) <;>
    simp [startup, configured, configComplete, bind, Except.bind, eq_comm]

/-- **What nbdkit's start leaves.** For every sequence of `config` calls: the start succeeds
with `params` exactly when every call named `params` and loaded its file with the key `verbose`,
and the last call loaded `params`. Otherwise it raises what the first failing call raised: a
`RuntimeError` naming a key other than `params`, what loading the file raised, or what
`params['verbose']` raised on a file without that key; and with no call at all, `missing
configuration parameters`. -/
theorem startup_spec (calls : List (String × Except Error Loaded)) :
    (∀ params, startup calls = .ok params ↔ (∀ call ∈ calls, Loads call) ∧
      ∃ document, calls.getLast? = some ("params", .ok document) ∧ document.params = params) ∧
    ∀ e, startup calls = .error e ↔ (calls = [] ∧ e = .runtime .missingParams) ∨
      ∃ before key loaded after, calls = before ++ (key, loaded) :: after ∧
        (∀ call ∈ before, Loads call) ∧
        (key ≠ "params" ∧ e = .runtime (.unknownConfigKey key) ∨
          key = "params" ∧ (loaded = .error e ∨
            ∃ document, loaded = .ok document ∧ document.verbose = .error e)) := by
  have unset : configure none calls = .ok none ↔ calls = [] := by
    rw [configure_ok]
    constructor
    · rintro ⟨-, ⟨empty, -⟩ | ⟨p, -, impossible⟩⟩
      · exact empty
      · cases impossible
    · rintro rfl
      simp
  refine ⟨fun params => ?_, fun e => ?_⟩
  · rw [startup_ok, configure_ok]
    simp [eq_comm]
  · simp only [startup_error, configure_error, unset, config_error_iff]
    rw [or_comm]

/-! ## `create_disk` -/

/-- The format `create_disk` asks for: raw for `params['disk_format'] == "raw"`, else qcow2. -/
def diskFormat (params : Params) : DiskFormat := if params.diskFormat = "raw" then .raw else .cow

/-- `create_disk`'s wait from its `k`-th pass: sleep, `disk_service.get()`, leave on `OK`, and
raise once `time.time()` is past `endt = time.time() + timeout` taken before the loop. -/
def waitForDisk (world : World) (disk : String) (k : Nat) : Run Unit :=
  Run.call (.getDisk disk) (world.diskPoll k) >>= fun status =>
    if status = .ok then pure ()
    else if late : world.diskClock.read (k + 1) > world.diskClock.read 0 + timeout then
      Run.throw (.runtime (.diskLockTimeout disk))
    else waitForDisk world disk (k + 1)
termination_by timeout - k
decreasing_by have := world.diskClock.succ_le_of_onTime late; omega

/-- `create_disk`: add the disk with `params`' name, format, size and storage domain, then wait
for it. -/
def createDisk (params : Params) (world : World) : Run String := do
  let disk ← Run.call (.addDisk ⟨params.rhvDiskUuid, params.diskName, diskFormat params,
    params.diskSize, params.diskSize, params.outputStorage⟩) world.addDisk
  waitForDisk world disk 0
  pure disk

/-! ## `create_transfer` -/

/-- `create_transfer`'s wait from its `k`-th pass, on the service of transfer `service`, with
`transfer` the last transfer object seen. A `NotFoundError` becomes "was removed";
`FINISHED_FAILURE` raises; `PAUSED_SYSTEM`, any phase but `INITIALIZING` and `TRANSFERRING`, and
the deadline cancel the transfer, then raise; `TRANSFERRING` returns the transfer. -/
def waitForTransfer (world : World) (service : String) (k : Nat) (transfer : Transfer) :
    Run Transfer :=
  (Run.call (.getTransfer service) (world.transferPoll k)).tryCatch Error.isNotFound
      (fun _ => Run.throw (.runtime (.transferRemoved transfer.id))) >>= fun polled =>
    if polled.phase = .finishedFailure then
      Run.throw (.runtime (.transferFailed polled.transfer.id))
    else if polled.phase = .pausedSystem then do
      Run.call (.cancel service) world.cancel
      Run.throw (.runtime (.transferPaused polled.transfer.id))
    else if polled.phase = .transferring then pure polled.transfer
    else if polled.phase ≠ .initializing then do
      Run.call (.cancel service) world.cancel
      Run.throw (.runtime (.unexpectedPhase polled.transfer.id polled.phase))
    else if late : world.transferClock.read (k + 1) > world.transferClock.read 0 + timeout then do
      Run.call (.cancel service) world.cancel
      Run.throw (.runtime (.transferTimeout polled.transfer.id))
    else waitForTransfer world service (k + 1) polled.transfer
termination_by timeout - k
decreasing_by have := world.transferClock.succ_le_of_onTime late; omega

/-- `create_transfer`: add a transfer of the disk (on `host` when there is one, in raw format
when the SDK knows the `format` argument), then wait for it. -/
def createTransfer (world : World) (disk : String) (host : Option String) : Run Transfer := do
  let transfer ← Run.call (.addTransfer ⟨disk, host, 3600,
    if world.supportsFormat then some .raw else none⟩) world.addTransfer
  waitForTransfer world transfer.id 0 transfer

/-! ## The imageio connections -/

/-- `parse_transfer_url`: the direct URL when `params['rhv_direct']` (which must exist), else the
proxy URL. -/
def parseTransferUrl (params : Params) (transfer : Transfer) : Run Url :=
  if params.rhvDirect then
    match transfer.transferUrl with
    | none => Run.throw (.runtime .directUnsupported)
    | some url => pure url
  else pure transfer.proxyUrl

/-- Making one connection object, with the world's answer to it. -/
def makeHttp (http : Http) (answer : Except Error Unit) : Run Http :=
  Run.call (.createHttp http) (answer.map fun _ => http)

/-- The TCP half of `create_http`: TLS for `https` (whose context reads `params['rhv_cafile']`),
plain for `http`, and an error for any other scheme. -/
def createTcpHttp (params : Params) (world : World) (url : Url) : Run Http :=
  if url.scheme = "https" then
    makeHttp (.https url.hostname url.port params.rhvCafile params.insecure) world.sslContext
  else if url.scheme = "http" then makeHttp (.http url.hostname url.port) (.ok ())
  else Run.throw (.runtime (.unknownScheme url.scheme))

/-- `create_http`: over the Unix socket when one is given and that works, else over TCP. -/
def createHttp (params : Params) (world : World) (url : Url) (unixSocket : Option String) :
    Run Http :=
  match unixSocket with
  | some socket =>
    if socket ≠ "" then
      (makeHttp (.unix socket) world.unixHttp).tryCatch (fun _ => true) fun _ =>
        createTcpHttp params world url
    else createTcpHttp params world url
  | none => createTcpHttp params world url

/-- The options dict `get_options` returns. -/
structure Options where
  canFlush : Bool
  canZero : Bool
  unixSocket : Option String
  maxReaders : Nat
  maxWriters : Nat
  deriving DecidableEq, Repr

/-- `get_options`: the server's features on `200`, none for the old servers' `405` and `204`,
and an error for any other status. -/
def getOptions (world : World) (http : Http) (url : Url) : Run Options :=
  Run.call (.options http url.path) world.options >>= fun r =>
    if r.status = 200 then
      match r.body with
      | .ok j => pure ⟨decide ("flush" ∈ j.features), decide ("zero" ∈ j.features), j.unixSocket,
          j.maxReaders.getD 1, j.maxWriters.getD 1⟩
      | .error e => Run.throw e
    else if r.status = 405 ∨ r.status = 204 then pure ⟨false, false, none, 1, 1⟩
    else Run.throw (.runtime (.optionsFailed r.status r.reason))

/-- `create_http_pool`'s loop: `count` more connections into the pool. -/
def fillPool (params : Params) (world : World) (url : Url) (unixSocket : Option String) :
    Nat → Run Unit
  | 0 => pure ()
  | count + 1 => createHttp params world url unixSocket >>= fun _ =>
    fillPool params world url unixSocket count

/-- `create_http_pool`: `min(max_readers, max_writers, MAX_CONNECTIONS)` connections, over the
server's Unix socket only when `open` found a host; the pool's size. -/
def createHttpPool (params : Params) (world : World) (url : Url) (host : Option String)
    (options : Options) : Run Nat :=
  let count := min (min options.maxReaders options.maxWriters) maxConnections
  fillPool params world url (if host.isSome then options.unixSocket else none) count >>= fun _ =>
    pure count

/-- What `open` keeps of the imageio setup: the URL, the options and the pool's size. -/
structure Imageio where
  url : Url
  options : Options
  connections : Nat

/-- The body of `open`'s `try:`: everything after the transfer exists. -/
def prepareImageio (params : Params) (world : World) (transfer : Transfer) (host : Option String) :
    Run Imageio := do
  let url ← parseTransferUrl params transfer
  let http ← createHttp params world url none
  let options ← getOptions world http url
  Run.call .closeHttp world.closeHttp
  let connections ← createHttpPool params world url host options
  pure ⟨url, options, connections⟩

/-- `open`'s `try: … except: cancel_transfer(connection, transfer); raise` around the imageio
setup. -/
def prepareOrCancel (params : Params) (world : World) (transfer : Transfer) (host : Option String) :
    Run Imageio :=
  (prepareImageio params world transfer host).tryCatch (fun _ => true) fun e => do
    cancelTransfer world transfer
    Run.throw e

/-! ## `open` -/

/-- `find_host`: this machine's `vdsm.id` (when reading it raises, this is no oVirt host:
`None`), then the data center of `params['output_storage']`, then an `Up` host of that data
center with that `hw_id`. Either search finding nothing gives `None`; either raising raises. -/
def findHost (params : Params) (world : World) : Run (Option String) :=
  (Run.call .readVdsmId world.vdsmId).handle (fun _ => pure none) fun vdsmId =>
    Run.call (.listDataCenters params.outputStorage) world.dataCenters >>= fun dataCenters =>
      match dataCenters with
      | [] => pure none
      | datacenter :: _ =>
        Run.call (.listHosts vdsmId datacenter) world.hosts >>= fun hosts =>
          match hosts with
          | [] => pure none
          | host :: _ => pure (some host)

/-- `find_host(connection) if params['rhv_direct'] else None`: the host `open` asks the transfer
to run on. -/
def directHost (params : Params) (world : World) : Run (Option String) :=
  if params.rhvDirect then findHost params world else pure none

/-- `open`: connect, find the host when `params['rhv_direct']`, create the disk and the transfer,
set up imageio and cancel the transfer if that raises, and return the handle. -/
def «open» (params : Params) (world : World) : Run Handle := do
  Run.call .connect world.connect
  let host ← directHost params world
  let disk ← createDisk params world
  let transfer ← createTransfer world disk host
  let imageio ← prepareOrCancel params world transfer host
  pure ⟨imageio.options.canFlush, imageio.options.canZero, disk, transfer, false,
    imageio.connections, imageio.url.path⟩

/-! ## The imageio setup stays off the control plane -/

/-- The calls of the imageio setup: connection objects, the `OPTIONS` request and closing the
first connection. -/
def ImageioCall (kind : Kind) : Prop := kind = .createHttp ∨ kind = .options ∨ kind = .closeHttp

section Imageio

variable (params : Params) (world : World) (url : Url)

theorem makeHttp_within (http : Http) (answer : Except Error Unit) :
    (makeHttp http answer).Within ImageioCall :=
  Run.within_call (.inl rfl) _

theorem createTcpHttp_within : (createTcpHttp params world url).Within ImageioCall := by
  unfold createTcpHttp
  split_ifs
  · exact makeHttp_within _ _
  · exact makeHttp_within _ _
  · exact Run.within_throw _

theorem createHttp_within (unixSocket : Option String) :
    (createHttp params world url unixSocket).Within ImageioCall := by
  unfold createHttp
  split
  · split_ifs
    · exact (makeHttp_within _ _).tryCatch fun _ => createTcpHttp_within params world url
    · exact createTcpHttp_within params world url
  · exact createTcpHttp_within params world url

theorem getOptions_within (http : Http) : (getOptions world http url).Within ImageioCall :=
  (Run.within_call (.inr (.inl rfl)) _).handle (fun _ => Run.within_throw _) fun reply => by
    split_ifs
    · split
      · exact Run.within_pure _
      · exact Run.within_throw _
    · exact Run.within_pure _
    · exact Run.within_throw _

theorem fillPool_within (unixSocket : Option String) :
    ∀ count, (fillPool params world url unixSocket count).Within ImageioCall
  | 0 => Run.within_pure _
  | count + 1 => (createHttp_within params world url unixSocket).handle
      (fun _ => Run.within_throw _) fun _ => fillPool_within unixSocket count

/-- **The imageio setup makes no control-plane call.** -/
theorem prepareImageio_within (transfer : Transfer) (host : Option String) :
    (prepareImageio params world transfer host).Within ImageioCall := by
  have parsed : (parseTransferUrl params transfer).Within ImageioCall := by
    unfold parseTransferUrl
    split_ifs
    · split
      · exact Run.within_throw _
      · exact Run.within_pure _
    · exact Run.within_pure _
  exact parsed.handle (fun _ => Run.within_throw _) fun url =>
    (createHttp_within params world url none).handle (fun _ => Run.within_throw _) fun http =>
      (getOptions_within world url http).handle (fun _ => Run.within_throw _) fun options =>
        (Run.within_call (.inr (.inr rfl)) _).handle (fun _ => Run.within_throw _) fun _ =>
          ((fillPool_within params world url _ _).handle (fun _ => Run.within_throw _)
            fun _ => Run.within_pure _).handle (fun _ => Run.within_throw _)
              fun _ => Run.within_pure _

end Imageio

/-! ## What the waits observed -/

/-- What `create_disk`'s wait did when started at pass `k`: at most `timeout - k + 1` polls and
nothing else, and it returns only after a poll it made saw the disk `OK`. -/
structure DiskWait (world : World) (k : Nat) (r : Run Unit) : Prop where
  polls : r.count .getDisk ≤ timeout - k + 1
  within : r.Within (· = .getDisk)
  ready : r.result = .ok () → ∃ j, k ≤ j ∧ j < k + r.count .getDisk ∧ world.diskPoll j = .ok .ok

/-- A pass that goes round again adds its poll to what the later passes did. -/
theorem DiskWait.cons {world : World} {k : Nat} {r : Run Unit} (rest : DiskWait world (k + 1) r)
    (onTime : k + 1 ≤ timeout) (disk : String) :
    DiskWait world k ⟨.getDisk disk :: r.calls, r.result⟩ where
  polls := by
    have := rest.polls
    simp only [Run.count, List.map_cons, Event.kind, List.count_cons_self] at this ⊢
    omega
  within := by
    rintro event (_ | ⟨_, mem⟩)
    · rfl
    · exact rest.within event mem
  ready done := by
    obtain ⟨j, after, before, answer⟩ := rest.ready done
    refine ⟨j, by omega, ?_, answer⟩
    simp only [Run.count, List.map_cons, Event.kind, List.count_cons_self] at before ⊢
    omega

/-- **`create_disk`'s wait ends**, after at most `timeout - k + 1` polls, and returns only once
the disk is `OK`. -/
theorem waitForDisk_wait (world : World) (disk : String) (k : Nat) :
    DiskWait world k (waitForDisk world disk k) := by
  induction k using waitForDisk.induct world disk with
  | case1 k ih =>
    rw [waitForDisk]
    rcases answer : world.diskPoll k with e | status
    · refine ⟨?_, ?_, ?_⟩ <;> simp [answer, Run.Within, Event.kind]
    · by_cases done : status = .ok
      · refine ⟨?_, ?_, fun _ => ⟨k, le_refl k, ?_, ?_⟩⟩ <;>
          simp [answer, done, Run.Within, Event.kind]
      · by_cases late : world.diskClock.read (k + 1) > world.diskClock.read 0 + timeout
        · refine ⟨?_, ?_, ?_⟩ <;> simp [answer, done, late, Run.Within, Event.kind]
        · simpa [answer, done, late] using
            (ih late).cons (world.diskClock.succ_le_of_onTime late) disk

/-- A transfer poll's answer that reports the transfer removed (`NotFoundError`) or failed
(`FINISHED_FAILURE`). -/
def Reported : Except Error Polled → Prop
  | .error e => e = .notFound
  | .ok polled => polled.phase = .finishedFailure

/-- A transfer poll that raised an exception other than `NotFoundError`. -/
def RaisedOther : Except Error Polled → Prop
  | .error e => e ≠ .notFound
  | .ok _ => False

/-- What `create_transfer`'s wait on the service of `service` did when started at pass `k`. -/
structure TransferWait (world : World) (service : String) (k : Nat) (r : Run Transfer) :
    Prop where
  /-- At most `timeout - k + 1` polls. -/
  polls : r.count .getTransfer ≤ timeout - k + 1
  /-- Nothing but polls and cancels, all on the service of `service`. -/
  targets : ∀ event ∈ r.calls, event = .getTransfer service ∨ event = .cancel service
  /-- At most one `cancel()`. -/
  cancels : r.count .cancel ≤ 1
  /-- A transfer only after `INITIALIZING` answers and then `TRANSFERRING`, with no cancel. -/
  ready : ∀ t, r.result = .ok t → r.count .cancel = 0 ∧ ∃ j, k ≤ j ∧
    j < k + r.count .getTransfer ∧ world.transferPoll j = .ok ⟨t, .transferring⟩ ∧
      ∀ i, k ≤ i → i < j → ∃ t', world.transferPoll i = .ok ⟨t', .initializing⟩
  /-- An exception after one `cancel()`, or after none when a poll it made reported the transfer
  removed or failed, or raised another exception. -/
  cleaned : ∀ e, r.result = .error e → r.count .cancel = 1 ∨
    (r.count .cancel = 0 ∧ ∃ j, k ≤ j ∧ j < k + r.count .getTransfer ∧
      Reported (world.transferPoll j)) ∨
    (r.count .cancel = 0 ∧ ∃ j, k ≤ j ∧ j < k + r.count .getTransfer ∧
      RaisedOther (world.transferPoll j))

/-- A pass that saw `INITIALIZING` in time and went round again adds its poll to what the later
passes did. -/
theorem TransferWait.cons {world : World} {service : String} {k : Nat} {calls : List Event}
    {result : Except Error Transfer} (rest : TransferWait world service (k + 1) ⟨calls, result⟩)
    (onTime : k + 1 ≤ timeout) {t : Transfer}
    (answer : world.transferPoll k = .ok ⟨t, .initializing⟩) :
    TransferWait world service k ⟨.getTransfer service :: calls, result⟩ := by
  have polls := rest.polls
  have cancels := rest.cancels
  have noCancel : Kind.getTransfer ≠ Kind.cancel := by decide
  simp only [Run.count_mk] at polls cancels
  refine ⟨?_, ?_, ?_, fun returned done => ?_, fun e raised => ?_⟩
  · simp only [Run.count_mk, List.map_cons, Event.kind, List.count_cons_self]
    omega
  · rintro event (_ | ⟨_, mem⟩)
    · exact .inl rfl
    · exact rest.targets event mem
  · simpa [noCancel] using cancels
  · obtain ⟨quiet, j, after, before, transferring, initializing⟩ := rest.ready returned done
    simp only [Run.count_mk, List.map_cons, Event.kind, List.count_cons_self,
      List.count_cons_of_ne noCancel] at quiet before ⊢
    refine ⟨quiet, j, by omega, by omega, transferring, fun i atLeast below => ?_⟩
    rcases Nat.eq_or_lt_of_le atLeast with rfl | later
    · exact ⟨t, answer⟩
    · exact initializing i later below
  · simp only [Run.count_mk, List.map_cons, Event.kind, List.count_cons_self,
      List.count_cons_of_ne noCancel]
    rcases rest.cleaned e raised with once | ⟨quiet, j, after, before, reported⟩ |
      ⟨quiet, j, after, before, other⟩ <;> simp only [Run.count_mk] at *
    · exact .inl once
    · exact .inr (.inl ⟨quiet, j, by omega, by omega, reported⟩)
    · exact .inr (.inr ⟨quiet, j, by omega, by omega, other⟩)

section LastPass

variable {world : World} {k : Nat} (service : String)

/-- A last pass that cancelled the transfer and raised. -/
theorem TransferWait.cancelled (e : Error) :
    TransferWait world service k ⟨[.getTransfer service, .cancel service], .error e⟩ := by
  refine ⟨?_, ?_, ?_, ?_, fun _ _ => .inl ?_⟩ <;> simp [Event.kind]

/-- A last pass whose poll reported the transfer gone or failed, or raised, and that raised with
no cancel. -/
theorem TransferWait.stopped (e : Error)
    (reason : Reported (world.transferPoll k) ∨ RaisedOther (world.transferPoll k)) :
    TransferWait world service k ⟨[.getTransfer service], .error e⟩ := by
  refine ⟨?_, ?_, ?_, ?_, fun _ _ => .inr ?_⟩ <;> simp [Event.kind]
  rcases reason with reported | other
  · exact .inl ⟨k, le_refl k, by omega, reported⟩
  · exact .inr ⟨k, le_refl k, by omega, other⟩

/-- A last pass that saw `TRANSFERRING` and returned the transfer it got. -/
theorem TransferWait.transferring {t : Transfer}
    (answer : world.transferPoll k = .ok ⟨t, .transferring⟩) :
    TransferWait world service k ⟨[.getTransfer service], .ok t⟩ := by
  refine ⟨?_, ?_, ?_, fun returned done => ?_, ?_⟩ <;> simp [Event.kind]
  cases done
  exact ⟨k, le_refl k, by omega, answer, fun i atLeast below => by omega⟩

end LastPass

/-- The wait makes no call but polls and cancels. -/
theorem TransferWait.within {world : World} {service : String} {k : Nat} {r : Run Transfer}
    (wait : TransferWait world service k r) :
    r.Within fun kind => kind = .getTransfer ∨ kind = .cancel :=
  fun event mem => by rcases wait.targets event mem with rfl | rfl <;> simp [Event.kind]

/-- **`create_transfer`'s wait ends**, and what it did is what the poll answers say
(`TransferWait`). -/
theorem waitForTransfer_wait (world : World) (service : String) (k : Nat) (transfer : Transfer) :
    TransferWait world service k (waitForTransfer world service k transfer) := by
  induction k, transfer using waitForTransfer.induct world service with
  | case1 k transfer ih =>
    rw [waitForTransfer]
    rcases answer : world.transferPoll k with e | ⟨polled, phase⟩
    · by_cases found : e = .notFound
      · simpa [answer, found, Run.tryCatch] using
          TransferWait.stopped service _ (.inl (by simp [answer, Reported, found]))
      · simpa [answer, Run.tryCatch, found] using
          TransferWait.stopped service e (.inr (by simp [answer, RaisedOther, found]))
    · by_cases failed : phase = .finishedFailure
      · simpa [answer, failed, Run.tryCatch] using
          TransferWait.stopped service _ (.inl (by simp [answer, Reported, failed]))
      by_cases paused : phase = .pausedSystem
      · rcases cancel : world.cancel with c | _ <;>
          simpa [answer, failed, paused, cancel, Run.tryCatch] using
            TransferWait.cancelled service _
      by_cases transferring : phase = .transferring
      · simpa [answer, transferring, Run.tryCatch] using
          TransferWait.transferring service (by rw [answer, transferring])
      by_cases unexpected : phase ≠ .initializing
      · have other : ¬ phase = .initializing := unexpected
        rcases cancel : world.cancel with c | _ <;>
          simpa [answer, failed, paused, transferring, other, cancel, Run.tryCatch] using
            TransferWait.cancelled service _
      obtain rfl : phase = .initializing := not_not.mp unexpected
      by_cases late : world.transferClock.read (k + 1) > world.transferClock.read 0 + timeout
      · rcases cancel : world.cancel with c | _ <;>
          simpa [answer, late, cancel, Run.tryCatch] using TransferWait.cancelled service _
      simpa [answer, late, Run.tryCatch] using
        (ih ⟨polled, .initializing⟩ late).cons (world.transferClock.succ_le_of_onTime late) answer

/-! ## A poll that raises leaks the transfer -/

/-- **A transfer poll that raises anything but `NotFoundError` leaks the transfer.** In every
world where `open` gets as far as the transfer's first poll, and that poll raises an exception
`name` other than `NotFoundError`, `open` raises `name` with the transfer added and never
cancelled, although no poll reported the transfer removed or `FINISHED_FAILURE`. -/
theorem open_leaks_transfer (params : Params) (world : World) (disk : String)
    (transfer : Transfer) (name : String) :
    let leaking : World :=
      { world with
        connect := .ok (), vdsmId := .error (.raised "FileNotFoundError"), addDisk := .ok disk,
        diskPoll := fun _ => .ok .ok, addTransfer := .ok transfer,
        transferPoll := fun _ => .error (.raised name) }
    («open» params leaking).result = .error (.raised name) ∧
      («open» params leaking).count .addTransfer = 1 ∧ («open» params leaking).count .cancel = 0 ∧
      ∀ k, leaking.transferPoll k ≠ .error .notFound ∧
        ∀ t, leaking.transferPoll k ≠ .ok ⟨t, .finishedFailure⟩ := by
  intro leaking
  have disked : waitForDisk leaking disk 0 = ⟨[.getDisk disk], .ok ()⟩ := by
    rw [waitForDisk]
    simp [leaking]
  have polled : waitForTransfer leaking transfer.id 0 transfer =
      ⟨[.getTransfer transfer.id], .error (.raised name)⟩ := by
    rw [waitForTransfer]
    simp [leaking, Run.tryCatch]
  cases direct : params.rhvDirect <;>
    simp [«open», directHost, findHost, direct, createDisk, createTransfer, disked, polled, leaking, Run.count,
      Event.kind]

/-! ## What `open` does -/

/-- `create_disk` adds the disk and polls it, at most `timeout + 1` times, and returns the disk
only after a poll saw it `OK`. -/
theorem createDisk_spec (params : Params) (world : World) :
    (createDisk params world).Within (fun kind => kind = .addDisk ∨ kind = .getDisk) ∧
      (createDisk params world).count .getDisk ≤ timeout + 1 ∧
      ∀ disk, (createDisk params world).result = .ok disk →
        ∃ j, j < (createDisk params world).count .getDisk ∧ world.diskPoll j = .ok .ok := by
  refine ⟨?_, ?_⟩
  · exact (Run.within_call (.inl rfl) _).handle (fun _ => Run.within_throw _) fun disk =>
      ((waitForDisk_wait world disk 0).within.mono fun _ => .inr).handle
        (fun _ => Run.within_throw _) fun _ => Run.within_pure _
  rcases added : world.addDisk with e | disk
  · simp [createDisk, added, Event.kind]
  obtain ⟨polls, -, ready⟩ := waitForDisk_wait world disk 0
  simp only [Nat.sub_zero, zero_le, zero_add, true_and] at polls ready
  rcases waited : (waitForDisk world disk 0).result with e | _ <;>
    simp [createDisk, -Run.bind_eq, Run.count_bind, Run.result_bind, added, waited, Event.kind]
  · exact polls
  · exact ⟨polls, ready waited⟩

/-- `create_transfer` once `transfers_service.add` returned `transfer`: the add, then the wait. -/
theorem createTransfer_added {world : World} {transfer : Transfer}
    (added : world.addTransfer = .ok transfer) (disk : String) (host : Option String) :
    (createTransfer world disk host).result =
        (waitForTransfer world transfer.id 0 transfer).result ∧
      ∀ kind, (createTransfer world disk host).count kind = (if kind = .addTransfer then 1 else 0) +
        (waitForTransfer world transfer.id 0 transfer).count kind := by
  refine ⟨by simp [createTransfer, added], fun kind => ?_⟩
  simp only [createTransfer, added, Run.count_bind, Run.call_eq, Run.count_mk]
  by_cases adding : kind = .addTransfer
  · simp [adding, Event.kind]
  · simp [adding, Event.kind, Ne.symm adding]

/-- **`open`'s `except:` cancels exactly when the imageio setup raised**, and nothing in it calls
the control plane otherwise. -/
theorem prepareOrCancel_spec (params : Params) (world : World) (transfer : Transfer)
    (host : Option String) :
    (prepareOrCancel params world transfer host).Within
        (fun kind => ImageioCall kind ∨ kind = .cancel) ∧
      (∀ imageio, (prepareOrCancel params world transfer host).result = .ok imageio →
        (prepareOrCancel params world transfer host).count .cancel = 0) ∧
      ∀ e, (prepareOrCancel params world transfer host).result = .error e →
        (prepareOrCancel params world transfer host).count .cancel = 1 := by
  have prep := prepareImageio_within params world transfer host
  refine ⟨(prep.mono fun _ => .inl).tryCatch fun e =>
    (Run.within_call (.inr rfl) _).handle (fun _ => Run.within_throw _) fun _ => Run.within_throw _,
    ?_⟩
  have quiet := prep.count_eq_zero (show ¬ ImageioCall .cancel by simp [ImageioCall])
  unfold prepareOrCancel
  generalize prepareImageio params world transfer host = setup at quiet
  obtain ⟨calls, e | imageio⟩ := setup
  · rcases cancelled : world.cancel with c | _ <;>
      simp_all [Run.tryCatch, cancelTransfer, Event.kind]
  · simp_all [Run.tryCatch]

/-- The one `cancel()` of `open`'s `except:` is on the transfer it guards. -/
theorem prepareOrCancel_cancel {params : Params} {world : World} {transfer : Transfer}
    {host : Option String} {event : Event}
    (mem : event ∈ (prepareOrCancel params world transfer host).calls)
    (cancel : event.kind = .cancel) : event = .cancel transfer.id := by
  have setupCalls := prepareImageio_within params world transfer host
  have notSetup : event ∉ (prepareImageio params world transfer host).calls := fun inSetup => by
    simpa [cancel, ImageioCall] using setupCalls event inSetup
  unfold prepareOrCancel at mem
  generalize prepareImageio params world transfer host = setup at notSetup mem
  obtain ⟨calls, e | imageio⟩ := setup
  · rcases answered : world.cancel with c | _ <;>
      simpa [Run.tryCatch, cancelTransfer, answered, notSetup] using mem
  · exact absurd (by simpa [Run.tryCatch] using mem) notSetup

/-- The calls of `find_host`: the `vdsm.id` read and the two searches. -/
def HostCall (kind : Kind) : Prop :=
  kind = .readVdsmId ∨ kind = .listDataCenters ∨ kind = .listHosts

/-- `find_host` makes no call but its read and its searches. -/
theorem directHost_within (params : Params) (world : World) :
    (directHost params world).Within HostCall := by
  unfold directHost findHost
  split_ifs
  · refine (Run.within_call (.inl rfl) _).handle (fun _ => Run.within_pure _) fun vdsmId => ?_
    refine (Run.within_call (.inr (.inl rfl)) _).handle (fun _ => Run.within_throw _)
      fun dataCenters => ?_
    split
    · exact Run.within_pure _
    · refine (Run.within_call (.inr (.inr rfl)) _).handle (fun _ => Run.within_throw _)
        fun hosts => ?_
      split <;> exact Run.within_pure _
  · exact Run.within_pure _

/-- **Every `cancel()` of `open` is on its own transfer**: on the service of the transfer
`transfers_service.add` returned, or, in `open`'s `except:`, on the transfer the wait returned,
which a poll reported `TRANSFERRING`. -/
theorem open_cancels (params : Params) (world : World) :
    ∀ event ∈ («open» params world).calls, event.kind = .cancel →
      ∃ t, world.addTransfer = .ok t ∧ (event = .cancel t.id ∨
        ∃ j t', world.transferPoll j = .ok ⟨t', .transferring⟩ ∧ event = .cancel t'.id) := by
  intro event mem cancel
  have excluded {α : Type} {allowed : Kind → Prop} {x : Run α} (within : x.Within allowed)
      (other : ¬ allowed .cancel) : event ∉ x.calls := fun inside =>
    other (cancel ▸ within event inside)
  simp only [«open»] at mem
  rcases Run.mem_calls_bind mem with connected | ⟨_, -, mem⟩
  · exact absurd connected (excluded (Run.within_call rfl _) (by decide))
  rcases Run.mem_calls_bind mem with hosted | ⟨host, -, mem⟩
  · exact absurd hosted (excluded (directHost_within params world) (by simp [HostCall]))
  rcases Run.mem_calls_bind mem with disked | ⟨disk, -, mem⟩
  · exact absurd disked (excluded (createDisk_spec params world).1 (by simp))
  rcases Run.mem_calls_bind mem with transferring | ⟨transfer, created, mem⟩
  · -- a cancel of `create_transfer`'s wait, on the added transfer's service
    rcases Run.mem_calls_bind transferring with adding | ⟨t, added, waiting⟩
    · exact absurd adding (excluded (Run.within_call rfl _) (by simp [Event.kind]))
    refine ⟨t, added, .inl ?_⟩
    rcases (waitForTransfer_wait world t.id 0 t).targets event waiting with rfl | rfl
    · cases cancel
    · rfl
  rcases Run.mem_calls_bind mem with preparing | ⟨_, -, mem⟩
  · -- the cancel of `open`'s `except:`, on the transfer the wait returned
    obtain ⟨t, added, waited⟩ := Run.ok_of_bind created
    obtain ⟨-, j, -, -, transferring, -⟩ :=
      (waitForTransfer_wait world t.id 0 t).ready transfer waited
    exact ⟨t, added, .inr ⟨j, transfer, transferring, prepareOrCancel_cancel preparing cancel⟩⟩
  · simp at mem

/-- **What `open` does, for every world.** Every `cancel()` it makes is on the transfer
`transfers_service.add` returned, or on the transfer a poll reported `TRANSFERRING`. It polls the
disk and the transfer at most `timeout + 1` times each and cancels at most once. It returns a handle only after a poll saw the
disk `OK`, and a poll saw the handle's transfer `TRANSFERRING` after only `INITIALIZING` answers.
When it raises after `transfers_service.add` returned a transfer, the transfer got exactly one
`cancel()`, or none and one of the polls made reported it removed or `FINISHED_FAILURE`, or none
and one of the polls made raised an exception other than `NotFoundError`. -/
theorem open_cleanup (params : Params) (world : World) :
    let run := «open» params world
    (∀ event ∈ run.calls, event.kind = .cancel → ∃ t, world.addTransfer = .ok t ∧
        (event = .cancel t.id ∨
          ∃ j t', world.transferPoll j = .ok ⟨t', .transferring⟩ ∧ event = .cancel t'.id)) ∧
      run.count .getDisk ≤ timeout + 1 ∧ run.count .getTransfer ≤ timeout + 1 ∧
      run.count .cancel ≤ 1 ∧
      (∀ h, run.result = .ok h →
        (∃ j, j < run.count .getDisk ∧ world.diskPoll j = .ok .ok) ∧
        ∃ j, j < run.count .getTransfer ∧ world.transferPoll j = .ok ⟨h.transfer, .transferring⟩ ∧
          ∀ i, i < j → ∃ t, world.transferPoll i = .ok ⟨t, .initializing⟩) ∧
      (∀ e t, run.result = .error e → world.addTransfer = .ok t → 0 < run.count .addTransfer →
        run.count .cancel = 1 ∨
        (run.count .cancel = 0 ∧ ∃ j, j < run.count .getTransfer ∧ Reported (world.transferPoll j)) ∨
        (run.count .cancel = 0 ∧ ∃ j, j < run.count .getTransfer ∧
          RaisedOther (world.transferPoll j))) := by
  intro run
  refine ⟨open_cancels params world, ?_⟩
  obtain ⟨diskWithin, diskPolls, diskReady⟩ := createDisk_spec params world
  have connectWithin : (Run.call .connect world.connect).Within (Eq .connect) :=
    Run.within_call rfl _
  have hostWithin := directHost_within params world
  -- before `create_transfer` nothing touches a transfer, and only `create_disk` polls the disk
  simp (disch := simp [HostCall]) only [run, «open», Run.count_bind, Run.result_bind,
    connectWithin.count_eq_zero, hostWithin.count_eq_zero, diskWithin.count_eq_zero, zero_add]
  rcases connected : world.connect with e | _
  · simp
  rcases hosted : (directHost params world).result with e | host
  · simp
  rcases disked : (createDisk params world).result with e | disk
  · simpa using diskPolls
  rcases added : world.addTransfer with e | transfer
  · simpa [createTransfer, added, Event.kind] using diskPolls
  obtain ⟨polls, -, cancels, ready, cleaned⟩ := waitForTransfer_wait world transfer.id 0 transfer
  have waitWithin := (waitForTransfer_wait world transfer.id 0 transfer).within
  simp only [Nat.sub_zero, zero_le, zero_add, true_and, true_implies] at polls ready cleaned
  simp (disch := simp) only [(createTransfer_added added disk host).1,
    (createTransfer_added added disk host).2, waitWithin.count_eq_zero]
  rcases waited : (waitForTransfer world transfer.id 0 transfer).result with e | transfer'
  · simpa [Event.kind] using ⟨diskPolls, polls, cancels, cleaned e waited⟩
  obtain ⟨quiet, j, before, transferring, initializing⟩ := ready transfer' waited
  obtain ⟨guarded, guardedOk, guardedError⟩ := prepareOrCancel_spec params world transfer' host
  simp (disch := simp [ImageioCall]) only [guarded.count_eq_zero]
  rcases prepared : (prepareOrCancel params world transfer' host).result with e | imageio
  · simpa [guardedError e prepared, quiet, Event.kind] using ⟨diskPolls, polls⟩
  · simpa [guardedOk imageio prepared, quiet, Event.kind] using
      ⟨diskPolls, polls, diskReady disk disked, j, before, transferring, initializing⟩

/-! ## The handle `open` returns -/

/-- `get_options` reads the same options whatever connection and URL it asks on. -/
theorem getOptions_result (world : World) (http http' : Http) (url url' : Url) :
    (getOptions world http url).result = (getOptions world http' url').result := rfl

/-- The imageio setup inside `open`'s `try:` returned whenever the guarded setup did: the
`except:` branch always raises. -/
theorem prepareImageio_of_prepareOrCancel {params : Params} {world : World} {transfer : Transfer}
    {host : Option String} {imageio : Imageio}
    (ok : (prepareOrCancel params world transfer host).result = .ok imageio) :
    (prepareImageio params world transfer host).result = .ok imageio := by
  unfold prepareOrCancel at ok
  generalize prepareImageio params world transfer host = setup at ok ⊢
  obtain ⟨calls, e | a⟩ := setup
  · rcases cancelled : world.cancel with _ | _ <;>
      simp [Run.tryCatch, cancelTransfer, cancelled] at ok
  · simpa [Run.tryCatch] using ok

/-- The server's `OPTIONS` answer was `200` and listed `feature` among its features. -/
def Announces (world : World) (feature : String) : Prop :=
  ∃ r j, world.options = .ok r ∧ r.status = 200 ∧ r.body = .ok j ∧ feature ∈ j.features

/-- `get_options` says the server can flush, or zero, only when its `OPTIONS` answer said so;
the old servers' `405` and `204` say neither. -/
theorem getOptions_announces {world : World} {http : Http} {url : Url} {options : Options}
    (got : (getOptions world http url).result = .ok options) :
    (options.canFlush = true → Announces world "flush") ∧
      (options.canZero = true → Announces world "zero") := by
  rcases answered : world.options with e | r
  · simp [getOptions, answered] at got
  by_cases ok : r.status = 200
  · rcases body : r.body with e | j
    · simp [getOptions, answered, ok, body] at got
    simp only [getOptions, answered, ok, body, Run.bind_eq, Run.call_eq, Run.handle_ok, if_true,
      Run.pure_eq, Except.ok.injEq] at got
    subst got
    exact ⟨fun flush => ⟨r, j, answered, ok, body, by simpa using flush⟩,
      fun zero => ⟨r, j, answered, ok, body, by simpa using zero⟩⟩
  by_cases old : r.status = 405 ∨ r.status = 204
  · simp only [getOptions, answered, ok, old, Run.bind_eq, Run.call_eq, Run.handle_ok, if_false,
      if_true, Run.pure_eq, Except.ok.injEq] at got
    subst got
    simp
  · simp [getOptions, answered, ok, old] at got

/-- **The handle `open` returns** is made of the options `get_options` read: its pool holds
`min(max_readers, max_writers, MAX_CONNECTIONS)` connections, it can flush and zero as the
server said, and it is not failed. -/
theorem open_handle {params : Params} {world : World} {h : Handle}
    (opened : («open» params world).result = .ok h) :
    ∃ options : Options, (∀ http url, (getOptions world http url).result = .ok options) ∧
      h.connections = min (min options.maxReaders options.maxWriters) maxConnections ∧
      h.canFlush = options.canFlush ∧ h.canZero = options.canZero ∧ h.failed = false := by
  simp only [«open»] at opened
  obtain ⟨_, -, opened⟩ := Run.ok_of_bind opened
  obtain ⟨host, -, opened⟩ := Run.ok_of_bind opened
  obtain ⟨disk, -, opened⟩ := Run.ok_of_bind opened
  obtain ⟨transfer, -, opened⟩ := Run.ok_of_bind opened
  obtain ⟨imageio, prepared, opened⟩ := Run.ok_of_bind opened
  cases opened
  have setup := prepareImageio_of_prepareOrCancel prepared
  simp only [prepareImageio] at setup
  obtain ⟨url, -, setup⟩ := Run.ok_of_bind setup
  obtain ⟨http, -, setup⟩ := Run.ok_of_bind setup
  obtain ⟨options, optioned, setup⟩ := Run.ok_of_bind setup
  obtain ⟨_, -, setup⟩ := Run.ok_of_bind setup
  obtain ⟨connections, pooled, setup⟩ := Run.ok_of_bind setup
  cases setup
  simp only [createHttpPool] at pooled
  obtain ⟨_, -, pooled⟩ := Run.ok_of_bind pooled
  cases pooled
  exact ⟨options, fun _ _ => (getOptions_result ..).trans optioned, rfl, rfl, rfl, rfl⟩

end RhvUpload
