/-
**The plugin's vocabulary: constants, control-plane enums, errors and the handle.**

`rhv-upload-plugin.py` is the nbdkit plugin behind `virt-v2v -o rhv-upload`. This module holds
what every other module reads:

* `maxConnections`, `timeout`, `zeroBufferSize` — the module constants (the last one is the
  literal `128 * 1024` of `emulate_zero`).
* `Phase`, `DiskStatus` — the values of `types.ImageTransferPhase` and `types.DiskStatus` the
  code compares against; every other transfer phase is `Phase.other`.
* `Message`, `Error` — every exception the plugin raises or lets through. A `RuntimeError`
  carries a `Message`, whose `text` is the source's format string filled in.
* `Transfer`, `Url`, `Params`, `Handle` — the records the code reads fields of, with only
  those fields.
-/

import Mathlib

namespace RhvUpload

/-! ## Constants -/

/-- `MAX_CONNECTIONS`: the cap on the imageio connection pool. -/
def maxConnections : Nat := 4

/-- `timeout`: seconds to wait for a disk to unlock or a transfer to change phase. -/
def timeout : Nat := 5 * 60

/-- The size of the zero buffer `emulate_zero` sends from: `bytearray(128 * 1024)`. -/
def zeroBufferSize : Nat := 128 * 1024

/-! ## Control-plane values -/

/-- `types.ImageTransferPhase`, split into the phases the plugin names and all others. -/
inductive Phase
  | initializing
  | transferring
  | pausedSystem
  | finishedSuccess
  | finishedFailure
  | other (name : String)
  deriving DecidableEq, Repr

/-- The name a phase prints as in the plugin's messages. -/
def Phase.name : Phase → String
  | .initializing => "initializing"
  | .transferring => "transferring"
  | .pausedSystem => "paused_system"
  | .finishedSuccess => "finished_success"
  | .finishedFailure => "finished_failure"
  | .other name => name

/-- `types.DiskStatus`: a new disk is `locked`, then `ok`; a failed upload leaves it `illegal`. -/
inductive DiskStatus
  | ok
  | locked
  | illegal
  deriving DecidableEq, Repr

/-- The name a disk status prints as in the plugin's messages. -/
def DiskStatus.name : DiskStatus → String
  | .ok => "ok"
  | .locked => "locked"
  | .illegal => "illegal"

/-! ## Errors -/

/-- The message of every `RuntimeError` the plugin raises, with the values it formats. -/
inductive Message
  | unknownConfigKey (key : String)
  | missingParams
  | couldNotRead (offset count : Nat)
  | unexpectedContentLength (offset count got : Nat)
  | shortRead (offset count got : Nat)
  | couldNotWrite (offset count : Nat)
  | couldNotZero (offset count : Nat)
  | couldNotWriteZeroes (offset count : Nat)
  | couldNotFlush
  | diskLockTimeout (disk : String)
  | transferRemoved (transfer : String)
  | transferFailed (transfer : String)
  | transferPaused (transfer : String)
  | unexpectedPhase (transfer : String) (phase : Phase)
  | transferTimeout (transfer : String)
  | finalizeDiskRemoved (transfer disk : String)
  | finalizeDiskStatus (transfer : String) (status : DiskStatus)
  | finalizeTimeout (transfer : String) (phase : Phase)
  | directUnsupported
  | unknownScheme (scheme : String)
  | optionsFailed (status : Nat) (reason : String)
  deriving DecidableEq, Repr, Inhabited

/-- The text of a message, as the source's `%` formatting produces it. -/
def Message.text : Message → String
  | .unknownConfigKey key => s!"unknown configuration key \x27{key}\x27"
  | .missingParams => "missing configuration parameters"
  | .couldNotRead offset count => s!"could not read sector offset {offset} size {count}"
  | .unexpectedContentLength offset count got =>
    s!"unexpected Content-Length offset {offset} size {count} got {got}"
  | .shortRead offset count got => s!"short read offset {offset} size {count} got {got}"
  | .couldNotWrite offset count => s!"could not write sector offset {offset} size {count}"
  | .couldNotZero offset count => s!"could not zero sector offset {offset} size {count}"
  | .couldNotWriteZeroes offset count => s!"could not write zeroes offset {offset} size {count}"
  | .couldNotFlush => "could not flush"
  | .diskLockTimeout disk => s!"timed out waiting for disk {disk} to become unlocked"
  | .transferRemoved transfer => s!"transfer {transfer} was removed"
  | .transferFailed transfer => s!"transfer {transfer} has failed"
  | .transferPaused transfer => s!"transfer {transfer} was paused by system"
  | .unexpectedPhase transfer phase =>
    let name := phase.name
    s!"unexpected transfer {transfer} phase {name}"
  | .transferTimeout transfer => s!"timed out waiting for transfer {transfer}"
  | .finalizeDiskRemoved transfer disk => s!"transfer {transfer} failed: disk {disk} was removed"
  | .finalizeDiskStatus transfer status =>
    let name := status.name
    s!"transfer {transfer} failed: disk is {name}"
  | .finalizeTimeout transfer phase =>
    let name := phase.name
    s!"timed out waiting for transfer {transfer} to finalize, transfer is {name}"
  | .directUnsupported =>
    "direct upload to host not supported, requires ovirt-engine >= 4.2 and only works " ++
      "when virt-v2v is run within the oVirt/RHV environment, eg. on an oVirt node."
  | .unknownScheme scheme => s!"unknown URL scheme ({scheme})"
  | .optionsFailed status reason => s!"could not use OPTIONS request: {status}: {reason}"

/-- An exception as it leaves a function of the plugin.

* `requestFailed` — the `RuntimeError` of `request_failed`: the message, then the status,
  reason and at most 200 bytes of the response body.
* `runtime` — any other `RuntimeError` the plugin raises.
* `notFound` — `sdk.NotFoundError` from the control plane.
* `raised` — any other exception of a library or remote call, by its name. -/
inductive Error
  | requestFailed (msg : Message) (status : Nat) (reason : String) (body : List UInt8)
  | runtime (msg : Message)
  | notFound
  | raised (name : String)
  deriving DecidableEq, Repr, Inhabited

/-! ## Records -/

/-- A URL after `urlparse`, with the parts the plugin reads. -/
structure Url where
  scheme : String
  hostname : String
  port : Option Nat
  path : String
  deriving DecidableEq, Repr

/-- An image transfer object of the control plane. -/
structure Transfer where
  id : String
  transferUrl : Option Url
  proxyUrl : Url
  deriving DecidableEq, Repr

/-- The fields of the global `params` dict that the modelled functions read. -/
structure Params where
  rhvDirect : Bool
  rhvCafile : String
  insecure : Bool
  diskFormat : String
  diskName : String
  diskSize : Nat
  rhvDiskUuid : Option String
  outputStorage : String
  diskidFile : String
  deriving DecidableEq, Repr

/-- The handle `open` returns. The `connection` and `pool` entries are the control-plane
connection and the queue of imageio connections; the pool's contents live in the pool model
(`RhvUpload.Pool`), and `connections` is the pool's size when it was made. -/
structure Handle where
  canFlush : Bool
  canZero : Bool
  diskId : String
  transfer : Transfer
  failed : Bool
  connections : Nat
  path : String
  deriving DecidableEq, Repr

end RhvUpload
