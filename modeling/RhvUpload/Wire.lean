/-
**The imageio wire: the requests the plugin writes and the responses it reads.**

The plugin speaks a small HTTP dialect to the imageio server (`random-io.md` in imageio's
documentation, cited by the source):

* `Request.get` — `GET path` with `Range: bytes=first-last`;
* `Request.put` — `PUT path?flush=y|n` with `Content-Range: bytes first-last/*` and
  `Content-Length`, followed by the body, one `http.send` per element of `sends`;
* `Request.patch` — `PATCH path` with the JSON body `{"op": "zero", ...}` or `{"op": "flush"}`;
* `Exchange` — a request and the handling of its response: what each block operation does
  with the connection it borrows.

A header value such as `"bytes=%d-%d" % (offset, offset + count - 1)` is kept as the numbers it
formats. Python integers are unbounded, so the range ends are `Int`: for `count = 0` the end is
`offset - 1`, which is `-1` at offset `0`.

`Response.read` is `r.read()`: the body up to its `Content-Length`, or `IncompleteRead` when the
body ends first; `requestFailed` raises its `RuntimeError` only when that read returns.

`overwrite` is the one byte-array update of the development: a `memoryview` slice that
`readinto` fills, and the server storing a body. `serve` is the server `random-io.md`
describes: a byte array the size of the disk, answering `206` to a ranged `GET`, `200` to a
`PATCH` and to a `PUT` whose body matches its `Content-Length` and `Content-Range`, and `400` to
any other `PUT`.
-/

import RhvUpload.Basic

namespace RhvUpload

/-! ## Requests and responses -/

/-- The JSON body of a `PATCH` request. -/
inductive PatchOp
  | zero (offset size : Nat) (flush : Bool)
  | flush
  deriving DecidableEq, Repr

/-- A request on an imageio connection, with the header values it carries. -/
inductive Request
  | get (path : String) (first last : Int)
  | put (target : String) (first last : Int) (length : Nat) (sends : List (List UInt8))
  | patch (path : String) (op : PatchOp)
  deriving DecidableEq, Repr

/-- A response, as `http.getresponse()` returns it. The body is kept as the successive results
of reading it: `readinto` and `read` return these chunks in order, and an empty result once
they are used up; the connection then ends cleanly (a socket error while reading is not
modelled). -/
structure Response where
  status : Nat
  reason : String
  contentLength : Option Nat
  body : List (List UInt8)
  deriving DecidableEq, Repr

/-- `r.read()` on a response none of whose body was read: with `Content-Length: n`, the first
`n` bytes of the body, raising `IncompleteRead` when the body ends first; without the header,
the whole body. -/
def Response.read (r : Response) : Except Error (List UInt8) :=
  match r.contentLength with
  | none => .ok r.body.flatten
  | some length =>
    if length ≤ r.body.flatten.length then .ok (r.body.flatten.take length)
    else .error (.raised "IncompleteRead")

/-- What the body of one `with http_context(h) as http:` block does on its connection: one
request, then the handling of its response. `pread`, `pwrite`, `zero` and `emulate_zero` are each
one exchange; `flush` makes one on every connection of the pool. -/
structure Exchange (α : Type) where
  request : Request
  reply : Response → Except Error α

/-- The exchange with its result passed through `f`. -/
def Exchange.map (f : α → β) (e : Exchange α) : Exchange β :=
  ⟨e.request, fun r => (e.reply r).map f⟩

@[simp] theorem Exchange.map_request (f : α → β) (e : Exchange α) :
    (e.map f).request = e.request := rfl

@[simp] theorem Exchange.map_reply (f : α → β) (e : Exchange α) (r : Response) :
    (e.map f).reply r = (e.reply r).map f := rfl

/-- The `flush=y|n` query value of `pwrite` and `emulate_zero`, and the `flush` field of a
native zero: set when the server can flush and the call carries `nbdkit.FLAG_FUA` (`flagFua`,
the bit nbdkit defines, a parameter here). -/
def fuaFlush (flagFua : Nat) (canFlush : Bool) (flags : Nat) : Bool :=
  canFlush && flags &&& flagFua != 0

/-- The query value `"y"` or `"n"`. -/
def flushQuery (flush : Bool) : String := if flush then "y" else "n"

/-- `request_failed(r, msg)`, with `read` what its `r.read()` did: raise a `RuntimeError` with
the message, the status, the reason and at most 200 bytes of the body read. The `try` around
`r.read()` catches only `EnvironmentError`; `IncompleteRead`, the one exception the model's
`r.read()` raises, is not one, so it propagates in place of the `RuntimeError`. -/
def requestFailed (r : Response) (msg : Message) (read : Except Error (List UInt8)) : Error :=
  match read with
  | .ok body => .requestFailed msg r.status r.reason (body.take 200)
  | .error e => e

/-- What the handling of a `200` does last: `r.read()`, whose bytes it drops but whose
exception propagates. -/
def readRest (r : Response) : Except Error Unit := r.read.map fun _ => ()

/-! ## Byte arrays -/

/-- `bytes` with `data` written from position `start` on. -/
def overwrite (bytes : List UInt8) (start : Nat) (data : List UInt8) : List UInt8 :=
  bytes.take start ++ data ++ bytes.drop (start + data.length)

section Overwrite

variable {bytes data : List UInt8} {start : Nat}

/-- **A write inside the array keeps its length.** -/
theorem length_overwrite (fits : start + data.length ≤ bytes.length) :
    (overwrite bytes start data).length = bytes.length := by
  simp only [overwrite, List.length_append, List.length_take, List.length_drop]
  omega

/-- After a write inside the array, its first `start + data.length` bytes are the old prefix
followed by `data`. -/
theorem take_overwrite (fits : start ≤ bytes.length) :
    (overwrite bytes start data).take (start + data.length) = bytes.take start ++ data := by
  have prefixLength : (bytes.take start ++ data).length = start + data.length := by
    simp only [List.length_append, List.length_take]
    omega
  rw [overwrite, List.append_assoc, ← List.append_assoc (bytes.take start) data,
    List.take_left' prefixLength]

/-- Past the bytes written, an array is as it was. -/
theorem drop_overwrite (fits : start ≤ bytes.length) {k : Nat} (past : start + data.length ≤ k) :
    (overwrite bytes start data).drop k = bytes.drop k := by
  have front : (bytes.take start ++ data).length = start + data.length := by
    simp only [List.length_append, List.length_take]; omega
  rw [overwrite, List.drop_append_eq_append_drop, front, List.drop_eq_nil_of_le (by omega),
    List.nil_append, List.drop_drop, Nat.add_sub_cancel' past]

/-- Writing the whole array replaces it. -/
theorem overwrite_zero_of_length (same : data.length = bytes.length) :
    overwrite bytes 0 data = data := by
  simp [overwrite, same]

end Overwrite

/-! ## The server of the wire contract -/

/-- The status line of the server's answers. -/
def answer (status : Nat) (reason : String) (body : List (List UInt8)) : Response :=
  ⟨status, reason, some body.flatten.length, body⟩

/-- The imageio server of the wire contract over the disk image `disk`: the new image and the
response. A ranged `GET` answers `206` with the `last - first + 1` bytes from `first`; a `PUT`
whose body is its `Content-Length` bytes and whose `Content-Range` spans them stores the body at
`first`, and any other `PUT` is refused with `400` and changes nothing; a zero `PATCH` zeroes
`size` bytes at `offset`; a flush `PATCH` changes nothing. -/
def serve (disk : List UInt8) : Request → List UInt8 × Response
  | .get _ first last =>
    (disk, answer 206 "Partial Content" [(disk.drop first.toNat).take (last - first + 1).toNat])
  | .put _ first last length sends =>
    if sends.flatten.length = length ∧ last = first + length - 1 then
      (overwrite disk first.toNat sends.flatten, answer 200 "OK" [])
    else (disk, answer 400 "Bad Request" [])
  | .patch _ (.zero offset size _) =>
    (overwrite disk offset (List.replicate size 0), answer 200 "OK" [])
  | .patch _ .flush => (disk, answer 200 "OK" [])

end RhvUpload
