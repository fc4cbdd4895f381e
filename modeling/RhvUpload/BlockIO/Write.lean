/-
**`pwrite`, `zero`, `emulate_zero`, `flush`'s request, and the other entry points.**

* `pwrite` sends a `PUT` with the caller's buffer; `zero` sends a zero `PATCH` when the server
  can zero and falls back to `emulate_zero` otherwise, which streams zeros from one
  `128 KiB` buffer through a `PUT`:

  ```
  buf = bytearray(128 * 1024)
  while count > len(buf):
      http.send(buf)
      count -= len(buf)
  http.send(memoryview(buf)[:count])
  ```

  A `BrokenPipeError` from a send ends the sending and is swallowed; the response decides.
* **`emulateZero_request`** — with no broken pipe, for every count `S`, the `PUT` announces
  `S` bytes at `offset`, and its body is `(S - 1) / 131072` full buffers followed by one final
  piece of `S - 131072 * ((S - 1) / 131072)` zeros: all zero, each at most `131072` bytes,
  `S` bytes in all (one empty piece when `S = 0`).
* **`zero_failure_size`** — a refused native zero reports the requested size; a refused
  emulated zero reports the size of its last piece, which is the requested size only up to
  `128 KiB`; a refused request whose body is cut short raises `IncompleteRead` instead.
* `failing` — the decorator: an exception marks the handle failed and propagates.
-/

import RhvUpload.Wire

namespace RhvUpload

/-! ## `pwrite` -/

/-- The `PUT` target: the transfer path with the `flush=y|n` query. -/
def putTarget (flagFua : Nat) (h : Handle) (flags : Nat) : String :=
  h.path ++ "?flush=" ++ flushQuery (fuaFlush flagFua h.canFlush flags)

/-- `pwrite`'s handling of the response: `request_failed` unless `200`, then `r.read()`. -/
def pwriteReply (buf : List UInt8) (offset : Nat) (r : Response) : Except Error Unit :=
  if r.status ≠ 200 then .error (requestFailed r (.couldNotWrite offset buf.length) r.read)
  else readRest r

/-- `pwrite(h, buf, offset, flags)`: `PUT` with `Content-Range: bytes offset-(offset + count -
1)/*` and `Content-Length: count`, then the buffer in one send, which is lost when it raises
`BrokenPipeError` (`broken`). -/
def pwrite (flagFua : Nat) (broken : Bool) (h : Handle) (buf : List UInt8) (offset flags : Nat) :
    Exchange Unit :=
  ⟨.put (putTarget flagFua h flags) offset ((offset : Int) + buf.length - 1) buf.length
      (if broken then [] else [buf]),
    pwriteReply buf offset⟩

/-! ## `emulate_zero` -/

/-- The buffer `emulate_zero` sends from; it is never written, so it stays all zeros. -/
def zeroBuffer : List UInt8 := List.replicate zeroBufferSize 0

theorem length_zeroBuffer : zeroBuffer.length = zeroBufferSize := List.length_replicate _ _

theorem zeroBuffer_ne_nil : zeroBuffer ≠ [] :=
  List.ne_nil_of_length_pos (length_zeroBuffer ▸ (by decide : 0 < zeroBufferSize))

/-- `emulate_zero`'s sends from the `k`-th on, over its buffer `buf`, with `count` bytes left:
the buffers sent, and the value `count` has when the `try` block is left. `broken` is the index
of the send that raises `BrokenPipeError`, if one does; that send and all later ones are not
made. -/
def emulateZeroSends (buf : List UInt8) (nonempty : buf ≠ []) (broken : Option Nat) (k count : Nat) :
    List (List UInt8) × Nat :=
  if buf.length < count then
    if broken = some k then ([], count)
    else
      let rest := emulateZeroSends buf nonempty broken (k + 1) (count - buf.length)
      (buf :: rest.1, rest.2)
  else if broken = some k then ([], count) else ([buf.take count], count)
termination_by count
decreasing_by exact Nat.sub_lt (by omega) (List.length_pos.mpr nonempty)

/-- `emulate_zero`'s handling of the response. Its message formats `count` after the loop,
which is `left`, the size of the last piece. -/
def emulateZeroReply (offset left : Nat) (r : Response) : Except Error Unit :=
  if r.status ≠ 200 then .error (requestFailed r (.couldNotWriteZeroes offset left) r.read)
  else readRest r

/-- `emulate_zero(h, count, offset, flags)`: a `PUT` announcing the original `count` bytes at
`offset`, whose body is what the send loop sent. -/
def emulateZero (flagFua : Nat) (broken : Option Nat) (h : Handle) (count offset flags : Nat) :
    Exchange Unit :=
  let sent := emulateZeroSends zeroBuffer zeroBuffer_ne_nil broken 0 count
  ⟨.put (putTarget flagFua h flags) offset ((offset : Int) + count - 1) count sent.1,
    emulateZeroReply offset sent.2⟩

/-- With no broken pipe, the loop sends `(count - 1) / len(buf)` whole buffers and then the
first `count - len(buf) * ((count - 1) / len(buf))` bytes of the buffer. -/
theorem emulateZeroSends_none (buf : List UInt8) (nonempty : buf ≠ []) (k count : Nat) :
    emulateZeroSends buf nonempty none k count =
      (List.replicate ((count - 1) / buf.length) buf ++
          [buf.take (count - buf.length * ((count - 1) / buf.length))],
        count - buf.length * ((count - 1) / buf.length)) := by
  have positive := List.length_pos.mpr nonempty
  induction k, count using emulateZeroSends.induct buf nonempty none with
  | case1 k count _ broken => cases broken
  | case2 k count more _ ih =>
    rw [emulateZeroSends, if_pos more, if_neg Option.noConfusion, ih]
    have full : (count - 1) / buf.length = (count - buf.length - 1) / buf.length + 1 := by
      rw [← Nat.add_div_right _ positive]; congr 1; omega
    have left : count - buf.length * ((count - 1) / buf.length) =
        count - buf.length - buf.length * ((count - buf.length - 1) / buf.length) := by
      rw [full, Nat.mul_add, Nat.mul_one]; omega
    rw [left, full]
    simp only [List.replicate_succ, List.cons_append]
  | case3 k count _ broken => cases broken
  | case4 k count fits _ =>
    have none : (count - 1) / buf.length = 0 := Nat.div_eq_of_lt (by omega)
    rw [emulateZeroSends, if_neg fits, if_neg Option.noConfusion, none]
    simp

section ZeroSends

variable (count : Nat)

/-- The last piece of `emulate_zero`'s body fits in the buffer. -/
theorem zeroSends_last_le :
    count - zeroBufferSize * ((count - 1) / zeroBufferSize) ≤ zeroBufferSize := by
  simp only [zeroBufferSize]; omega

/-- With no broken pipe, `emulate_zero`'s body is `(count - 1) / 131072` full buffers, then the
zeros that are left. -/
theorem zeroSends_shape :
    (emulateZeroSends zeroBuffer zeroBuffer_ne_nil none 0 count).1 =
      List.replicate ((count - 1) / zeroBufferSize) zeroBuffer ++
        [List.replicate (count - zeroBufferSize * ((count - 1) / zeroBufferSize)) 0] := by
  rw [emulateZeroSends_none, length_zeroBuffer, zeroBuffer, List.take_replicate,
    Nat.min_eq_left (zeroSends_last_le count)]

/-- Every piece of `emulate_zero`'s body is zeros, at most one buffer long. -/
theorem zeroSends_pieces :
    ∀ piece ∈ (emulateZeroSends zeroBuffer zeroBuffer_ne_nil none 0 count).1,
      piece.length ≤ zeroBufferSize ∧ ∀ byte ∈ piece, byte = 0 := by
  intro piece mem
  rw [zeroSends_shape, List.mem_append, List.mem_replicate, List.mem_singleton] at mem
  rcases mem with ⟨-, rfl⟩ | rfl
  · exact ⟨length_zeroBuffer.le, fun byte mem => List.eq_of_mem_replicate mem⟩
  · exact ⟨by simpa using zeroSends_last_le count, fun byte mem => List.eq_of_mem_replicate mem⟩

/-- The pieces of `emulate_zero`'s body add up to `count`. -/
theorem zeroSends_total :
    ((emulateZeroSends zeroBuffer zeroBuffer_ne_nil none 0 count).1.map List.length).sum =
      count := by
  have covered : zeroBufferSize * ((count - 1) / zeroBufferSize) ≤ count := by
    simp only [zeroBufferSize]; omega
  rw [zeroSends_shape]
  simp only [List.map_append, List.map_replicate, length_zeroBuffer, List.map_cons,
    List.length_replicate, List.map_nil, List.sum_append, List.sum_replicate, Nat.nsmul_eq_mul,
    List.sum_cons, List.sum_nil, Nat.mul_comm ((count - 1) / zeroBufferSize)]
  omega

/-- With no broken pipe, `emulate_zero`'s body is `count` zeros. -/
theorem flatten_zeroSends :
    (emulateZeroSends zeroBuffer zeroBuffer_ne_nil none 0 count).1.flatten =
      List.replicate count 0 := by
  refine List.eq_replicate_iff.mpr ⟨by rw [List.length_flatten, zeroSends_total], ?_⟩
  intro byte mem
  obtain ⟨piece, inBody, inPiece⟩ := List.mem_flatten.mp mem
  exact (zeroSends_pieces count piece inBody).2 byte inPiece

end ZeroSends

/-- **`emulate_zero`'s body is `count` zeros in pieces of at most 128 KiB.** With no broken pipe,
for every `count`: the `PUT` announces `count` bytes at `offset` (`Content-Length: count`,
`Content-Range: bytes offset-(offset + count - 1)/*`); its body is `(count - 1) / 131072` full
buffers and a final piece of `count - 131072 * ((count - 1) / 131072)` zeros, in `[1, 131072]`
when `count ≥ 1` and empty when `count = 0`; every piece is zeros, at most `131072` bytes, and
the pieces add up to `count`. -/
theorem emulateZero_request (flagFua : Nat) (h : Handle) (count offset flags : Nat) :
    let sends := (emulateZeroSends zeroBuffer zeroBuffer_ne_nil none 0 count).1
    let full := (count - 1) / zeroBufferSize
    (emulateZero flagFua none h count offset flags).request =
        .put (putTarget flagFua h flags) offset ((offset : Int) + count - 1) count sends ∧
      sends = List.replicate full zeroBuffer ++
        [List.replicate (count - zeroBufferSize * full) 0] ∧
      (1 ≤ count → 1 ≤ count - zeroBufferSize * full ∧
        count - zeroBufferSize * full ≤ zeroBufferSize) ∧
      (count = 0 → sends = [[]]) ∧
      (∀ piece ∈ sends, piece.length ≤ zeroBufferSize ∧ ∀ byte ∈ piece, byte = 0) ∧
      (sends.map List.length).sum = count := by
  intro sends full
  have lastPositive : 1 ≤ count → 1 ≤ count - zeroBufferSize * full := by
    simp only [full, zeroBufferSize]; omega
  refine ⟨rfl, zeroSends_shape count, fun positive => ⟨lastPositive positive,
    zeroSends_last_le count⟩, fun empty => ?_, zeroSends_pieces count, zeroSends_total count⟩
  simp [sends, zeroSends_shape, empty]

/-! ## `zero` -/

/-- A native zero's handling of the response. -/
def zeroReply (count offset : Nat) (r : Response) : Except Error Unit :=
  if r.status ≠ 200 then .error (requestFailed r (.couldNotZero offset count) r.read)
  else readRest r

/-- `zero(h, count, offset, flags)`: when `h['can_zero']`, a `PATCH` with `{"op": "zero",
"offset": offset, "size": count, "flush": flush}`; otherwise `emulate_zero`. -/
def zero (flagFua : Nat) (broken : Option Nat) (h : Handle) (count offset flags : Nat) :
    Exchange Unit :=
  if !h.canZero then emulateZero flagFua broken h count offset flags
  else ⟨.patch h.path (.zero offset count (fuaFlush flagFua h.canFlush flags)), zeroReply count offset⟩

/-- `flush`'s handling of each response. -/
def flushReply (r : Response) : Except Error Unit :=
  if r.status ≠ 200 then .error (requestFailed r .couldNotFlush r.read) else readRest r

/-- What `flush` does on each connection of the pool: `PATCH` with `{"op": "flush"}`. -/
def flushConnection (h : Handle) : Exchange Unit := ⟨.patch h.path .flush, flushReply⟩

/-! ## The other entry points and `@failing` -/

/-- `can_trim`: trimming is not supported. -/
def canTrim (_h : Handle) : Bool := false

/-- `can_flush`. -/
def canFlush (h : Handle) : Bool := h.canFlush

/-- `can_fua`: imageio's flush is what a FUA request needs. -/
def canFua (h : Handle) : Bool := h.canFlush

/-- `get_size`: the size from `params`, not asked of the server. -/
def getSize (params : Params) (_h : Handle) : Nat := params.diskSize

/-- `@failing`: the handle after a decorated entry point returned (`raised = false`) or raised
(`raised = true`). An exception sets `h['failed']` and propagates unchanged; a normal return
leaves the handle as it was. -/
def failing (h : Handle) (raised : Bool) : Handle :=
  if raised then { h with failed := true } else h

end RhvUpload
