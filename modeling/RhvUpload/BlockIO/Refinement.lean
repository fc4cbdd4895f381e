/-
**The plugin over the wire refines a block device.**

A sequential run of `pread`, `pwrite` and `zero` calls goes to the server of the wire contract
(`serve`), whose responses reach the plugin through a `Link` that may cut each body into any
nonempty pieces. The same calls on a block device (`Op.onDevice`) write `buf` or zeros over
`[offset, offset + count)` and read `[offset, offset + count)`.

* `Op.overWire_eq` — **one step**: a call with `count ≥ 1` inside the disk leaves the server's
  image equal to the device after the call, and returns the device's answer. This is where the
  inclusive range ends (`offset + count - 1`), the emulated zero body (`flatten_zeroSends`) and
  the fill loop (`fillLoop_exact`) meet.
* **`runOps_refines`** — **the whole run**, by induction over the calls: the server's final
  image is the device's, and every call returns normally with the device's answer (each `pread`
  the device's bytes). Both zero paths are covered: `zero` takes the native one exactly when
  `h['can_zero']`.
-/

import RhvUpload.BlockIO.Read
import RhvUpload.BlockIO.Write

namespace RhvUpload

/-! ## The link and the calls -/

/-- How the connection delivers response bodies: the `k`-th response's body arrives as the
chunks `split k body`, in order, none empty, and nothing else. -/
structure Link where
  split : Nat → List UInt8 → List (List UInt8)
  flatten_split : ∀ k body, (split k body).flatten = body
  nonempty : ∀ k body, [] ∉ split k body

/-- The `k`-th response as the plugin reads it through the link. -/
def Link.deliver (link : Link) (k : Nat) (r : Response) : Response :=
  { r with body := link.split k r.body.flatten }

/-- A link that delivers every body in one piece. -/
def Link.whole : Link where
  split _ body := if body = [] then [] else [body]
  flatten_split _ body := by by_cases empty : body = [] <;> simp [empty]
  nonempty _ body := by by_cases empty : body = [] <;> simp [empty, Ne.symm]

/-- A block call nbdkit makes, with its arguments in the source's order. -/
inductive Op
  | pread (buf : List UInt8) (offset flags : Nat)
  | pwrite (buf : List UInt8) (offset flags : Nat)
  | zero (count offset flags : Nat)
  deriving DecidableEq, Repr

/-- The number of bytes a call covers. -/
def Op.count : Op → Nat
  | .pread buf _ _ => buf.length
  | .pwrite buf _ _ => buf.length
  | .zero count _ _ => count

/-- The offset a call starts at. -/
def Op.offset : Op → Nat
  | .pread _ offset _ => offset
  | .pwrite _ offset _ => offset
  | .zero _ offset _ => offset

/-- A call on a disk of `size` bytes covers at least one byte, all inside the disk. -/
def Op.Valid (size : Nat) (op : Op) : Prop := 1 ≤ op.count ∧ op.offset + op.count ≤ size

instance (size : Nat) (op : Op) : Decidable (op.Valid size) :=
  inferInstanceAs (Decidable (_ ∧ _))

/-- The call as the plugin makes it: the exchange of its entry point, with no broken pipe.
A `pread` answers its buffer; the others answer nothing. -/
def Op.exchange (flagFua : Nat) (h : Handle) : Op → Exchange (Option (List UInt8))
  | .pread buf offset flags => (RhvUpload.pread h buf offset flags).map some
  | .pwrite buf offset flags =>
    (RhvUpload.pwrite flagFua false h buf offset flags).map fun _ => none
  | .zero count offset flags => (RhvUpload.zero flagFua none h count offset flags).map fun _ => none

/-- The call on the block device it stands for: the device after it, and its answer. -/
def Op.onDevice (device : List UInt8) : Op → List UInt8 × Option (List UInt8)
  | .pread buf offset _ => (device, some ((device.drop offset).take buf.length))
  | .pwrite buf offset _ => (overwrite device offset buf, none)
  | .zero count offset _ => (overwrite device offset (List.replicate count 0), none)

/-- The `k`-th call of a run, against the server holding `disk`: the server's new image, and
what the call returns. -/
def Op.overWire (flagFua : Nat) (link : Link) (h : Handle) (k : Nat) (disk : List UInt8)
    (op : Op) : List UInt8 × Except Error (Option (List UInt8)) :=
  let e := op.exchange flagFua h
  let served := serve disk e.request
  (served.1, e.reply (link.deliver k served.2))

/-- A sequential run of calls from the `k`-th on: the server's final image and each call's
result. -/
def runOps (flagFua : Nat) (link : Link) (h : Handle) :
    Nat → List UInt8 → List Op → List UInt8 × List (Except Error (Option (List UInt8)))
  | _, disk, [] => (disk, [])
  | k, disk, op :: ops =>
    let step := op.overWire flagFua link h k disk
    let rest := runOps flagFua link h (k + 1) step.1 ops
    (rest.1, step.2 :: rest.2)

/-- The same calls on the block device: its final contents and each call's answer. -/
def onDevice : List UInt8 → List Op → List UInt8 × List (Option (List UInt8))
  | device, [] => (device, [])
  | device, op :: ops =>
    let step := op.onDevice device
    let rest := onDevice step.1 ops
    (rest.1, step.2 :: rest.2)

/-! ## One step -/

section Step

variable (flagFua : Nat) (link : Link) (h : Handle) (k : Nat) {disk : List UInt8}

/-- The link delivers the server's empty `200` answer as it is. -/
theorem deliver_ok200 : (link.deliver k (answer 200 "OK" [])).status = 200 := rfl

/-- `r.read()` returns the whole body of every answer of the server the link delivers. -/
@[simp] theorem read_deliver_answer (status : Nat) (reason : String) (body : List (List UInt8)) :
    (link.deliver k (answer status reason body)).read = .ok body.flatten := by
  simp [Response.read, Link.deliver, answer, link.flatten_split]

/-- The inclusive end `offset + count - 1` of a range of `count ≥ 1` bytes gives back `count`. -/
theorem range_length {offset count : Nat} (positive : 1 ≤ count) :
    ((offset : Int) + count - 1 - offset + 1).toNat = count := by omega

/-- A `pread` inside the disk returns the disk's bytes. -/
theorem pread_overWire {buf : List UInt8} {offset flags : Nat} (positive : 1 ≤ buf.length)
    (inside : offset + buf.length ≤ disk.length) :
    (Op.pread buf offset flags).overWire flagFua link h k disk =
      (disk, .ok (some ((disk.drop offset).take buf.length))) := by
  set bytes := (disk.drop offset).take buf.length
  have sized : bytes.length = buf.length := by simp [bytes]; omega
  obtain ⟨final, run, reads⟩ := fillLoop_exact (Fill.sound_start buf)
    (link.nonempty k bytes) (by simp [link.flatten_split, sized])
  obtain ⟨sound, full⟩ := fillLoop_ok (Fill.sound_start buf) run
  have filled : final.buf = bytes := by
    rw [sound.buf_eq full, reads]
    simp [link.flatten_split]
  simp only [Op.overWire, Op.exchange, Exchange.map_request, Exchange.map_reply, pread, serve,
    range_length positive, Int.toNat_ofNat, Link.deliver, answer, List.flatten_cons,
    List.flatten_nil, List.append_nil]
  show (disk, (preadReply buf offset ⟨206, _, some bytes.length, link.split k bytes⟩).map some) = _
  simp [preadReply, sized, run, filled, bytes, Except.map]

/-- **One step of the refinement**: a call that covers at least one byte, all inside the disk,
leaves the server's image equal to the device after the call and returns the device's answer. -/
theorem Op.overWire_eq {op : Op} (valid : op.Valid disk.length) :
    op.overWire flagFua link h k disk = ((op.onDevice disk).1, .ok (op.onDevice disk).2) := by
  obtain ⟨positive, inside⟩ := valid
  cases op with
  | pread buf offset flags => exact pread_overWire flagFua link h k positive inside
  | pwrite buf offset flags =>
    simp [Op.overWire, Op.exchange, RhvUpload.pwrite, serve, Op.onDevice, pwriteReply, readRest,
      deliver_ok200, Except.map]
  | zero count offset flags =>
    cases canZero : h.canZero
    · simp [Op.overWire, Op.exchange, RhvUpload.zero, canZero, emulateZero, serve,
        flatten_zeroSends, Op.onDevice, emulateZeroReply, readRest, deliver_ok200, Except.map]
    · simp [Op.overWire, Op.exchange, RhvUpload.zero, canZero, serve, Op.onDevice, zeroReply,
        readRest, deliver_ok200, Except.map]

/-- The device keeps its size under a call inside it. -/
theorem Op.length_onDevice {op : Op} (valid : op.Valid disk.length) :
    (op.onDevice disk).1.length = disk.length := by
  obtain ⟨-, inside⟩ := valid
  cases op <;> simp only [Op.onDevice] <;>
    exact length_overwrite (by simpa [Op.offset, Op.count] using inside)

end Step

/-! ## The whole run -/

/-- **The plugin over the wire refines the block device.** For every disk image, every link and
every sequence of `pread`, `pwrite` and `zero` calls that each cover at least one byte inside the
disk, the server's final image is the device's final contents, and every call returns normally
with the device's answer: each `pread` the device's bytes at `[offset, offset + count)` at that
point of the run. -/
theorem runOps_refines (flagFua : Nat) (link : Link) (h : Handle) (disk : List UInt8)
    (ops : List Op) (valid : ∀ op ∈ ops, op.Valid disk.length) :
    (runOps flagFua link h 0 disk ops).1 = (onDevice disk ops).1 ∧
      (runOps flagFua link h 0 disk ops).2 = (onDevice disk ops).2.map .ok := by
  suffices run : ∀ (ops : List Op) (k : Nat) (disk : List UInt8),
      (∀ op ∈ ops, op.Valid disk.length) →
        runOps flagFua link h k disk ops = ((onDevice disk ops).1, (onDevice disk ops).2.map .ok) by
    rw [run ops 0 disk valid]
    exact ⟨rfl, rfl⟩
  intro ops
  induction ops with
  | nil => intro k disk _; rfl
  | cons op ops ih =>
    intro k disk valid
    have here := valid op (List.mem_cons_self _ _)
    have later : ∀ op' ∈ ops, op'.Valid (op.onDevice disk).1.length := by
      rw [Op.length_onDevice here]
      exact fun op' mem => valid op' (List.mem_cons_of_mem _ mem)
    simp only [runOps, onDevice, Op.overWire_eq flagFua link h k here, ih (k + 1) _ later,
      List.map_cons]

/-- The refinement on a four-byte disk: a `pwrite`, a `pread` and an emulated `zero`. -/
theorem runOps_refines_four :
    (∀ op ∈ [Op.pwrite [9, 9] 1 0, Op.pread [0, 0, 0] 0 0, Op.zero 2 2 0], op.Valid 4) ∧
      (runOps 2 Link.whole ⟨false, false, "d", ⟨"t", none, ⟨"https", "h", none, "/p"⟩⟩, false, 1,
          "/p"⟩ 0 [1, 2, 3, 4] [Op.pwrite [9, 9] 1 0, Op.pread [0, 0, 0] 0 0, Op.zero 2 2 0]).1 =
        (onDevice [1, 2, 3, 4] [Op.pwrite [9, 9] 1 0, Op.pread [0, 0, 0] 0 0, Op.zero 2 2 0]).1 ∧
      (runOps 2 Link.whole ⟨false, false, "d", ⟨"t", none, ⟨"https", "h", none, "/p"⟩⟩, false, 1,
          "/p"⟩ 0 [1, 2, 3, 4] [Op.pwrite [9, 9] 1 0, Op.pread [0, 0, 0] 0 0, Op.zero 2 2 0]).2 =
        (onDevice [1, 2, 3, 4] [Op.pwrite [9, 9] 1 0, Op.pread [0, 0, 0] 0 0,
          Op.zero 2 2 0]).2.map .ok :=
  ⟨by decide, runOps_refines 2 Link.whole _ [1, 2, 3, 4] _ (by decide)⟩

end RhvUpload
