/-
**`pread` and its fill loop.**

`pread(h, buf, offset, flags)` sends a ranged `GET`, checks the status (`206`) and the
`Content-Length` (the buffer's size), then fills the caller's buffer in a loop:

```
got = 0
while got < count:
    n = r.readinto(view[got:])
    if n == 0:
        request_failed(r, "short read ...")
    got += n
```

`readinto` writes at most what the view `view[got:]` has room for, so its `k`-th result is the
`k`-th chunk the transport delivers cut to `count - got` bytes (`fillLoop`); past the last chunk
it returns `0`. Quantifying over every list of chunks is quantifying over every sequence of
`readinto` results.

* `fillLoop_ok`, `fillLoop_error` — the loop, from a sound state (`Fill.Sound`), ends either
  with the buffer full and equal to the concatenation of what it read, or at a read of `0` bytes
  with `got < count`; in both cases the buffer keeps its size.
* `fillLoop_reads` — what it read is what the transport delivered: it ends normally exactly
  when the bytes delivered before the first empty read (`delivered`) fill the buffer, having
  read the body's first bytes, and otherwise it has read exactly the delivered bytes.
* **`fillLoop_contract`** — from the caller's buffer: a normal exit exactly when the delivered
  bytes fill it, and then `got = count` and the buffer is the body's first `count` bytes; else
  an exception at a call that returned `0`, with the delivered bytes in front of the buffer's
  untouched rest; at most `count + 1` calls and no write outside the buffer either way.
* `pread_of_fill` — `pread` returns the filled buffer exactly when its checks and the loop pass.
-/

import RhvUpload.Wire

namespace RhvUpload

/-! ## The fill loop -/

/-- The state of `pread`'s fill loop: `got` bytes read into `buf`, and what each `readinto`
call has returned so far. -/
structure Fill where
  got : Nat
  buf : List UInt8
  reads : List (List UInt8)
  deriving DecidableEq, Repr

/-- One `readinto` call that returned `data`: written at `got`, and `got += n`. -/
def Fill.record (s : Fill) (data : List UInt8) : Fill :=
  ⟨s.got + data.length, overwrite s.buf s.got data, s.reads ++ [data]⟩

/-- `pread`'s fill loop on a buffer of `count` bytes, with `chunks` the chunks the transport
still has. It ends `.ok` when `got` reaches `count`, or `.error` at a call that returned `0`. -/
def fillLoop (count : Nat) (s : Fill) : List (List UInt8) → Except Fill Fill
  | [] => if s.got < count then .error (s.record []) else .ok s
  | chunk :: rest =>
    if s.got < count then
      let data := chunk.take (count - s.got)
      if data = [] then .error (s.record []) else fillLoop count (s.record data) rest
    else .ok s

/-- The loop's invariant: `got` counts the bytes read so far, which are the buffer's first `got`
bytes; the buffer keeps its `count` bytes; no call so far returned `0`. -/
structure Fill.Sound (count : Nat) (s : Fill) : Prop where
  got_eq : s.got = s.reads.flatten.length
  got_le : s.got ≤ count
  length_buf : s.buf.length = count
  take_buf : s.buf.take s.got = s.reads.flatten
  nonempty : [] ∉ s.reads

section Loop

variable {count : Nat} {s : Fill}

/-- The loop starts sound on the caller's buffer. -/
theorem Fill.sound_start (buf : List UInt8) : Fill.Sound buf.length ⟨0, buf, []⟩ :=
  ⟨rfl, Nat.zero_le _, rfl, rfl, List.not_mem_nil _⟩

/-- **One read keeps the invariant**: a nonempty chunk that fits in the view. -/
theorem Fill.Sound.record (sound : Fill.Sound count s) {data : List UInt8} (filled : data ≠ [])
    (fits : data.length ≤ count - s.got) : Fill.Sound count (s.record data) where
  got_eq := by simp [Fill.record, sound.got_eq]
  got_le := by simp only [Fill.record]; have := sound.got_le; omega
  length_buf := by
    rw [Fill.record, length_overwrite (by have := sound.got_le; have := sound.length_buf; omega)]
    exact sound.length_buf
  take_buf := by
    rw [Fill.record, take_overwrite (by have := sound.got_le; have := sound.length_buf; omega),
      sound.take_buf]
    simp
  nonempty := by
    simp only [Fill.record, List.mem_append, List.mem_singleton, not_or]
    exact ⟨sound.nonempty, filled.symm⟩

/-- A full sound buffer holds exactly the bytes read. -/
theorem Fill.Sound.buf_eq (sound : Fill.Sound count s) (full : s.got = count) :
    s.buf = s.reads.flatten := by
  rw [← sound.take_buf, full, ← sound.length_buf, List.take_length]

/-- A read of `0` bytes changes neither `got` nor the buffer. -/
@[simp] theorem Fill.record_nil_got : (s.record []).got = s.got := by simp [Fill.record]

@[simp] theorem Fill.record_nil_buf : (s.record []).buf = s.buf := by
  simp [Fill.record, overwrite]

@[simp] theorem Fill.record_reads (data : List UInt8) :
    (s.record data).reads = s.reads ++ [data] := rfl

/-- Nonempty reads are at most as many as the bytes they carry. -/
theorem length_le_length_flatten :
    ∀ {reads : List (List UInt8)}, [] ∉ reads → reads.length ≤ reads.flatten.length
  | [], _ => le_refl 0
  | data :: rest, nonempty => by
    have head : data ≠ [] := fun empty => nonempty (empty ▸ List.mem_cons_self _ _)
    have tail := length_le_length_flatten fun mem => nonempty (List.mem_cons_of_mem _ mem)
    have positive := List.length_pos.mpr head
    simp only [List.length_cons, List.flatten_cons, List.length_append]
    omega

/-- **A normal exit**: from a sound state the loop ends sound, with the buffer full. -/
theorem fillLoop_ok :
    ∀ {chunks : List (List UInt8)} {s final : Fill}, Fill.Sound count s →
      fillLoop count s chunks = .ok final → Fill.Sound count final ∧ final.got = count
  | [], s, final, sound, run => by
    unfold fillLoop at run
    split at run
    · cases run
    · cases run
      exact ⟨sound, by have := sound.got_le; omega⟩
  | chunk :: rest, s, final, sound, run => by
    unfold fillLoop at run
    split at run
    · dsimp only at run
      split at run
      · cases run
      · rename_i filled
        exact fillLoop_ok (sound.record filled (List.length_take_le _ _)) run
    · cases run
      exact ⟨sound, by have := sound.got_le; omega⟩

/-- **A short read**: from a sound state, an exception comes from a sound state `t` with
`got < count`, at a call that returned `0`. -/
theorem fillLoop_error :
    ∀ {chunks : List (List UInt8)} {s final : Fill}, Fill.Sound count s →
      fillLoop count s chunks = .error final →
        ∃ t, Fill.Sound count t ∧ t.got < count ∧ final = t.record []
  | [], s, final, sound, run => by
    unfold fillLoop at run
    split at run
    · cases run
      exact ⟨s, sound, by assumption, rfl⟩
    · cases run
  | chunk :: rest, s, final, sound, run => by
    unfold fillLoop at run
    split at run
    · dsimp only at run
      split at run
      · cases run
        exact ⟨s, sound, by assumption, rfl⟩
      · rename_i filled
        exact fillLoop_error (sound.record filled (List.length_take_le _ _)) run
    · cases run

/-- **A body delivered exactly fills the buffer**: when the chunks are nonempty and carry the
`count - got` bytes still missing, the loop ends normally, having read every chunk. -/
theorem fillLoop_exact :
    ∀ {chunks : List (List UInt8)} {s : Fill}, Fill.Sound count s → [] ∉ chunks →
      s.got + chunks.flatten.length = count →
        ∃ final, fillLoop count s chunks = .ok final ∧ final.reads = s.reads ++ chunks
  | [], s, _, _, exact => ⟨s, by simp [fillLoop, ← exact], by simp⟩
  | chunk :: rest, s, sound, nonempty, exact => by
    have filled : chunk ≠ [] := fun empty => nonempty (empty ▸ List.mem_cons_self _ _)
    have positive := List.length_pos.mpr filled
    simp only [List.flatten_cons, List.length_append] at exact
    have whole : chunk.take (count - s.got) = chunk := List.take_of_length_le (by omega)
    obtain ⟨final, run, reads⟩ := fillLoop_exact (sound.record filled (by omega))
      (fun mem => nonempty (List.mem_cons_of_mem _ mem)) (by simp only [Fill.record]; omega)
    refine ⟨final, ?_, by simp [reads]⟩
    rw [fillLoop, if_pos (by omega)]
    simp only [whole, if_neg filled, run]

/-- The bytes the transport delivers before its first empty read: all that `readinto` can
read before it returns `0`. -/
def delivered (chunks : List (List UInt8)) : List UInt8 :=
  (chunks.takeWhile (· ≠ [])).flatten

@[simp] theorem delivered_nil : delivered [] = [] := rfl

theorem delivered_cons {chunk : List UInt8} (rest : List (List UInt8)) :
    delivered (chunk :: rest) = if chunk = [] then [] else chunk ++ delivered rest := by
  by_cases empty : chunk = [] <;> simp [delivered, List.takeWhile_cons, empty]

/-- **The loop reads what the transport delivers.** From a sound state: it ends normally exactly
when the bytes delivered before the first empty read fill the rest of the buffer, having read
the body's next `count - got` bytes; otherwise it ends at a read of `0` bytes, having read all
the delivered bytes and left the buffer past them as it was. -/
theorem fillLoop_reads :
    ∀ {chunks : List (List UInt8)} {s : Fill}, Fill.Sound count s →
      match fillLoop count s chunks with
      | .ok t => count ≤ s.got + (delivered chunks).length ∧
          t.reads.flatten = s.reads.flatten ++ chunks.flatten.take (count - s.got)
      | .error t => s.got + (delivered chunks).length < count ∧
          t.got = s.got + (delivered chunks).length ∧
          t.reads.flatten = s.reads.flatten ++ delivered chunks ∧ t.buf.drop t.got = s.buf.drop t.got
  | [], s, sound => by
    by_cases room : s.got < count
    · rw [fillLoop, if_pos room]
      exact ⟨by simpa, by simp, by simp, by simp⟩
    · rw [fillLoop, if_neg room]
      exact ⟨by omega, by simp⟩
  | chunk :: rest, s, sound => by
    by_cases room : s.got < count
    · by_cases empty : chunk = []
      · rw [fillLoop, if_pos room, empty]
        simp [delivered_cons, room]
      have filled : chunk.take (count - s.got) ≠ [] := by
        simp [List.take_eq_nil_iff, empty]; omega
      rw [fillLoop, if_pos room]
      simp only [if_neg filled]
      have ih := @fillLoop_reads rest _ (sound.record filled (List.length_take_le _ _))
      have fits : s.got ≤ s.buf.length := sound.length_buf ▸ sound.got_le
      rw [delivered_cons, if_neg empty]
      split at ih
      · -- the buffer fills: the last chunk read may have been cut
        obtain ⟨enough, reads⟩ := ih
        refine ⟨?_, ?_⟩
        · simp only [Fill.record, List.length_append, List.length_take] at enough ⊢
          omega
        · rw [reads]
          simp only [Fill.record, List.flatten_append, List.flatten_cons, List.flatten_nil,
            List.append_nil, List.take_append_eq_append_take, List.length_take, List.append_assoc]
          congr 3
          omega
      · -- a short read: every chunk before it was read whole
        obtain ⟨short, got, reads, untouched⟩ := ih
        have whole : chunk.take (count - s.got) = chunk := by
          apply List.take_of_length_le
          by_contra long
          simp only [Fill.record, List.length_take] at short
          omega
        rw [whole] at short got reads untouched
        simp only [Fill.record, List.length_append] at short got reads untouched ⊢
        refine ⟨by omega, by omega, by simp [reads], ?_⟩
        rw [untouched, drop_overwrite fits (by omega)]
    · rw [fillLoop, if_neg room]
      exact ⟨by omega, by simp; omega⟩

end Loop

/-- **`pread`'s fill loop meets its contract.** On the caller's buffer (`count = len(buf)`) and
for every sequence of chunks the transport delivers: the loop exits normally exactly when the
bytes delivered before the first empty read fill the buffer, and then `got = count`, the buffer
is the body's first `count` bytes, which are the results of its calls, none `0`; otherwise it
raises at a call that returned `0` with `got < count`, having read exactly the delivered bytes,
which stand in front of the rest of the caller's buffer. Either way it made at most `count + 1`
calls and the buffer keeps its `count` bytes. -/
theorem fillLoop_contract (buf : List UInt8) (chunks : List (List UInt8)) :
    match fillLoop buf.length ⟨0, buf, []⟩ chunks with
    | .ok s => buf.length ≤ (delivered chunks).length ∧ s.got = buf.length ∧
        s.buf = chunks.flatten.take buf.length ∧ s.buf = s.reads.flatten ∧
        s.buf.length = buf.length ∧ [] ∉ s.reads ∧ s.reads.length ≤ buf.length + 1
    | .error s => (delivered chunks).length < buf.length ∧ s.got = (delivered chunks).length ∧
        s.buf = delivered chunks ++ buf.drop s.got ∧ s.buf.length = buf.length ∧
        s.reads.getLast? = some [] ∧ s.reads.length ≤ buf.length + 1 := by
  have reads := @fillLoop_reads _ chunks _ (Fill.sound_start buf)
  split
  · rename_i s run
    rw [run] at reads
    obtain ⟨enough, read⟩ := reads
    obtain ⟨sound, full⟩ := fillLoop_ok (Fill.sound_start buf) run
    have calls := length_le_length_flatten sound.nonempty
    rw [← sound.got_eq] at calls
    have filled := sound.buf_eq full
    exact ⟨by simpa using enough, full, by simpa [filled] using read, filled, sound.length_buf,
      sound.nonempty, by omega⟩
  · rename_i s run
    rw [run] at reads
    obtain ⟨short, got, read, untouched⟩ := reads
    obtain ⟨t, sound, -, rfl⟩ := fillLoop_error (Fill.sound_start buf) run
    have calls := length_le_length_flatten sound.nonempty
    rw [← sound.got_eq] at calls
    simp only [Fill.record_nil_got, Fill.record_nil_buf, Fill.record_reads, List.flatten_append,
      List.flatten_singleton, List.flatten_nil, List.append_nil, List.nil_append, zero_add]
      at short got read untouched ⊢
    refine ⟨short, got, ?_, sound.length_buf, by simp, by simp; omega⟩
    rw [← List.take_append_drop t.got t.buf, sound.take_buf, read, untouched]

/-! ## `pread` -/

/-- `pread`'s handling of the response: the status, the `Content-Length` (`int(None)` raises
`TypeError` when the header is missing), then the fill loop. After a short read the `readinto`
that returned `0` has closed the response, so `request_failed`'s `r.read()` returns `b""`. -/
def preadReply (buf : List UInt8) (offset : Nat) (r : Response) : Except Error (List UInt8) :=
  let count := buf.length
  if r.status ≠ 206 then .error (requestFailed r (.couldNotRead offset count) r.read) else
  match r.contentLength with
  | none => .error (.raised "TypeError")
  | some contentLength =>
    if contentLength ≠ count then
      .error (requestFailed r (.unexpectedContentLength offset count contentLength) r.read)
    else
      match fillLoop count ⟨0, buf, []⟩ r.body with
      | .ok s => .ok s.buf
      | .error s => .error (requestFailed r (.shortRead offset count s.got) (.ok []))

/-- `pread(h, buf, offset, flags)`: `GET` with `Range: bytes=offset-(offset + count - 1)`,
then `preadReply`. -/
def pread (h : Handle) (buf : List UInt8) (offset _flags : Nat) : Exchange (List UInt8) :=
  ⟨.get h.path offset ((offset : Int) + buf.length - 1), preadReply buf offset⟩

/-- **`pread` never returns a partly filled buffer**: it returns normally exactly when the
status is `206`, the `Content-Length` is the buffer's size and the fill loop ends normally, and
then it returns the loop's buffer. -/
theorem pread_of_fill {h : Handle} {buf : List UInt8} {offset flags : Nat} {r : Response}
    {out : List UInt8} :
    (pread h buf offset flags).reply r = .ok out ↔ r.status = 206 ∧
      r.contentLength = some buf.length ∧
      ∃ s, fillLoop buf.length ⟨0, buf, []⟩ r.body = .ok s ∧ s.buf = out := by
  show preadReply buf offset r = .ok out ↔ _
  unfold preadReply
  by_cases status : r.status = 206
  · cases length : r.contentLength with
    | none => simp [status, length]
    | some contentLength =>
      by_cases same : contentLength = buf.length
      · subst same
        cases run : fillLoop buf.length ⟨0, buf, []⟩ r.body <;> simp [status, length, run]
      · simp [status, length, same]
  · simp [status]

end RhvUpload
