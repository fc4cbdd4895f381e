/-
**Parallel block calls linearize: the server's image is a block device run in the order it
handled the requests.**

nbdkit may run any number of `pread`, `pwrite`, `zero` and `flush` calls on one handle at once.
Each block call makes its one exchange while it holds a connection, and the server handles one
request at a time, so the order in which it handled them (`State.served`) is an order of the
calls themselves. `Linearized` says the server and the calls agree with the block device run in
that order:

* the server's image is the device after the handled operations (`image`);
* the replies, read in that order, are the device's answers (`replies`): every `pread` that made
  its exchange got the device's bytes at its place in the order, and no exchange raised;
* no request was handled twice (`once`), and a block call that returned normally had its request
  handled (`returned`).

* `Linearized.exchange` — **one exchange**: the server handles one more operation, which is the
  device's next step (`Op.overWire_eq`, the one step of the sequential refinement).
* `Linearized.pool` — a pool action changes neither the image nor the replies, and a block call
  leaves its body normally only after its exchange.
* **`calls_linearize`** — every state that any interleaving of the calls reaches is linearized.
-/

import RhvUpload.Parallel.State

namespace RhvUpload

/-! ## The block device over a run in two parts -/

/-- The device over `ops ++ more` is the device over `ops`, then over `more`. -/
theorem onDevice_append (device : List UInt8) (ops more : List Op) :
    onDevice device (ops ++ more) =
      ((onDevice (onDevice device ops).1 more).1,
        (onDevice device ops).2 ++ (onDevice (onDevice device ops).1 more).2) := by
  induction ops generalizing device with
  | nil => rfl
  | cons op ops ih =>
    rw [List.cons_append]
    simp only [onDevice]
    rw [ih]
    rfl

/-- Calls inside the device keep its size. -/
theorem length_onDevice : ∀ {device : List UInt8} {ops : List Op},
    (∀ op ∈ ops, op.Valid device.length) → (onDevice device ops).1.length = device.length
  | _, [], _ => rfl
  | device, op :: ops, valid => by
    have here := valid op (List.mem_cons_self _ _)
    have later : ∀ op' ∈ ops, op'.Valid (op.onDevice device).1.length := by
      rw [Op.length_onDevice here]
      exact fun op' mem => valid op' (List.mem_cons_of_mem _ mem)
    simp only [onDevice]
    rw [length_onDevice later, Op.length_onDevice here]

namespace Parallel

/-! ## The linearization -/

/-- The reply of call `i`, once it has made its exchange. -/
def State.replyOf (s : State) (i : Nat) : Option Reply := s.replies[i]?.join

/-- A call is answered exactly when its reply is a value. -/
theorem State.answered_iff {s : State} {i : Nat} :
    s.answered i = true ↔ ∃ answer, s.replyOf i = some (.ok answer) := by
  rcases found : s.replies[i]? with _ | _ | e | answer <;>
    simp [State.answered, State.replyOf, found]

/-- The operations of the block requests the server handled, in order. -/
def State.ops (s : State) : List Op := s.served.map Prod.snd

/-- **The linearization** of a state of the calls `jobs`, against the server that started with
`disk`. -/
structure Linearized (jobs : List Job) (disk : List UInt8) (s : State) : Prop where
  /-- The server's image is the block device after the handled operations, in the order
  handled. -/
  image : s.disk = (onDevice disk s.ops).1
  /-- The replies of the calls, read in that order, are the device's answers. -/
  replies : s.served.map (fun request => s.replyOf request.1) =
    (onDevice disk s.ops).2.map fun answer => some (.ok answer)
  /-- No call's request was handled twice. -/
  once : (s.served.map Prod.fst).Nodup
  /-- Each handled request is the block call of the call that sent it. -/
  job : ∀ i op, (i, op) ∈ s.served → jobs[i]? = some (.block op)
  /-- A call has a reply only once the server handled its request. -/
  recorded : ∀ i reply, s.replyOf i = some reply → i ∈ s.served.map Prod.fst
  /-- Every block call past its `with` body without raising, or returned normally, had its
  request handled. -/
  returned : ∀ i call, s.pool.calls[i]? = some call → call.entry.access = .context →
    (call.pc = .done false ∨ ∃ rest, call.pc = .unlocking rest false) →
      i ∈ s.served.map Prod.fst
  /-- There is a reply slot for every call. -/
  length_replies : s.replies.length = jobs.length

/-- A pool move that ends past a call's body without raising starts there, or leaves the body of
`http_context` by `finish`, or is a call that does not touch the pool, or a flush. -/
theorem returns_of_moves {N : Nat} {entry : Pool.Entry} {idle : List Nat}
    {pc : Pool.Pc} {next : Pool.Pc × List Nat × Pool.Effect} (moves : pc.Moves N entry idle next)
    (ends : next.1 = .done false ∨ ∃ rest, next.1 = .unlocking rest false) :
    (pc = .done false ∨ ∃ rest, pc = .unlocking rest false) ∨
      (∃ http, pc = .holding http ∧ next.1 = .unlocking [http] false) ∨
      entry.access = .plain ∨ ∃ locked sent, pc = .flushing locked sent := by
  cases moves <;> simp_all

section Linearize

variable {flagFua : Nat} {link : Link} {jobs : List Job} {disk : List UInt8} {s s' : State}
  {i : Nat}

@[simp] theorem served_ofEffect (effect : Pool.Effect) :
    (Event.ofEffect i effect).filterMap Event.block? = [] := by
  cases effect <;> rfl

/-- A call whose request was handled has an answer, not an exception. -/
theorem Linearized.answered (lin : Linearized jobs disk s) {op : Op} (served : (i, op) ∈ s.served) :
    ∃ answer, s.replyOf i = some (.ok answer) := by
  have mem := List.mem_map_of_mem (fun request => s.replyOf request.1) served
  rw [lin.replies] at mem
  obtain ⟨answer, -, same⟩ := List.mem_map.mp mem
  exact ⟨answer, same.symm⟩

/-- **A pool action keeps the linearization**: it changes neither the image nor the replies, and
a block call leaves its body normally only after its exchange. -/
theorem Linearized.pool {a : Pool.Action} (lin : Linearized jobs disk s) (poolInv : Pool.Inv s.pool)
    (stepped : step flagFua link jobs s i (.pool a) = some s') : Linearized jobs disk s' := by
  obtain ⟨call, next, found, -, moves, guard, rfl⟩ := step_pool_inv stepped
  have served : (⟨s.pool.apply i call next, s.disk, s.replies,
      s.log ++ Event.ofEffect i next.2.2⟩ : State).served = s.served := by
    simp [State.served, List.filterMap_append]
  refine ⟨by rw [State.ops, served]; exact lin.image, by rw [State.ops, served]; exact lin.replies,
    by rw [served]; exact lin.once, by rw [served]; exact lin.job,
    by rw [served]; exact lin.recorded, ?_, lin.length_replies⟩
  intro j after foundAfter context ended
  rw [served]
  change (s.pool.calls.set i { call with pc := next.1 })[j]? = some after at foundAfter
  by_cases same : j = i
  · subst same
    rw [List.getElem?_set_self (List.getElem?_eq_some.mp found).1, Option.some.injEq] at foundAfter
    subst foundAfter
    rcases returns_of_moves moves ended with
      before | ⟨http, holding, finished⟩ | plain | ⟨locked, sent, flushing⟩
    · exact lin.returned j call found context before
    · obtain ⟨answer, replied⟩ := State.answered_iff.mp (guard http holding finished)
      exact lin.recorded j _ replied
    · simp_all
    · have ok := poolInv.logged j call found
      simp_all [Pool.SentOk]
  · rw [List.getElem?_set_ne (Ne.symm same)] at foundAfter
    exact lin.returned j after foundAfter context ended

/-- The calls start linearized: nothing handled, no reply. -/
theorem Linearized.init (h : Handle) : Linearized jobs disk (State.init h jobs disk) where
  image := rfl
  replies := rfl
  once := List.nodup_nil
  job i op served := by simp [State.init, State.served] at served
  recorded i reply replied := by
    simp only [State.init, State.replyOf, List.getElem?_replicate] at replied
    split at replied <;> simp at replied
  returned i call found context ended := by
    simp only [State.init, Pool.State.init, List.getElem?_map, Option.map_eq_some'] at found
    obtain ⟨entry, -, rfl⟩ := found
    cases entry <;> simp [Pool.Entry.start] at ended
  length_replies := by simp [State.init]

/-- **Once every call has returned normally, the server has handled exactly the block calls'
requests.** -/
theorem Linearized.served_iff {h : Handle} (lin : Linearized jobs disk s)
    (reach : Reachable flagFua link jobs h disk s)
    (normal : ∀ call ∈ s.pool.calls, call.pc = .done false) (i : Nat) (op : Op) :
    (i, op) ∈ s.served ↔ jobs[i]? = some (.block op) := by
  refine ⟨lin.job i op, fun job => ?_⟩
  -- the block call returned normally, so the server handled its request
  obtain ⟨call, found, entry⟩ : ∃ call, s.pool.calls[i]? = some call ∧
      call.entry = (Job.block op).entry := by
    have entries := congrArg (·[i]?) reach.pool.frame.2
    simp only [List.getElem?_map, job, Option.map_some'] at entries
    exact Option.map_eq_some'.mp entries
  have context : call.entry.access = .context := by rw [entry]; cases op <;> rfl
  obtain ⟨⟨j, op'⟩, served, rfl⟩ :=
    List.mem_map.mp (lin.returned i call found context (.inl (normal call (List.getElem?_mem found))))
  have same := lin.job _ op' served
  rw [job, Option.some.injEq, Job.block.injEq] at same
  exact same ▸ served

variable (valid : ∀ job ∈ jobs, job.Valid disk.length)
include valid

/-- The server's image keeps the disk's size. -/
theorem Linearized.length_disk (lin : Linearized jobs disk s) : s.disk.length = disk.length := by
  rw [lin.image]
  refine length_onDevice fun op mem => ?_
  obtain ⟨⟨j, _⟩, served, rfl⟩ := List.mem_map.mp mem
  exact valid _ (List.getElem?_mem (lin.job j _ served))

/-- **One exchange keeps the linearization**: the operation the server handles is the device's
next step, and its reply is the device's answer. -/
theorem Linearized.exchange (lin : Linearized jobs disk s)
    (stepped : step flagFua link jobs s i .exchange = some s') : Linearized jobs disk s' := by
  obtain ⟨entry, http, op, found, job, unsent, rfl⟩ := step_exchange_inv stepped
  have here : op.Valid s.disk.length := lin.length_disk valid ▸ valid _ (List.getElem?_mem job)
  have inBounds : i < s.replies.length := (List.getElem?_eq_some.mp unsent).1
  have fresh : i ∉ s.served.map Prod.fst := by
    rintro mem
    obtain ⟨⟨j, op'⟩, served, rfl⟩ := List.mem_map.mp mem
    obtain ⟨answer, replied⟩ := lin.answered served
    simp [State.replyOf, unsent] at replied
  rw [Op.overWire_eq flagFua link s.pool.handle s.log.length here]
  set s' : State := ⟨s.pool, (op.onDevice s.disk).1,
    s.replies.set i (some (.ok (op.onDevice s.disk).2)), s.log ++ [.block i http op]⟩
  have served : s'.served = s.served ++ [(i, op)] := by
    simp [s', State.served, List.filterMap_append, Event.block?]
  have ops : s'.ops = s.ops ++ [op] := by simp [State.ops, served]
  have replyOf : ∀ j, s'.replyOf j = if j = i then some (.ok (op.onDevice s.disk).2)
      else s.replyOf j := by
    intro j
    by_cases same : j = i
    · subst same; simp [s', State.replyOf, inBounds]
    · simp [s', State.replyOf, List.getElem?_set_ne (Ne.symm same), same]
  have device : onDevice disk s'.ops =
      ((op.onDevice s.disk).1, (onDevice disk s.ops).2 ++ [(op.onDevice s.disk).2]) := by
    rw [ops, onDevice_append, ← lin.image]
    rfl
  refine ⟨by rw [device], ?_, ?_, ?_, ?_, ?_, by simp [s', lin.length_replies]⟩
  · -- the earlier calls keep their replies, and the new one is the device's answer
    have earlier : s.served.map (fun request => s'.replyOf request.1) =
        s.served.map fun request => s.replyOf request.1 :=
      List.map_congr_left fun request mem => by
        have other : request.1 ≠ i := fun same => fresh (same ▸ List.mem_map_of_mem _ mem)
        simp [replyOf, other]
    rw [served, List.map_append, earlier, lin.replies, device, List.map_append]
    simp [replyOf]
  · simpa [served] using List.Nodup.append lin.once (List.nodup_singleton i)
      (List.disjoint_singleton.mpr fresh)
  · intro j op' mem
    rw [served, List.mem_append, List.mem_singleton] at mem
    rcases mem with old | new
    · exact lin.job j op' old
    · obtain ⟨rfl, rfl⟩ := Prod.mk.inj new
      exact job
  · intro j reply replied
    rw [replyOf] at replied
    rw [served, List.map_append, List.mem_append]
    split at replied
    · exact .inr (by simp [*])
    · exact .inl (lin.recorded j reply replied)
  · intro j call found' context ended
    rw [served, List.map_append]
    exact List.mem_append_left _ (lin.returned j call found' context ended)

/-- **Every reachable state is linearized.** -/
theorem Reachable.linearized {h : Handle} (reach : Reachable flagFua link jobs h disk s) :
    Linearized jobs disk s := by
  induction reach with
  | init => exact Linearized.init h
  | @step s s' i a reach stepped ih =>
    cases a with
    | exchange => exact ih.exchange valid stepped
    | pool b => exact ih.pool reach.pool.inv stepped

end Linearize

/-- **Parallel calls linearize.** For every disk image, every link cutting the responses, and
every set of calls nbdkit runs at once on a handle, whose block calls each cover at least one
byte inside the disk: in every state that any interleaving reaches, the server's image is the
block device after the operations it handled, in the order it handled them; the replies, read
in that order, are the device's answers (each `pread` got the device's bytes at its place, and
no exchange raised); no request was handled twice; and every block call that returned normally
had its request handled. -/
theorem calls_linearize {flagFua : Nat} {link : Link} {jobs : List Job} {h : Handle}
    {disk : List UInt8} (valid : ∀ job ∈ jobs, job.Valid disk.length) {s : State}
    (reach : Reachable flagFua link jobs h disk s) : Linearized jobs disk s :=
  reach.linearized valid

/-- A `pwrite` and a `pread` on a two-byte disk, with a `flush` beside them: the state after the
`pwrite` returned and the `pread` made its exchange is linearized. -/
theorem calls_linearize_pwrite :
    (∀ job ∈ [Job.block (.pwrite [9] 1 0), .block (.pread [0, 0] 0 0), .flush], job.Valid 2) ∧
      ∃ s, Parallel.run 2 Link.whole [.block (.pwrite [9] 1 0), .block (.pread [0, 0] 0 0), .flush]
          (State.init Pool.twoConnections
            [.block (.pwrite [9] 1 0), .block (.pread [0, 0] 0 0), .flush] [1, 2])
          [(0, .pool .get), (0, .exchange), (0, .pool .finish), (0, .pool .put), (0, .pool .leave),
            (1, .pool .get), (1, .exchange)] = some s ∧
        Linearized [.block (.pwrite [9] 1 0), .block (.pread [0, 0] 0 0), .flush] [1, 2] s := by
  have ran : Parallel.run 2 Link.whole
      [.block (.pwrite [9] 1 0), .block (.pread [0, 0] 0 0), .flush]
      (State.init Pool.twoConnections
        [.block (.pwrite [9] 1 0), .block (.pread [0, 0] 0 0), .flush] [1, 2])
      [(0, .pool .get), (0, .exchange), (0, .pool .finish), (0, .pool .put), (0, .pool .leave),
        (1, .pool .get), (1, .exchange)] = some _ := rfl
  exact ⟨by decide, _, ran, calls_linearize (by decide) (Reachable.init.run ran)⟩

end Parallel

end RhvUpload
