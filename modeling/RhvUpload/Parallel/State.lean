/-
**Parallel calls with their requests: the pool model with the imageio server behind it.**

`RhvUpload.Pool` follows each call through `http_context` and `iter_http_pool` and forgets what
the call sends. Here every call carries its `Job` (a block call with its arguments, a `flush`,
or one of the entry points that do not touch the pool) and the server of the wire contract
(`serve`) answers the requests made on the connections the calls hold:

* `Action.exchange` — a block call inside `with http_context(h) as http:` sends its request and
  handles the response (`Op.overWire`): the server's image changes, and the call's reply is
  recorded. The server handles one request at a time, in the order of `State.log`.
* a `flush` call's `send` is its `PATCH {"op": "flush"}` on the connection it has reached, and is
  logged the same way. The contract server answers it `200` and changes nothing.
* a block call leaves its `with` body normally (`finish`) only once its response was handled
  without an exception; as in the pool model, it may raise at any point.

* `step_pool` — **one step**: every step is a step of the pool model, or an exchange, which
  leaves the pool as it is.
* `Reachable.pool` — **the refinement**: every state the calls reach here is, in its pool part, a
  state the pool model reaches, so `pool_conserved` and the deadlock results hold of it.
-/

import RhvUpload.BlockIO.Refinement
import RhvUpload.Pool.Deadlock

namespace RhvUpload

namespace Parallel

/-! ## Jobs, requests and states -/

/-- What one call nbdkit makes on the handle does. -/
inductive Job
  | block (op : Op)
  | flush
  | canTrim
  | canFlush
  | canFua
  | getSize
  deriving DecidableEq, Repr

/-- The entry point a job calls. -/
def Job.entry : Job → Pool.Entry
  | .block (.pread ..) => .pread
  | .block (.pwrite ..) => .pwrite
  | .block (.zero ..) => .zero
  | .flush => .flush
  | .canTrim => .canTrim
  | .canFlush => .canFlush
  | .canFua => .canFua
  | .getSize => .getSize

/-- A job on a disk of `size` bytes: a block call covers at least one byte, all inside the
disk. -/
def Job.Valid (size : Nat) : Job → Prop
  | .block op => op.Valid size
  | _ => True

instance (size : Nat) : (job : Job) → Decidable (job.Valid size)
  | .block op => inferInstanceAs (Decidable (op.Valid size))
  | .flush | .canTrim | .canFlush | .canFua | .getSize => isTrue trivial

/-- A request the server handled: call `i`'s block request on connection `http`, or its flush
request on `http`. -/
inductive Event
  | block (i http : Nat) (op : Op)
  | flush (i http : Nat)
  deriving DecidableEq, Repr

/-- The flush request of a pool effect, as a request of call `i`. -/
def Event.ofEffect (i : Nat) : Pool.Effect → List Event
  | .flushOn http => [.flush i http]
  | _ => []

/-- The block request of an event, with the call that sent it. -/
def Event.block? : Event → Option (Nat × Op)
  | .block i _ op => some (i, op)
  | .flush .. => none

/-- What a block call's exchange gave: the value it returns, or the exception it raises. -/
abbrev Reply := Except Error (Option (List UInt8))

/-- All calls on one handle, with the server behind the pool: the pool model's state, the
server's image, each call's reply once it has made its exchange, and every request the server
handled, in order. -/
structure State where
  pool : Pool.State
  disk : List UInt8
  replies : List (Option Reply)
  log : List Event
  deriving Repr

/-- The calls `jobs` issued on the handle `open` returned, with the server holding `disk`. -/
def State.init (h : Handle) (jobs : List Job) (disk : List UInt8) : State :=
  ⟨Pool.State.init h (jobs.map Job.entry), disk, List.replicate jobs.length none, []⟩

/-- The block requests the server handled, in order, with the calls that sent them. -/
def State.served (s : State) : List (Nat × Op) := s.log.filterMap Event.block?

/-- Call `i` handled its response without an exception. -/
def State.answered (s : State) (i : Nat) : Bool :=
  match s.replies[i]? with
  | some (some (.ok _)) => true
  | _ => false

/-- Whether call `i`, at `pc`, may take the pool action `a`: a block call leaves its `with` body
normally only once it has handled its response without an exception. -/
def State.allows (s : State) (i : Nat) : Pool.Pc → Pool.Action → Bool
  | .holding _, .finish => s.answered i
  | _, _ => true

/-- A call is held back only from leaving its `with` body before its response was handled. -/
theorem State.holding_of_not_allows {s : State} {i : Nat} {pc : Pool.Pc} {a : Pool.Action}
    (refused : s.allows i pc a = false) :
    ∃ http, pc = .holding http ∧ a = .finish ∧ s.answered i = false := by
  unfold State.allows at refused
  split at refused
  · exact ⟨_, rfl, rfl, refused⟩
  · cases refused

/-! ## Steps -/

/-- The actions of a call: those of the pool model, and a block call's exchange. -/
inductive Action
  | pool (a : Pool.Action)
  | exchange
  deriving DecidableEq, Repr

section Steps

variable (flagFua : Nat) (link : Link) (jobs : List Job)

/-- Call `i` takes action `a`; `none` when it cannot. The `k`-th request the server handles gets
the `k`-th response of the link. -/
def step (s : State) (i : Nat) : Action → Option State
  | .exchange =>
    match s.pool.calls[i]?, jobs[i]?, s.replies[i]? with
    | some ⟨_, .holding http⟩, some (.block op), some none =>
      let served := op.overWire flagFua link s.pool.handle s.log.length s.disk
      some ⟨s.pool, served.1, s.replies.set i (some served.2), s.log ++ [.block i http op]⟩
    | _, _, _ => none
  | .pool a =>
    match s.pool.calls[i]? with
    | some call =>
      if s.allows i call.pc a then
        (call.pc.next s.pool.handle.connections call.entry s.pool.idle a).map fun next =>
          ⟨s.pool.apply i call next, s.disk, s.replies, s.log ++ Event.ofEffect i next.2.2⟩
      else none
    | none => none

/-- The steps of a schedule, one (call, action) pair after another. -/
def run (s : State) : List (Nat × Action) → Option State
  | [] => some s
  | (i, a) :: rest => (step flagFua link jobs s i a).bind (run · rest)

/-- The states that some interleaving of the calls `jobs` on `h` reaches, against the server
that starts with `disk`. -/
inductive Reachable (h : Handle) (disk : List UInt8) : State → Prop
  | init : Reachable h disk (State.init h jobs disk)
  | step {s s' : State} {i : Nat} {a : Action} :
      Reachable h disk s → step flagFua link jobs s i a = some s' → Reachable h disk s'

variable {flagFua link jobs} {s s' : State} {i : Nat}

/-- **An exchange** is a block call inside `http_context` that has not sent its request: the
server handles the request on the call's connection and the call's reply is recorded. -/
theorem step_exchange_inv (stepped : step flagFua link jobs s i .exchange = some s') :
    ∃ entry http op, s.pool.calls[i]? = some ⟨entry, .holding http⟩ ∧
      jobs[i]? = some (.block op) ∧ s.replies[i]? = some none ∧
      s' = ⟨s.pool, (op.overWire flagFua link s.pool.handle s.log.length s.disk).1,
        s.replies.set i (some (op.overWire flagFua link s.pool.handle s.log.length s.disk).2),
        s.log ++ [.block i http op]⟩ := by
  simp only [step] at stepped
  split at stepped
  · rename_i entry http op found job unsent
    exact ⟨entry, http, op, found, job, unsent, (Option.some.inj stepped).symm⟩
  · cases stepped

/-- A call leaves `holding` without raising only by `finish`. -/
theorem finish_of_holding {N : Nat} {entry : Pool.Entry} {idle : List Nat} {http : Nat}
    {a : Pool.Action} {next : Pool.Pc × List Nat × Pool.Effect}
    (enabled : (Pool.Pc.holding http).next N entry idle a = some next)
    (returns : next.1 = .unlocking [http] false) : a = .finish := by
  cases a <;> simp only [Pool.Pc.next, reduceCtorEq, Option.some.injEq] at enabled <;>
    subst enabled <;> simp_all

/-- **A pool action** is one move of the pool model, with the disk and the replies as they were;
a block call leaves `holding` normally only when it is answered. -/
theorem step_pool_inv {a : Pool.Action} (stepped : step flagFua link jobs s i (.pool a) = some s') :
    ∃ call next, s.pool.calls[i]? = some call ∧
      call.pc.next s.pool.handle.connections call.entry s.pool.idle a = some next ∧
      call.pc.Moves s.pool.handle.connections call.entry s.pool.idle next ∧
      (∀ http, call.pc = .holding http → next.1 = .unlocking [http] false → s.answered i = true) ∧
      s' = ⟨s.pool.apply i call next, s.disk, s.replies, s.log ++ Event.ofEffect i next.2.2⟩ := by
  simp only [step] at stepped
  split at stepped
  · rename_i call found
    split at stepped
    · rename_i allowed
      obtain ⟨next, enabled, rfl⟩ := Option.map_eq_some'.mp stepped
      refine ⟨call, next, found, enabled, Pool.Pc.moves_of_next enabled,
        fun http holding returns => ?_, rfl⟩
      rw [holding] at enabled allowed
      rw [finish_of_holding enabled returns] at allowed
      exact allowed
    · cases stepped
  · cases stepped

/-- **Every step is a step of the pool model, or an exchange that leaves the pool as it is.** -/
theorem step_pool {a : Action} (stepped : step flagFua link jobs s i a = some s') :
    s'.pool = s.pool ∨ ∃ b, Pool.step s.pool i b = some s'.pool := by
  cases a with
  | exchange =>
    obtain ⟨-, -, -, -, -, -, rfl⟩ := step_exchange_inv stepped
    exact .inl rfl
  | pool b =>
    obtain ⟨call, next, found, enabled, -, -, rfl⟩ := step_pool_inv stepped
    exact .inr ⟨b, by simp [Pool.step, found, enabled]⟩

/-- **The refinement**: the pool part of every reachable state is reachable in the pool model,
for the entry points the jobs call. -/
theorem Reachable.pool {h : Handle} {disk : List UInt8}
    (reach : Reachable flagFua link jobs h disk s) : Pool.Reachable h (jobs.map Job.entry) s.pool := by
  induction reach with
  | init => exact .init
  | step _ stepped ih =>
    rcases step_pool stepped with same | ⟨b, poolStep⟩
    · exact same ▸ ih
    · exact ih.step poolStep

/-- Each call runs the entry point of its job. -/
theorem Reachable.job_entry {h : Handle} {disk : List UInt8}
    (reach : Reachable flagFua link jobs h disk s) {call : Pool.Call}
    (found : s.pool.calls[i]? = some call) :
    ∃ job, jobs[i]? = some job ∧ job.entry = call.entry := by
  have entries := congrArg (·[i]?) reach.pool.frame.2
  simp only [List.getElem?_map, found, Option.map_some'] at entries
  exact Option.map_eq_some'.mp entries.symm

/-- A schedule that runs to its end from a reachable state ends in a reachable state. -/
theorem Reachable.run {h : Handle} {disk : List UInt8} :
    ∀ {s s' : State} {schedule : List (Nat × Action)}, Reachable flagFua link jobs h disk s →
      Parallel.run flagFua link jobs s schedule = some s' → Reachable flagFua link jobs h disk s'
  | _, _, [], reach, ran => by cases ran; exact reach
  | s, _, (i, a) :: rest, reach, ran => by
    simp only [Parallel.run, Option.bind_eq_some] at ran
    obtain ⟨next, stepped, ran⟩ := ran
    exact Reachable.run (reach.step stepped) ran

end Steps

end Parallel

end RhvUpload
