/-
**The connection pool under parallel calls: states and steps.**

nbdkit runs the plugin with `THREAD_MODEL_PARALLEL` (`thread_model`), so any number of entry
points run at once on one handle. They share the handle's `failed` flag and the pool, a
`queue.Queue` holding the `N = h['connections']` imageio connections that `create_http_pool`
made, numbered `0, …, N - 1` here. Each call is a small program over the pool (`Pc`):

* `pread`, `pwrite` and `zero` (both paths) run their exchange inside `http_context`:
  `pool.get()`, the body, then `pool.put(http)` in the `finally`;
* `flush` runs `iter_http_pool`: `pool.get()` until it holds `N` connections, one flush `PATCH`
  per connection, then the `finally` puts each back. An exception out of `flush` closes the
  generator at once (CPython drops its last reference), which runs that `finally`;
* `can_trim`, `can_flush`, `can_fua` and `get_size` do not touch the pool.

Every call ends with the `@failing` wrapper (`Action.leave`). A state holds all calls at once; a
step is one call's next atomic action (`step`), and `Reachable` is every state that some
interleaving of the calls reaches. `Queue.get` blocks, and never raises, on an empty queue: a
`get` is enabled only when a connection is idle. The loop collecting connections makes no call
that raises, so a `flush` can raise before it takes its first connection or while it flushes.

* `Pc.next` is one action of one call; `Pc.Moves` lists what an action can do, and
  `Pc.moves_of_next` proves that list complete. Every invariant is proved from `Pc.Moves`.
-/

import RhvUpload.BlockIO.Write

namespace RhvUpload

namespace Pool

/-! ## Calls -/

/-- The `@failing`-decorated entry points. -/
inductive Entry
  | canTrim
  | canFlush
  | canFua
  | getSize
  | pread
  | pwrite
  | zero
  | flush
  deriving DecidableEq, Repr

/-- How an entry point uses the pool: not at all, through `http_context`, or through
`iter_http_pool`. -/
inductive Access
  | plain
  | context
  | drain
  deriving DecidableEq, Repr

/-- The pool access of each entry point. -/
def Entry.access : Entry → Access
  | .pread | .pwrite | .zero => .context
  | .flush => .drain
  | .canTrim | .canFlush | .canFua | .getSize => .plain

/-- Where a call is in its code.

* `ready` — called; next is the body (for `http_context` users, its `pool.get()`);
* `holding http` — inside `with http_context(h) as http:`;
* `locking locked` — in `iter_http_pool`'s `while len(locked) < h["connections"]` loop;
* `flushing locked sent` — iterating, after `sent` flush requests;
* `unlocking rest raised` — in a `finally`, with `rest` still to put back;
* `done raised` — returned or raised out of the `@failing` wrapper. -/
inductive Pc
  | ready
  | holding (http : Nat)
  | locking (locked : List Nat)
  | flushing (locked : List Nat) (sent : Nat)
  | unlocking (rest : List Nat) (raised : Bool)
  | done (raised : Bool)
  deriving DecidableEq, Repr

/-- Where each entry point starts: `flush` starts in `iter_http_pool` with nothing locked. -/
def Entry.start : Entry → Pc
  | .flush => .locking []
  | _ => .ready

/-- The connections a call holds: taken from the queue and not yet put back. -/
def Pc.held : Pc → List Nat
  | .holding http => [http]
  | .locking locked => locked
  | .flushing locked _ => locked
  | .unlocking rest _ => rest
  | _ => []

@[simp] theorem Pc.held_ready : Pc.ready.held = [] := rfl

@[simp] theorem Pc.held_done (raised : Bool) : (Pc.done raised).held = [] := rfl

/-- One call: its entry point and where it is. -/
structure Call where
  entry : Entry
  pc : Pc
  deriving DecidableEq, Repr

/-- The atomic actions of a call. -/
inductive Action
  | get
  | lock
  | send
  | finish
  | raise
  | put
  | leave
  deriving DecidableEq, Repr

/-- What an action does besides moving the call and the queue: nothing, a flush request on a
connection, or leaving the `@failing` wrapper. -/
inductive Effect
  | quiet
  | flushOn (http : Nat)
  | leave (raised : Bool)
  deriving DecidableEq, Repr

/-! ## One action of one call -/

/-- One action of a call of `entry` at `pc`, with `idle` the queue and `N` the pool size: the
call's next program counter, the queue after it, and the effect; `none` when the action is not
enabled. -/
def Pc.next (N : Nat) (entry : Entry) (idle : List Nat) : Pc → Action → Option (Pc × List Nat × Effect)
  | .ready, .raise => some (.unlocking [] true, idle, .quiet)
  | .ready, .finish =>
    if entry.access = .plain then some (.unlocking [] false, idle, .quiet) else none
  | .ready, .get =>
    if entry.access = .context then
      match idle with
      | http :: rest => some (.holding http, rest, .quiet)
      | [] => none
    else none
  | .holding http, .finish => some (.unlocking [http] false, idle, .quiet)
  | .holding http, .raise => some (.unlocking [http] true, idle, .quiet)
  | .locking [], .raise => some (.unlocking [] true, idle, .quiet)
  | .locking locked, .get =>
    if locked.length < N then
      match idle with
      | http :: rest => some (.locking (locked ++ [http]), rest, .quiet)
      | [] => none
    else none
  | .locking locked, .lock =>
    if N ≤ locked.length then some (.flushing locked 0, idle, .quiet) else none
  | .flushing locked sent, .send =>
    match locked[sent]? with
    | some http => some (.flushing locked (sent + 1), idle, .flushOn http)
    | none => none
  | .flushing locked _, .raise => some (.unlocking locked true, idle, .quiet)
  | .flushing locked sent, .finish =>
    if locked.length ≤ sent then some (.unlocking locked false, idle, .quiet) else none
  | .unlocking (http :: rest) raised, .put => some (.unlocking rest raised, idle ++ [http], .quiet)
  | .unlocking [] raised, .leave => some (.done raised, idle, .leave raised)
  | _, _ => none

/-- Everything one action of a call can do. -/
inductive Pc.Moves (N : Nat) (entry : Entry) (idle : List Nat) : Pc → Pc × List Nat × Effect → Prop
  | raiseEarly : Pc.Moves N entry idle .ready (.unlocking [] true, idle, .quiet)
  | finishPlain : entry.access = .plain →
      Pc.Moves N entry idle .ready (.unlocking [] false, idle, .quiet)
  | checkout {http : Nat} {rest : List Nat} : entry.access = .context → idle = http :: rest →
      Pc.Moves N entry idle .ready (.holding http, rest, .quiet)
  | finishHolding (http : Nat) :
      Pc.Moves N entry idle (.holding http) (.unlocking [http] false, idle, .quiet)
  | raiseHolding (http : Nat) :
      Pc.Moves N entry idle (.holding http) (.unlocking [http] true, idle, .quiet)
  | raiseLocking : Pc.Moves N entry idle (.locking []) (.unlocking [] true, idle, .quiet)
  | take {locked : List Nat} {http : Nat} {rest : List Nat} : locked.length < N →
      idle = http :: rest → Pc.Moves N entry idle (.locking locked) (.locking (locked ++ [http]), rest, .quiet)
  | lock {locked : List Nat} : N ≤ locked.length →
      Pc.Moves N entry idle (.locking locked) (.flushing locked 0, idle, .quiet)
  | send {locked : List Nat} {sent http : Nat} : locked[sent]? = some http →
      Pc.Moves N entry idle (.flushing locked sent) (.flushing locked (sent + 1), idle, .flushOn http)
  | raiseFlushing (locked : List Nat) (sent : Nat) :
      Pc.Moves N entry idle (.flushing locked sent) (.unlocking locked true, idle, .quiet)
  | finishFlushing {locked : List Nat} {sent : Nat} : locked.length ≤ sent →
      Pc.Moves N entry idle (.flushing locked sent) (.unlocking locked false, idle, .quiet)
  | put (http : Nat) (rest : List Nat) (raised : Bool) :
      Pc.Moves N entry idle (.unlocking (http :: rest) raised) (.unlocking rest raised, idle ++ [http], .quiet)
  | leave (raised : Bool) :
      Pc.Moves N entry idle (.unlocking [] raised) (.done raised, idle, .leave raised)

/-- **`Pc.Moves` lists everything an action can do.** -/
theorem Pc.moves_of_next {N : Nat} {entry : Entry} {idle : List Nat} {pc : Pc} {a : Action}
    {next : Pc × List Nat × Effect} (enabled : pc.next N entry idle a = some next) :
    pc.Moves N entry idle next := by
  -- every enabled pair of a program counter and an action, past its guards, is one constructor
  cases pc <;> cases a <;> simp only [Pc.next, reduceCtorEq] at enabled <;>
    (repeat' split at enabled) <;> cases enabled <;> (try injections) <;> (try subst_vars) <;> first
      | contradiction
      | constructor <;> first | assumption | rfl

/-! ## The system -/

/-- All calls on one handle at once. `idle` is the queue, oldest first; `flushed` lists every
flush request sent, as (call, connection), in order. -/
structure State where
  handle : Handle
  idle : List Nat
  calls : List Call
  flushed : List (Nat × Nat)
  deriving DecidableEq, Repr

/-- The handle as `open` returns it, with `failed` unset and its `N` connections idle, and the
calls `entries` issued on it. -/
def State.init (h : Handle) (entries : List Entry) : State :=
  ⟨{ h with failed := false }, List.range h.connections,
    entries.map fun entry => ⟨entry, entry.start⟩, []⟩

/-- A handle whose pool has two connections. -/
def twoConnections : Handle :=
  ⟨true, true, "disk", ⟨"transfer", none, ⟨"https", "imageio", none, "/images/transfer"⟩⟩, false, 2,
    "/images/transfer"⟩

/-- The handle after an effect: leaving the wrapper is `@failing`. -/
def Effect.onHandle (h : Handle) : Effect → Handle
  | .leave raised => failing h raised
  | _ => h

/-- The flush log after call `i`'s effect. -/
def Effect.onLog (i : Nat) (flushed : List (Nat × Nat)) : Effect → List (Nat × Nat)
  | .flushOn http => flushed ++ [(i, http)]
  | _ => flushed

/-- The state after call `i` made the move `next`. -/
def State.apply (s : State) (i : Nat) (call : Call) (next : Pc × List Nat × Effect) : State :=
  ⟨next.2.2.onHandle s.handle, next.2.1, s.calls.set i { call with pc := next.1 },
    next.2.2.onLog i s.flushed⟩

/-- Call `i` takes action `a`; `none` when there is no such call or the action is not enabled. -/
def step (s : State) (i : Nat) (a : Action) : Option State :=
  match s.calls[i]? with
  | some call => (call.pc.next s.handle.connections call.entry s.idle a).map (s.apply i call)
  | none => none

/-- The states that some interleaving of the calls `entries` on `h` reaches. -/
inductive Reachable (h : Handle) (entries : List Entry) : State → Prop
  | init : Reachable h entries (State.init h entries)
  | step {s s' : State} {i : Nat} {a : Action} :
      Reachable h entries s → step s i a = some s' → Reachable h entries s'

/-- **A step is one move of one call.** -/
theorem step_inv {s s' : State} {i : Nat} {a : Action} (stepped : step s i a = some s') :
    ∃ call next, s.calls[i]? = some call ∧
      call.pc.Moves s.handle.connections call.entry s.idle next ∧ s' = s.apply i call next := by
  unfold step at stepped
  split at stepped
  · rename_i call found
    obtain ⟨next, enabled, rfl⟩ := Option.map_eq_some'.mp stepped
    exact ⟨call, next, found, Pc.moves_of_next enabled, rfl⟩
  · cases stepped

/-- The steps of a schedule, one (call, action) pair after another. -/
def run (s : State) : List (Nat × Action) → Option State
  | [] => some s
  | (i, a) :: rest => (step s i a).bind (run · rest)

/-- A schedule that runs to its end from a reachable state ends in a reachable state. -/
theorem Reachable.run {h : Handle} {entries : List Entry} :
    ∀ {s s' : State} {schedule : List (Nat × Action)}, Reachable h entries s →
      Pool.run s schedule = some s' → Reachable h entries s'
  | _, _, [], reach, ran => by cases ran; exact reach
  | s, _, (i, a) :: rest, reach, ran => by
    simp only [Pool.run, Option.bind_eq_some] at ran
    obtain ⟨next, stepped, ran⟩ := ran
    exact Reachable.run (reach.step stepped) ran

end Pool

end RhvUpload
