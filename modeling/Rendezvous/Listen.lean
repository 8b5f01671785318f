import Rendezvous.Runs
import Mathlib.Logic.Relation

/-!
# One slot's listener

`run()` calls `_listen_for_peers(addr, port, self.slot_duration_ms)` once a slot:

    try:
        if not self._add_address(addr): return
        sock = socket.socket(socket.AF_INET6, socket.SOCK_DGRAM)
        sock.setsockopt(…); sock.setblocking(False)
        sock.bind((addr, port, 0, self._get_interface_index()))
        self.current_socket = sock
        end_time = time.time() + (duration_ms / 1000.0)
        while self.running and time.time() < end_time:
            ready, _, _ = select.select([sock], [], [], 0.1)
            if sock in ready:
                try: data, sender = sock.recvfrom(65535); self._handle_peer_message(data, sender)
                except Exception as e: log.error(…)
        sock.close()
        self.current_socket = None
        self._remove_address(addr)
    except Exception as e:
        log.error(…)

The SIGTERM and SIGINT handlers call `stop()`, which sets `running = False` and closes
`current_socket`, between any two steps of the main thread; a handler that runs while
`select` waits leaves it with a closed descriptor, and `select` raises. `_add_address` and
`_remove_address` catch their own exceptions and answer with `ip -6 addr`'s result.

`ListenStep` is one step of the slot, or `stop()`: a constructor per statement and per answer
of the operating system, whose answers are otherwise free. There is no `finally`.

## What is proved

* `ListenInv.step`, `listenInv_of_reach` — what holds at each point of the slot, from a start
  where `addr` is not on the interface.
* `listen_returned` — a slot that returns normally has closed its socket and taken `addr` off
  the interface again.
* `listen_raised` — a slot that returns from the outer `except` leaves `addr` on the interface.
* `listen_leaks_address` — both happen: `bind` raising after `_add_address` succeeded leaves
  the address and an open socket; `stop()` while the loop waits in `select` leaves the address.
* `listen_extends_run` — the datagrams a slot hands `_handle_peer_message` extend the learner's
  run, so `known_peers_bounded` holds across slots.

## Honest scope

`ip -6 addr del` of an address on the interface is taken to remove it. The socket a slot leaks
is closed when Python collects it, after `_listen_for_peers` has returned; the model keeps it
open. Time is not modelled: the loop may end at any test, as `end_time` allows.
-/

namespace Rendezvous

open Relation

/-- Where `_listen_for_peers` is. -/
inductive ListenPc where
  /-- Before `_add_address(addr)`. -/
  | start
  /-- `_add_address` returned `True`; before `socket.socket`. -/
  | added
  /-- The socket exists; before `setsockopt`, `setblocking` and `bind`. -/
  | created
  /-- At the test of the `while` loop. -/
  | looping
  /-- Past the test, in `select.select`. -/
  | selecting
  /-- Past the loop; before `sock.close()` and `self.current_socket = None`. -/
  | closing
  /-- Before `self._remove_address(addr)`. -/
  | removing
  /-- Returned normally. -/
  | returned
  /-- Returned from the outer `except`. -/
  | raised
  deriving DecidableEq, Repr

/-- What one slot's listener reads and changes. -/
structure ListenState where
  /-- Where the main thread is. -/
  pc : ListenPc
  /-- `self.running`. -/
  running : Bool
  /-- The slot's socket is open. -/
  sockOpen : Bool
  /-- `self.current_socket` is the slot's socket. -/
  current : Bool
  /-- The addresses on the interface. -/
  addrs : List String
  /-- `self.known_peers`. -/
  known : List NodeId
  deriving DecidableEq, Repr

/-- The call `_listen_for_peers(addr, …)`, with no socket of its own yet. -/
def ListenState.begin (running : Bool) (addrs : List String) (known : List NodeId) : ListenState :=
  ⟨.start, running, false, false, addrs, known⟩

/-- One step of `_listen_for_peers(addr, …)`, or `stop()` between two of them. -/
inductive ListenStep (self : RendezvousDaemon) (addr : String) : ListenState → ListenState → Prop
  /-- `ip -6 addr add` adds the address: `_add_address` returns `True`. -/
  | addOk {s : ListenState} : s.pc = .start → addr ∉ s.addrs →
      ListenStep self addr s { s with pc := .added, addrs := addr :: s.addrs }
  /-- `RTNETLINK answers: File exists`: `_add_address` returns `True`. -/
  | addExists {s : ListenState} : s.pc = .start → addr ∈ s.addrs →
      ListenStep self addr s { s with pc := .added }
  /-- Any other failure: `_add_address` returns `False`, and so does `_listen_for_peers`. -/
  | addFail {s : ListenState} : s.pc = .start → addr ∉ s.addrs →
      ListenStep self addr s { s with pc := .returned }
  /-- `socket.socket` returns. -/
  | socketOk {s : ListenState} : s.pc = .added →
      ListenStep self addr s { s with pc := .created, sockOpen := true }
  /-- `socket.socket` raises. -/
  | socketRaise {s : ListenState} : s.pc = .added → ListenStep self addr s { s with pc := .raised }
  /-- `bind` returns, and `self.current_socket = sock`. -/
  | bindOk {s : ListenState} : s.pc = .created →
      ListenStep self addr s { s with pc := .looping, current := true }
  /-- `setsockopt`, `setblocking` or `bind` raises. -/
  | bindRaise {s : ListenState} : s.pc = .created → ListenStep self addr s { s with pc := .raised }
  /-- `self.running` holds and `end_time` has not passed. -/
  | enter {s : ListenState} : s.pc = .looping → s.running = true →
      ListenStep self addr s { s with pc := .selecting }
  /-- `self.running` is false or `end_time` has passed. -/
  | exit {s : ListenState} : s.pc = .looping → ListenStep self addr s { s with pc := .closing }
  /-- `select` returns with nothing to read, or `recvfrom` raises into the inner `except`. -/
  | idle {s : ListenState} : s.pc = .selecting → s.sockOpen = true →
      ListenStep self addr s { s with pc := .looping }
  /-- `recvfrom` returns `data`, and `_handle_peer_message(data, sender)` runs. -/
  | receive {s : ListenState} (data : Bytes) (env : Env) : s.pc = .selecting → s.sockOpen = true →
      ListenStep self addr s { s with pc := .looping, known := (self.handlePeerMessage s.known data env).1 }
  /-- `select` raises, as it does once `stop()` has closed the socket. -/
  | selectRaise {s : ListenState} : s.pc = .selecting → ListenStep self addr s { s with pc := .raised }
  /-- `sock.close()` and `self.current_socket = None`. -/
  | close {s : ListenState} : s.pc = .closing →
      ListenStep self addr s { s with pc := .removing, sockOpen := false, current := false }
  /-- `self._remove_address(addr)`. -/
  | remove {s : ListenState} : s.pc = .removing →
      ListenStep self addr s { s with pc := .returned, addrs := s.addrs.erase addr }
  /-- `stop()`: `self.running = False`, then `self.current_socket.close()`. -/
  | stop {s : ListenState} : s.pc ≠ .returned → s.pc ≠ .raised →
      ListenStep self addr s { s with running := false, sockOpen := s.sockOpen && !s.current }

variable {self : RendezvousDaemon} {addr : String} {A : List String}

/-! ### Where the address is -/

/-- What holds at each point of a slot that began with `addr` off the interface `A`. -/
def ListenInv (addr : String) (A : List String) (s : ListenState) : Prop :=
  match s.pc with
  | .start => s.addrs = A ∧ s.sockOpen = false ∧ s.current = false
  | .added => s.addrs = addr :: A ∧ s.current = false
  | .created => s.addrs = addr :: A ∧ s.sockOpen = true ∧ s.current = false
  | .looping | .selecting | .closing => s.addrs = addr :: A ∧ s.current = true
  | .removing => s.addrs = addr :: A ∧ s.sockOpen = false
  | .returned => s.addrs = A ∧ s.sockOpen = false
  | .raised => s.addrs = addr :: A

theorem listenInv_begin (running : Bool) (known : List NodeId) :
    ListenInv addr A (ListenState.begin running A known) :=
  ⟨rfl, rfl, rfl⟩

theorem ListenInv.step (hA : addr ∉ A) {s s' : ListenState} (hinv : ListenInv addr A s)
    (h : ListenStep self addr s s') : ListenInv addr A s' := by
  obtain ⟨pc, running, sockOpen, current, addrs, known⟩ := s
  cases h <;> cases pc <;> simp_all [ListenInv]

theorem listenInv_of_reach (hA : addr ∉ A) {running : Bool} {known : List NodeId} {s : ListenState}
    (h : ReflTransGen (ListenStep self addr) (ListenState.begin running A known) s) :
    ListenInv addr A s := by
  induction h with
  | refl => exact listenInv_begin running known
  | tail _ hs ih => exact ih.step hA hs

theorem listen_returned (hA : addr ∉ A) {running : Bool} {known : List NodeId} {s : ListenState}
    (h : ReflTransGen (ListenStep self addr) (ListenState.begin running A known) s)
    (hs : s.pc = .returned) : s.addrs = A ∧ s.sockOpen = false := by
  simpa [ListenInv, hs] using listenInv_of_reach hA h

theorem listen_raised (hA : addr ∉ A) {running : Bool} {known : List NodeId} {s : ListenState}
    (h : ReflTransGen (ListenStep self addr) (ListenState.begin running A known) s)
    (hs : s.pc = .raised) : s.addrs = addr :: A := by
  simpa [ListenInv, hs] using listenInv_of_reach hA h

/-- `bind` raising after `_add_address` succeeded (a freshly added address is still
tentative, say) returns with `addr` on the interface and the socket open; so does `stop()`
while the loop waits in `select`, whose descriptor it closes. -/
theorem listen_leaks_address (self : RendezvousDaemon) (addr : String) (known : List NodeId) :
    (∃ s, ReflTransGen (ListenStep self addr) (ListenState.begin true [] known) s ∧
      s.pc = .raised ∧ s.addrs = [addr] ∧ s.sockOpen = true) ∧
    ∃ s, ReflTransGen (ListenStep self addr) (ListenState.begin true [] known) s ∧
      s.pc = .raised ∧ s.addrs = [addr] ∧ s.running = false :=
  ⟨⟨_, .head (.addOk rfl (List.not_mem_nil _)) (.head (.socketOk rfl) (.single (.bindRaise rfl))),
      rfl, rfl, rfl⟩,
    ⟨_, .head (.addOk rfl (List.not_mem_nil _)) (.head (.socketOk rfl) (.head (.bindOk rfl)
        (.head (.enter rfl rfl) (.head (.stop nofun nofun) (.single (.selectRaise rfl)))))),
      rfl, rfl, rfl⟩⟩

/-! ### The learner inside the loop -/

/-- A step leaves `known_peers` as it was, or is one step of the learner. -/
theorem ListenStep.known_eq {s s' : ListenState} (h : ListenStep self addr s s') :
    s'.known = s.known ∨ ∃ data env, s'.known = (self.handlePeerMessage s.known data env).1 := by
  cases h with
  | receive data env => exact .inr ⟨data, env, rfl⟩
  | _ => exact .inl rfl

/-- The datagrams a slot hands `_handle_peer_message` continue the learner's run, so what
holds of every run holds across slots. -/
theorem listen_extends_run {s₀ s : ListenState} (h : ReflTransGen (ListenStep self addr) s₀ s)
    {tr : List RendezvousDaemon.Entry} (hrun : self.Run s₀.known tr) :
    ∃ tr', self.Run s.known (tr ++ tr') := by
  induction h with
  | refl => exact ⟨[], by rwa [List.append_nil]⟩
  | @tail b c _ hs ih =>
    obtain ⟨tr', hr⟩ := ih
    rcases hs.known_eq with heq | ⟨data, env, heq⟩ <;> rw [heq]
    · exact ⟨tr', hr⟩
    · exact ⟨tr' ++ [(b.known, data, env)], by rw [← List.append_assoc]; exact hr.step data env⟩

end Rendezvous
