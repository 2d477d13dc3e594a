import Mathlib.Data.List.AList
import ZeroTouch.Common.Run
import ZeroTouch.Tunnel.Frame
import ZeroTouch.Tunnel.Registry
/-!
# One end of a tunnel

A `Session` with the threads that share it, as a system of steps: the read
loop of the `Register` handler or of `RunTunnel`, the `ForwarderLoop` of a
server, the keepalive of a client, and one `Pump` for each connection. A
step is what one thread does between two points where another can come in
between; what the peer, the sockets and gRPC do is the choice of the step.

The fields after `forwarder` and `keepalive` are not of the program: they
record what has been read, written and sent.
-/

namespace ZeroTouch

/-- The two ends. -/
inductive Side
  | server
  | client
  deriving DecidableEq, Repr

/-- Where the read loop and the teardown after it are. -/
inductive ReaderPc
  /-- A client, before its `REGISTER` is sent. -/
  | registering
  /-- In `Read`. -/
  | reading
  /-- At the `switch`, with a frame. -/
  | handling (f : Frame)
  /-- At a `REGISTER`, before `Registry::Remove` of the old name. -/
  | removing (target : Text)
  /-- At a `REGISTER`, before `Registry::Add`. -/
  | adding (target : Text)
  /-- In `WriteAll`, with the bytes that are left. -/
  | writing (id : ℕ) (conn : ℕ) (rest : Bytes)
  /-- In `CloseConn`, before the table; `reply` is sent after it. -/
  | erasing (id : ℕ) (reply : Option Frame)
  /-- In `CloseConn`, with the connection taken out of the table. -/
  | storing (conn : ℕ) (reply : Option Frame)
  /-- In `Send`, whatever it returns. -/
  | sending (f : Frame)
  /-- After the loop, before `Registry::Remove`. -/
  | unwinding
  /-- Before `Shutdown`. -/
  | stopping
  /-- Before the `Shutdown` of a client that could not register. -/
  | aborting
  /-- In `CloseAll`, before the table is swapped. -/
  | swapping
  /-- In `CloseAll`, with the connections that are left. -/
  | closing (taken : List ℕ)
  | finished
  deriving DecidableEq, Repr

/-- Where the forwarder is. -/
inductive ForwarderPc
  | accepting
  /-- Before `Registry::Get`. -/
  | fetching
  /-- With this session, before `NextStreamId`. -/
  | allocating
  /-- Before `AddConn`. -/
  | adding (id : ℕ)
  /-- In `Send` of the `OPEN`. -/
  | opening (id : ℕ) (conn : ℕ)
  /-- Before the thread of the `Pump` is started. -/
  | spawning (conn : ℕ)
  /-- In `CloseConn`, before the table. -/
  | erasing (id : ℕ)
  /-- In `CloseConn`, with the connection taken out of the table. -/
  | storing (conn : ℕ)
  deriving DecidableEq, Repr

/-- Where a `Pump` is. -/
inductive PumpPc
  /-- Not started. -/
  | unborn
  /-- In `recv`. -/
  | receiving
  /-- In `SendData`. -/
  | sending (bytes : Bytes)
  /-- After the loop, before `closed.exchange`. -/
  | exchanging (why : CloseReason)
  /-- Before the table. -/
  | erasing (ours : Bool) (why : CloseReason)
  /-- In `SendClose`. -/
  | closing (why : CloseReason)
  | done
  deriving DecidableEq, Repr

/-- Where a client's keepalive is. -/
inductive KeepalivePc
  /-- Not started, or returned. -/
  | stopped
  | waiting
  | sending
  deriving DecidableEq, Repr

/-- A thread of an endpoint. -/
inductive Thread
  | reader
  | forwarder
  | keepalive
  | pump (conn : ℕ)
  deriving DecidableEq, Repr

/-- `kChunk`. -/
def kChunk : ℕ := 32 * 1024

/-- **One end of a tunnel.** Connections are numbered in the order they are
added, `added` of them so far; `connId` is the stream each was added
under. -/
structure Endpoint where
  alive : Bool := true
  /-- Who holds `write_mu_`. -/
  writer : Option Thread := none
  conns : AList (fun _ : ℕ => ℕ) := ∅
  nextId : ℕ := 1
  added : ℕ := 0
  connId : ℕ → ℕ := fun _ => 0
  closed : ℕ → Bool := fun _ => false
  pump : ℕ → PumpPc := fun _ => .unborn
  /-- The registry, in which this session is number zero. -/
  registry : Registry := {}
  /-- The local `target` of the handler. -/
  target : Text := []
  reader : ReaderPc := .reading
  forwarder : ForwarderPc := .accepting
  keepalive : KeepalivePc := .stopped
  /-- What the pumps of each stream have read. -/
  read : ℕ → Bytes := fun _ => []
  /-- What was written to the sockets of each stream. -/
  written : ℕ → Bytes := fun _ => []
  sent : List Frame := []
  received : List Frame := []
  /-- What was handed to `write_` when `alive_` was false. -/
  late : List Frame := []

/-- A step of an endpoint. -/
inductive EndpointAct
  /-- `Read` returns a frame, or fails. -/
  | read (f : Option Frame)
  /-- The read loop goes on; `dialed` is the outcome of a dial. -/
  | reader (dialed : Bool)
  /-- `send` in `WriteAll` takes `k` bytes. -/
  | write (k : ℕ)
  | writeFailed
  /-- The forwarder goes on. -/
  | forwarder
  /-- `recv` of a pump returns bytes. -/
  | recv (conn : ℕ) (bytes : Bytes)
  /-- `recv` of a pump returns no bytes: the end, or an error. -/
  | recvEnd (conn : ℕ) (eof : Bool)
  /-- A pump goes on, after its loop. -/
  | pump (conn : ℕ)
  /-- The keepalive's time has come. -/
  | beat
  /-- A thread takes `write_mu_` in `Send`. -/
  | lock (t : Thread)
  /-- `write_` returns, and the thread lets go of `write_mu_`. -/
  | transmit (t : Thread) (ok : Bool)
  /-- Another session's handler changes the registry. -/
  | otherAdd (target : Text) (sess : ℕ)
  | otherRemove (target : Text) (sess : ℕ)
  deriving DecidableEq, Repr

namespace Endpoint

/-- `Session::AddConn`, with the state the connection's pump starts in. -/
def addConn (e : Endpoint) (id : ℕ) (pump : PumpPc) : Endpoint :=
  { e with
    conns := e.conns.insert id e.added
    connId := Function.update e.connId e.added id
    closed := Function.update e.closed e.added false
    pump := Function.update e.pump e.added pump
    added := e.added + 1 }

/-- `closed.store(true)`. -/
def store (e : Endpoint) (conn : ℕ) : Endpoint :=
  { e with closed := Function.update e.closed conn true }

/-- Where the read loop goes after `CloseConn`. -/
def afterClose : Option Frame → ReaderPc
  | none => .reading
  | some f => .sending f

/-! ## `Send` -/

/-- The frame a thread is in `Send` with. -/
def sending (target : Text) (e : Endpoint) : Thread → Option Frame
  | .reader =>
    match e.reader with
    | .registering => some (.register target)
    | .sending f => some f
    | _ => none
  | .forwarder =>
    match e.forwarder with
    | .opening id _ => some (.openStream id target)
    | _ => none
  | .keepalive =>
    match e.keepalive with
    | .sending => some .keepalive
    | _ => none
  | .pump c =>
    match e.pump c with
    | .sending bytes => some (.data (e.connId c) bytes)
    | .closing why => some (.close (e.connId c) why)
    | _ => none

/-- What a thread does with the result of `Send`. -/
def resume (e : Endpoint) (ok : Bool) : Thread → Endpoint
  | .reader =>
    match e.reader with
    | .registering =>
      { e with
        reader := if ok then .reading else .aborting
        keepalive := if ok then .waiting else .stopped }
    | _ => { e with reader := .reading }
  | .forwarder =>
    match e.forwarder with
    | .opening id c => { e with forwarder := if ok then .spawning c else .erasing id }
    | _ => e
  | .keepalive => { e with keepalive := if ok then .waiting else .stopped }
  | .pump c =>
    match e.pump c with
    | .sending _ =>
      { e with pump := Function.update e.pump c (if ok then .receiving else .exchanging .lost) }
    | _ => { e with pump := Function.update e.pump c .done }

/-! ## The threads -/

/-- The cases of the `switch`, each up to the first thing it shares. -/
def handle (side : Side) (target : Text) (e : Endpoint) (dialed : Bool) : Frame → Endpoint
  | .register t =>
    match side with
    | .server =>
      { e with reader := if e.target ≠ [] ∧ e.target ≠ t then .removing t else .adding t }
    | .client => { e with reader := .reading }
  | .openStream id t =>
    match side with
    | .server => { e with reader := .reading }
    | .client =>
      if t ≠ [] ∧ t ≠ target then { e with reader := .sending (.close id .mismatch) }
      else if dialed then { e.addConn id .receiving with reader := .reading }
      else { e with reader := .sending (.close id .dialFailed) }
  | .data id bytes =>
    match e.conns.lookup id with
    | none => { e with reader := .sending (.close id .unknown) }
    | some c => { e with reader := .writing id c bytes }
  | .close id _ => { e with reader := .erasing id none }
  | .registerAck _ => { e with reader := .reading }
  | .keepalive => { e with reader := .reading }

/-- The read loop, and the teardown after it. -/
def readerStep (side : Side) (target : Text) (e : Endpoint) (dialed : Bool) : Option Endpoint :=
  match e.reader with
  | .handling f => some (e.handle side target dialed f)
  | .removing t => some { e with registry := e.registry.remove e.target 0, reader := .adding t }
  | .adding t =>
    some { e with
      registry := e.registry.add t 0, target := t, reader := .sending (.registerAck t) }
  | .writing _ _ [] => some { e with reader := .reading }
  -- another thread may have closed the stream in the meantime
  | .erasing id reply =>
    match e.conns.lookup id with
    | none => some { e with reader := afterClose reply }
    | some c => some { e with conns := e.conns.erase id, reader := .storing c reply }
  | .storing c reply => some { e.store c with reader := afterClose reply }
  | .unwinding => some { e with registry := e.registry.remove e.target 0, reader := .stopping }
  -- `Shutdown` waits for the `Send` that is under way
  | .stopping =>
    if e.writer = none then some { e with alive := false, reader := .swapping } else none
  | .aborting =>
    if e.writer = none then some { e with alive := false, reader := .finished } else none
  | .swapping =>
    some { e with conns := ∅, reader := .closing (e.conns.entries.map fun entry => entry.2) }
  | .closing (c :: taken) => some { e.store c with reader := .closing taken }
  | .closing [] => some { e with reader := .finished }
  | _ => none

/-- `ForwarderLoop`. -/
def forwarderStep (side : Side) (target : Text) (e : Endpoint) : Option Endpoint :=
  match side, e.forwarder with
  | .server, .accepting => some { e with forwarder := .fetching }
  -- an entry of another session makes this an iteration about that one
  | .server, .fetching =>
    some { e with
      forwarder := if e.registry.get target = some 0 then .allocating else .accepting }
  | .server, .allocating =>
    some { e with nextId := e.nextId + 1, forwarder := .adding e.nextId }
  | .server, .adding id => some { e.addConn id .unborn with forwarder := .opening id e.added }
  | .server, .spawning c =>
    some { e with pump := Function.update e.pump c .receiving, forwarder := .accepting }
  | .server, .erasing id =>
    match e.conns.lookup id with
    | none => some { e with forwarder := .accepting }
    | some c => some { e with conns := e.conns.erase id, forwarder := .storing c }
  | .server, .storing c => some { e.store c with forwarder := .accepting }
  | _, _ => none

/-- `Pump`, after its loop. -/
def pumpStep (e : Endpoint) (c : ℕ) : Option Endpoint :=
  match e.pump c with
  -- marked before it is taken out: whoever marks it first announces the end
  | .exchanging why =>
    some { e.store c with pump := Function.update e.pump c (.erasing (!e.closed c) why) }
  | .erasing ours why =>
    some { e with
      conns := e.conns.erase (e.connId c)
      pump := Function.update e.pump c (if ours then .closing why else .done) }
  | _ => none

/-- **One step.** -/
def step (side : Side) (target : Text) (e : Endpoint) : EndpointAct → Option Endpoint
  | .read f =>
    match e.reader, f with
    | .reading, some f => some { e with received := e.received ++ [f], reader := .handling f }
    | .reading, none =>
      some { e with reader := match side with | .server => .unwinding | .client => .stopping }
    | _, _ => none
  | .reader dialed => e.readerStep side target dialed
  | .write k =>
    match e.reader with
    | .writing id c rest =>
      if 0 < k ∧ k ≤ rest.length then
        some { e with
          written := Function.update e.written (e.connId c)
            (e.written (e.connId c) ++ rest.take k)
          reader := .writing id c (rest.drop k) }
      else none
    | _ => none
  | .writeFailed =>
    match e.reader with
    | .writing id _ (_ :: _) =>
      some { e with reader := .erasing id (some (.close id .writeFailed)) }
    | _ => none
  | .forwarder => e.forwarderStep side target
  | .recv c bytes =>
    match e.pump c with
    | .receiving =>
      if 0 < bytes.length ∧ bytes.length ≤ kChunk then
        some { e with
          read := Function.update e.read (e.connId c) (e.read (e.connId c) ++ bytes)
          pump := Function.update e.pump c (.sending bytes) }
      else none
    | _ => none
  | .recvEnd c eof =>
    match e.pump c with
    | .receiving =>
      some { e with
        pump := Function.update e.pump c (.exchanging (if eof then .eof else .lost)) }
    | _ => none
  | .pump c => e.pumpStep c
  | .beat =>
    match side, e.keepalive with
    | .client, .waiting => some { e with keepalive := .sending }
    | _, _ => none
  | .lock t =>
    match e.writer, e.sending target t with
    | none, some _ => some (if e.alive then { e with writer := some t } else e.resume false t)
    | _, _ => none
  | .transmit t ok =>
    match e.sending target t with
    | some f =>
      if e.writer = some t then
        some { e.resume ok t with
          writer := none
          sent := if ok then e.sent ++ [f] else e.sent
          late := if e.alive then e.late else e.late ++ [f] }
      else none
    | none => none
  | .otherAdd t s => if s = 0 then none else some { e with registry := e.registry.add t s }
  | .otherRemove t s => if s = 0 then none else some { e with registry := e.registry.remove t s }

/-- An end before its session. -/
def fresh : Side → Endpoint
  | .server => {}
  | .client => { reader := .registering }

/-! ## What a step can do -/

/-- A step of the read loop that changes nothing but where it is, or the
registry. -/
inductive ReaderMoves (side : Side) (e : Endpoint) : ReaderPc → Prop
  | ended : e.reader = .reading →
      ReaderMoves side e (if side = .server then .unwinding else .stopping)
  | skipped {f : Frame} : e.reader = .handling f → (∀ n bytes, f ≠ .data n bytes) →
      (side = .client → ∀ n t, f ≠ .openStream n t) → ReaderMoves side e .reading
  | asked {t : Text} {r : ReaderPc} : e.reader = .handling (.register t) →
      r = .removing t ∨ r = .adding t → ReaderMoves side e r
  | removed {t : Text} : e.reader = .removing t → ReaderMoves side e (.adding t)
  | registered {t : Text} : e.reader = .adding t → ReaderMoves side e (.sending (.registerAck t))
  | refused {n : ℕ} {t : Text} {why : CloseReason} : e.reader = .handling (.openStream n t) →
      why = .mismatch ∨ why = .dialFailed → ReaderMoves side e (.sending (.close n why))
  | unknown {n : ℕ} {bytes : Bytes} : e.reader = .handling (.data n bytes) →
      e.conns.lookup n = none → ReaderMoves side e (.sending (.close n .unknown))
  | delivering {n c : ℕ} {bytes : Bytes} : e.reader = .handling (.data n bytes) →
      e.conns.lookup n = some c → ReaderMoves side e (.writing n c bytes)
  | delivered {n c : ℕ} : e.reader = .writing n c [] → ReaderMoves side e .reading
  | writeFailed {n c : ℕ} {b : UInt8} {rest : Bytes} : e.reader = .writing n c (b :: rest) →
      ReaderMoves side e (.erasing n (some (.close n .writeFailed)))
  | closed {n : ℕ} {why : CloseReason} : e.reader = .handling (.close n why) →
      ReaderMoves side e (.erasing n none)
  | gone {n : ℕ} {reply : Option Frame} : e.reader = .erasing n reply →
      e.conns.lookup n = none → ReaderMoves side e (afterClose reply)
  | unwound : e.reader = .unwinding → ReaderMoves side e .stopping
  | swept : e.reader = .closing [] → ReaderMoves side e .finished

/-- A step of the forwarder that changes nothing but where it is. -/
inductive ForwarderMoves (e : Endpoint) : ForwarderPc → Prop
  | accepted : e.forwarder = .accepting → ForwarderMoves e .fetching
  | fetched {pc : ForwarderPc} : e.forwarder = .fetching → pc = .allocating ∨ pc = .accepting →
      ForwarderMoves e pc
  | gone {n : ℕ} : e.forwarder = .erasing n → e.conns.lookup n = none → ForwarderMoves e .accepting

/-- The return of a thread from `Send` of `f`, with the state after it. -/
inductive Returns (target : Text) (e : Endpoint) (ok : Bool) : Frame → Thread → Endpoint → Prop
  | register : e.reader = .registering → Returns target e ok (.register target) .reader
      { e with
        reader := if ok then .reading else .aborting
        keepalive := if ok then .waiting else .stopped }
  | reader {f : Frame} : e.reader = .sending f →
      Returns target e ok f .reader { e with reader := .reading }
  | forwarder {n c : ℕ} : e.forwarder = .opening n c →
      Returns target e ok (.openStream n target) .forwarder
        { e with forwarder := if ok then .spawning c else .erasing n }
  | keepalive : e.keepalive = .sending → Returns target e ok .keepalive .keepalive
      { e with keepalive := if ok then .waiting else .stopped }
  | data {c : ℕ} {bytes : Bytes} : e.pump c = .sending bytes →
      Returns target e ok (.data (e.connId c) bytes) (.pump c)
        { e with pump := Function.update e.pump c (if ok then .receiving else .exchanging .lost) }
  | close {c : ℕ} {why : CloseReason} : e.pump c = .closing why →
      Returns target e ok (.close (e.connId c) why) (.pump c)
        { e with pump := Function.update e.pump c .done }

theorem returns_of_sending {target : Text} {e : Endpoint} {f : Frame} {t : Thread}
    (h : e.sending target t = some f) (ok : Bool) : Returns target e ok f t (e.resume ok t) := by
  cases t with
  | reader =>
    simp only [sending] at h
    simp only [resume]
    split at h
    case h_1 hr =>
      cases h
      rw [hr]
      exact .register hr
    case h_2 hr =>
      cases h
      rw [hr]
      exact .reader hr
    case h_3 => cases h
  | forwarder =>
    simp only [sending] at h
    simp only [resume]
    split at h
    case h_1 hf =>
      cases h
      exact .forwarder hf
    case h_2 => cases h
  | keepalive =>
    simp only [sending] at h
    split at h
    case h_1 hk =>
      cases h
      exact .keepalive hk
    case h_2 => cases h
  | pump c =>
    simp only [sending] at h
    simp only [resume]
    split at h
    case h_1 hp =>
      cases h
      rw [hp]
      exact .data hp
    case h_2 hp =>
      cases h
      rw [hp]
      exact .close hp
    case h_3 => cases h

/-- The return from `Send` leaves the table and the record alone. -/
theorem Returns.frame {target : Text} {e e' : Endpoint} {ok : Bool} {f : Frame} {t : Thread}
    (h : Returns target e ok f t e') : e'.sent = e.sent ∧ e'.received = e.received := by
  cases h <;> exact ⟨rfl, rfl⟩

/-- A write that returns leaves its frame in the record, or leaves the
record as it is. -/
theorem Returns.transmitted {target : Text} {e e' : Endpoint} {ok : Bool} {f : Frame} {t : Thread}
    (h : Returns target e ok f t e') {P : Endpoint → Prop} {late : List Frame}
    (hsent : Returns target e true f t e' →
      P { e' with writer := none, sent := e.sent ++ [f], late := late })
    (hfailed : Returns target e false f t e' → P { e' with writer := none, late := late }) :
    P { e' with
        writer := none, sent := if ok then e.sent ++ [f] else e.sent, late := late } := by
  cases ok with
  | true => exact hsent h
  | false => simpa only [Bool.false_eq_true, if_false, ← h.frame.1] using hfailed h

/-- **What a step can do.** -/
inductive Steps (side : Side) (target : Text) (e : Endpoint) : EndpointAct → Endpoint → Prop
  | read {f : Frame} : e.reader = .reading →
      Steps side target e (.read (some f))
        { e with received := e.received ++ [f], reader := .handling f }
  | moves {a : EndpointAct} {r : ReaderPc} (reg : Registry) (t : Text) : ReaderMoves side e r →
      Steps side target e a { e with reader := r, registry := reg, target := t }
  | dialed {a : EndpointAct} {n : ℕ} {t : Text} : side = .client →
      e.reader = .handling (.openStream n t) →
      Steps side target e a { e.addConn n .receiving with reader := .reading }
  | write {a : EndpointAct} {n c k : ℕ} {rest : Bytes} : e.reader = .writing n c rest →
      Steps side target e a
        { e with
          written := Function.update e.written (e.connId c)
            (e.written (e.connId c) ++ rest.take k)
          reader := .writing n c (rest.drop k) }
  | erase {a : EndpointAct} {n c : ℕ} {reply : Option Frame} : e.reader = .erasing n reply →
      e.conns.lookup n = some c →
      Steps side target e a { e with conns := e.conns.erase n, reader := .storing c reply }
  | store {a : EndpointAct} {c : ℕ} {reply : Option Frame} : e.reader = .storing c reply →
      Steps side target e a { e.store c with reader := afterClose reply }
  | stop {a : EndpointAct} : e.reader = .stopping → e.writer = none →
      Steps side target e a { e with alive := false, reader := .swapping }
  | abort {a : EndpointAct} : e.reader = .aborting → e.writer = none →
      Steps side target e a { e with alive := false, reader := .finished }
  | swap {a : EndpointAct} : e.reader = .swapping →
      Steps side target e a
        { e with conns := ∅, reader := .closing (e.conns.entries.map fun entry => entry.2) }
  | sweep {a : EndpointAct} {c : ℕ} {taken : List ℕ} : e.reader = .closing (c :: taken) →
      Steps side target e a { e.store c with reader := .closing taken }
  | forwarder {a : EndpointAct} {pc : ForwarderPc} : side = .server → ForwarderMoves e pc →
      Steps side target e a { e with forwarder := pc }
  | allocate {a : EndpointAct} : side = .server → e.forwarder = .allocating →
      Steps side target e a { e with nextId := e.nextId + 1, forwarder := .adding e.nextId }
  | add {a : EndpointAct} {n : ℕ} : side = .server → e.forwarder = .adding n →
      Steps side target e a { e.addConn n .unborn with forwarder := .opening n e.added }
  | spawn {a : EndpointAct} {c : ℕ} : side = .server → e.forwarder = .spawning c →
      Steps side target e a
        { e with pump := Function.update e.pump c .receiving, forwarder := .accepting }
  | forwarderErase {a : EndpointAct} {n c : ℕ} : side = .server → e.forwarder = .erasing n →
      e.conns.lookup n = some c →
      Steps side target e a { e with conns := e.conns.erase n, forwarder := .storing c }
  | forwarderStore {a : EndpointAct} {c : ℕ} : side = .server → e.forwarder = .storing c →
      Steps side target e a { e.store c with forwarder := .accepting }
  | recv {c : ℕ} {bytes : Bytes} : e.pump c = .receiving →
      Steps side target e (.recv c bytes)
        { e with
          read := Function.update e.read (e.connId c) (e.read (e.connId c) ++ bytes)
          pump := Function.update e.pump c (.sending bytes) }
  | recvEnd {a : EndpointAct} {c : ℕ} {why : CloseReason} : e.pump c = .receiving →
      Steps side target e a { e with pump := Function.update e.pump c (.exchanging why) }
  | exchange {a : EndpointAct} {c : ℕ} {why : CloseReason} : e.pump c = .exchanging why →
      Steps side target e a
        { e.store c with pump := Function.update e.pump c (.erasing (!e.closed c) why) }
  | pumpErase {a : EndpointAct} {c : ℕ} {ours : Bool} {why : CloseReason} :
      e.pump c = .erasing ours why →
      Steps side target e a
        { e with
          conns := e.conns.erase (e.connId c)
          pump := Function.update e.pump c (if ours then .closing why else .done) }
  | beat {a : EndpointAct} : e.keepalive = .waiting →
      Steps side target e a { e with keepalive := .sending }
  | lock {t : Thread} : e.writer = none → e.alive = true →
      Steps side target e (.lock t) { e with writer := some t }
  | dropped {t : Thread} {f : Frame} {e' : Endpoint} : e.writer = none → e.alive = false →
      Returns target e false f t e' → Steps side target e (.lock t) e'
  | transmit {t : Thread} {f : Frame} {ok : Bool} {e' : Endpoint} : e.writer = some t →
      Returns target e ok f t e' →
      Steps side target e (.transmit t ok)
        { e' with
          writer := none
          sent := if ok then e.sent ++ [f] else e.sent
          late := if e.alive then e.late else e.late ++ [f] }
  | others {a : EndpointAct} (reg : Registry) : Steps side target e a { e with registry := reg }

theorem steps_of_handle {side : Side} {target : Text} {e : Endpoint} {dialed : Bool} {f : Frame}
    {a : EndpointAct} (hr : e.reader = .handling f) :
    Steps side target e a (e.handle side target dialed f) := by
  cases f with
  | register t =>
    cases side with
    | server =>
      refine .moves e.registry e.target (.asked hr ?_)
      by_cases h : e.target ≠ [] ∧ e.target ≠ t
      · exact .inl (if_pos h)
      · exact .inr (if_neg h)
    | client => exact .moves e.registry e.target (.skipped hr (by simp) (by simp))
  | registerAck t => exact .moves e.registry e.target (.skipped hr (by simp) (by simp))
  | openStream n t =>
    cases side with
    | server => exact .moves e.registry e.target (.skipped hr (by simp) (by simp))
    | client =>
      simp only [handle]
      split
      · exact .moves e.registry e.target (.refused hr (.inl rfl))
      · split
        · exact .dialed rfl hr
        · exact .moves e.registry e.target (.refused hr (.inr rfl))
  | data n bytes =>
    simp only [handle]
    split
    case h_1 hl => exact .moves e.registry e.target (.unknown hr hl)
    case h_2 c hl => exact .moves e.registry e.target (.delivering hr hl)
  | close n why => exact .moves e.registry e.target (.closed hr)
  | keepalive => exact .moves e.registry e.target (.skipped hr (by simp) (by simp))

theorem steps_of_readerStep {side : Side} {target : Text} {e e' : Endpoint} {dialed : Bool}
    {a : EndpointAct} (h : e.readerStep side target dialed = some e') :
    Steps side target e a e' := by
  simp only [readerStep] at h
  split at h
  case h_1 f hr => exact Option.some.inj h ▸ steps_of_handle hr
  case h_2 t hr => exact Option.some.inj h ▸ .moves _ _ (.removed hr)
  case h_3 t hr => exact Option.some.inj h ▸ .moves _ _ (.registered hr)
  case h_4 n c hr => exact Option.some.inj h ▸ .moves _ _ (.delivered hr)
  case h_5 n reply hr =>
    split at h
    case h_1 hl => exact Option.some.inj h ▸ .moves _ _ (.gone hr hl)
    case h_2 c hl => exact Option.some.inj h ▸ .erase hr hl
  case h_6 c reply hr => exact Option.some.inj h ▸ .store hr
  case h_7 hr => exact Option.some.inj h ▸ .moves _ _ (.unwound hr)
  case h_8 hr =>
    split at h
    case isTrue hw => exact Option.some.inj h ▸ .stop hr hw
    case isFalse => cases h
  case h_9 hr =>
    split at h
    case isTrue hw => exact Option.some.inj h ▸ .abort hr hw
    case isFalse => cases h
  case h_10 hr => exact Option.some.inj h ▸ .swap hr
  case h_11 c taken hr => exact Option.some.inj h ▸ .sweep hr
  case h_12 hr => exact Option.some.inj h ▸ .moves _ _ (.swept hr)
  case h_13 => cases h

theorem steps_of_forwarderStep {side : Side} {target : Text} {e e' : Endpoint} {a : EndpointAct}
    (h : e.forwarderStep side target = some e') : Steps side target e a e' := by
  simp only [forwarderStep] at h
  split at h
  case h_1 hf => exact Option.some.inj h ▸ .forwarder rfl (.accepted hf)
  case h_2 hf =>
    refine Option.some.inj h ▸ .forwarder rfl (.fetched hf ?_)
    by_cases hg : e.registry.get target = some 0
    · exact .inl (if_pos hg)
    · exact .inr (if_neg hg)
  case h_3 hf => exact Option.some.inj h ▸ .allocate rfl hf
  case h_4 n hf => exact Option.some.inj h ▸ .add rfl hf
  case h_5 c hf => exact Option.some.inj h ▸ .spawn rfl hf
  case h_6 n hf =>
    split at h
    case h_1 hl => exact Option.some.inj h ▸ .forwarder rfl (.gone hf hl)
    case h_2 c hl => exact Option.some.inj h ▸ .forwarderErase rfl hf hl
  case h_7 c hf => exact Option.some.inj h ▸ .forwarderStore rfl hf
  case h_8 => cases h

theorem steps_of_step {side : Side} {target : Text} {e e' : Endpoint} {a : EndpointAct}
    (h : e.step side target a = some e') : Steps side target e a e' := by
  cases a with
  | read f =>
    simp only [step] at h
    split at h
    case h_1 f hr => exact Option.some.inj h ▸ .read hr
    case h_2 hr =>
      have : ReaderMoves side e (if side = .server then .unwinding else .stopping) := .ended hr
      cases side <;> exact Option.some.inj h ▸ .moves e.registry e.target this
    case h_3 => cases h
  | reader dialed => exact steps_of_readerStep h
  | write k =>
    simp only [step] at h
    split at h
    case h_1 n c rest hr =>
      split at h
      case isTrue => exact Option.some.inj h ▸ .write hr
      case isFalse => cases h
    case h_2 => cases h
  | writeFailed =>
    simp only [step] at h
    split at h
    case h_1 n c b rest hr => exact Option.some.inj h ▸ .moves e.registry e.target (.writeFailed hr)
    case h_2 => cases h
  | forwarder => exact steps_of_forwarderStep h
  | recv c bytes =>
    simp only [step] at h
    split at h
    case h_1 hp =>
      split at h
      case isTrue => exact Option.some.inj h ▸ .recv hp
      case isFalse => cases h
    case h_2 => cases h
  | recvEnd c eof =>
    simp only [step] at h
    split at h
    case h_1 hp => exact Option.some.inj h ▸ .recvEnd hp
    case h_2 => cases h
  | pump c =>
    simp only [step, pumpStep] at h
    split at h
    case h_1 why hp => exact Option.some.inj h ▸ .exchange hp
    case h_2 ours why hp => exact Option.some.inj h ▸ .pumpErase hp
    case h_3 => cases h
  | beat =>
    simp only [step] at h
    split at h
    case h_1 hk => exact Option.some.inj h ▸ .beat hk
    case h_2 => cases h
  | lock t =>
    simp only [step] at h
    split at h
    case h_1 f hw hs =>
      by_cases ha : e.alive = true
      · rw [if_pos ha] at h
        exact Option.some.inj h ▸ .lock hw ha
      · rw [if_neg ha] at h
        exact Option.some.inj h ▸ .dropped hw (by simpa using ha) (returns_of_sending hs false)
    case h_2 => cases h
  | transmit t ok =>
    simp only [step] at h
    split at h
    case h_1 f hs =>
      split at h
      case isTrue hw => exact Option.some.inj h ▸ .transmit hw (returns_of_sending hs ok)
      case isFalse => cases h
    case h_2 => cases h
  | otherAdd t s =>
    simp only [step] at h
    split at h
    case isTrue => cases h
    case isFalse => exact Option.some.inj h ▸ .others _
  | otherRemove t s =>
    simp only [step] at h
    split at h
    case isTrue => cases h
    case isFalse => exact Option.some.inj h ▸ .others _

/-- The read loop has a frame in hand, and is in no call that can block. -/
def Busy : ReaderPc → Prop
  | .handling _ => True
  | .erasing _ _ => True
  | .storing _ _ => True
  | _ => False

/-- Nothing but its own step takes a busy read loop on. -/
theorem reader_of_busy {side : Side} {target : Text} {e e' : Endpoint} {a : EndpointAct}
    (h : e.step side target a = some e') (hr : Busy e.reader) :
    e'.reader = e.reader ∨ ∃ dialed, a = .reader dialed := by
  have hreturns : ∀ {ok f t e'}, Returns target e ok f t e' → e'.reader = e.reader := by
    intro ok f t e' hret
    cases hret with
    | register hreg => simp [hreg, Busy] at hr
    | reader hsend => simp [hsend, Busy] at hr
    | _ => rfl
  cases a with
  | reader dialed => exact .inr ⟨dialed, rfl⟩
  | read f =>
    simp only [step] at h
    split at h
    case h_1 hread => simp [hread, Busy] at hr
    case h_2 hread => simp [hread, Busy] at hr
    case h_3 => cases h
  | write k =>
    simp only [step] at h
    split at h
    case h_1 hwrite => simp [hwrite, Busy] at hr
    case h_2 => cases h
  | writeFailed =>
    simp only [step] at h
    split at h
    case h_1 hwrite => simp [hwrite, Busy] at hr
    case h_2 => cases h
  | lock t =>
    simp only [step] at h
    split at h
    case h_1 f hw hs =>
      obtain rfl := Option.some.inj h
      split
      · exact .inl rfl
      · exact .inl (hreturns (returns_of_sending hs false))
    case h_2 => cases h
  | transmit t ok =>
    simp only [step] at h
    split at h
    case h_1 f hs =>
      split at h
      case isTrue =>
        have hsame : (e.resume ok t).reader = e.reader := hreturns (returns_of_sending hs ok)
        exact .inl (Option.some.inj h ▸ hsame)
      case isFalse => cases h
    case h_2 => cases h
  | _ =>
    -- the other threads leave the read loop where it is
    simp only [step, forwarderStep, pumpStep] at h
    repeat' split at h
    all_goals first
      | exact .inl (Option.some.inj h ▸ rfl)
      | cases h

/-- What was sent stays sent, and only a read is recorded as received. -/
theorem Steps.record {side : Side} {target : Text} {e e' : Endpoint} {a : EndpointAct}
    (h : Steps side target e a e') :
    e.sent <+: e'.sent ∧ (e'.received = e.received ∨
      ∃ f, a = .read (some f) ∧ e'.received = e.received ++ [f]) := by
  cases h with
  | @read f hr => exact ⟨List.prefix_refl _, .inr ⟨f, rfl, rfl⟩⟩
  | dropped hw ha hret => exact ⟨hret.frame.1 ▸ List.prefix_refl _, .inl hret.frame.2⟩
  | @transmit t f ok e' hw hret =>
    refine ⟨?_, .inl hret.frame.2⟩
    cases ok
    · exact List.prefix_refl _
    · exact List.prefix_append _ _
  | _ => exact ⟨List.prefix_refl _, .inl rfl⟩

end Endpoint

end ZeroTouch
