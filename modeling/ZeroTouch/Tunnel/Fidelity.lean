import ZeroTouch.Tunnel.Receiver
import ZeroTouch.Tunnel.Sender
/-!
# The two ends of a tunnel

A server's end and a client's, each reading what the other has sent, in
order. Every invariant of an end asks something of what it reads, and what
it reads is what the other end's invariants say was sent: a client reads a
stream's `OPEN` before its bytes because the server sends it so, and a
server reads bytes of streams it has opened, since the client answers only
those. So the bytes that come out of a stream are those that went in
(`written_prefix_read`).
-/

namespace ZeroTouch

/-- The other end. -/
def Side.other : Side → Side
  | .server => .client
  | .client => .server

@[simp] theorem Side.other_other (side : Side) : side.other.other = side := by cases side <;> rfl

theorem Side.other_ne (side : Side) : side.other ≠ side := by cases side <;> decide

theorem Side.eq_or_eq_other (side side' : Side) : side' = side ∨ side' = side.other := by
  cases side <;> cases side' <;> decide

/-- **A tunnel.** -/
structure Tunnel where
  server : Endpoint := .fresh .server
  client : Endpoint := .fresh .client

namespace Tunnel

/-- One end of the tunnel. -/
def endpoint (net : Tunnel) : Side → Endpoint
  | .server => net.server
  | .client => net.client

/-- Set one end of the tunnel. -/
def set (net : Tunnel) (side : Side) (e : Endpoint) : Tunnel :=
  match side with
  | .server => { net with server := e }
  | .client => { net with client := e }

@[simp] theorem endpoint_set_self (net : Tunnel) (side : Side) (e : Endpoint) :
    (net.set side e).endpoint side = e := by cases side <;> rfl

theorem endpoint_set_of_ne (net : Tunnel) {side side' : Side} (h : side' ≠ side) (e : Endpoint) :
    (net.set side e).endpoint side' = net.endpoint side' := by
  cases side <;> cases side' <;> first | rfl | exact absurd rfl h

/-- What holds of one end after its step, and held of both before it, holds
of both. -/
theorem forall_set {P : Side → Endpoint → Prop} {net : Tunnel} {side : Side} {e : Endpoint}
    (he : P side e) (hall : ∀ s, P s (net.endpoint s)) (s : Side) :
    P s ((net.set side e).endpoint s) := by
  by_cases hs : s = side
  · subst hs
    simpa using he
  · rw [endpoint_set_of_ne net hs]
    exact hall s

/-- What is under way to an end: what the other has sent and it has not
read. -/
def underWay (net : Tunnel) (side : Side) : List Frame :=
  (net.endpoint side.other).sent.drop (net.endpoint side).received.length

/-- An end reads the first frame that is under way to it. -/
def delivers (net : Tunnel) (side : Side) : EndpointAct → Bool
  | .read (some f) => (net.underWay side).head? == some f
  | _ => true

/-- One step of one end. `target` is the forwarder's at the server and the
name the client registers. -/
def step (target : Side → Text) (net : Tunnel) : Side × EndpointAct → Option Tunnel
  | (side, a) =>
    if net.delivers side a then
      ((net.endpoint side).step side (target side) a).map (net.set side)
    else none

/-- The invariants of both ends, and that they read what was sent. -/
structure Sound (net : Tunnel) : Prop where
  tabled : ∀ side, Endpoint.Tabled side (net.endpoint side)
  pumped : ∀ side, Endpoint.Pumped (net.endpoint side)
  written : ∀ side, Endpoint.Written side (net.endpoint side)
  opened : Endpoint.Opened net.server
  fifo : ∀ side, (net.endpoint side).received <+: (net.endpoint side.other).sent

theorem sound_init : Sound {} where
  tabled := by
    rintro (_ | _)
    · exact Endpoint.tabled_fresh .server
    · exact Endpoint.tabled_fresh .client
  pumped := by
    rintro (_ | _)
    · exact Endpoint.pumped_fresh .server
    · exact Endpoint.pumped_fresh .client
  written := by
    rintro (_ | _)
    · exact Endpoint.written_fresh .server
    · exact Endpoint.written_fresh .client
  opened := Endpoint.opened_fresh
  fifo := by
    rintro (_ | _) <;> exact List.nil_prefix

/-- The frame an end reads is the next its peer sent. -/
theorem Sound.split {net : Tunnel} (hn : Sound net) {side : Side} {f : Frame}
    (h : net.delivers side (.read (some f))) :
    ∃ rest, (net.endpoint side.other).sent = (net.endpoint side).received ++ f :: rest := by
  obtain ⟨more, hmore⟩ := hn.fifo side
  have hhead : more.head? = some f := by
    simpa [delivers, underWay, ← hmore] using h
  obtain ⟨rest, rfl⟩ := List.head?_eq_some_iff.1 hhead
  exact ⟨rest, hmore.symm⟩

/-- **What an end reads is what it may read.** -/
theorem Sound.expected {net : Tunnel} (hn : Sound net) {side : Side} {f : Frame}
    (h : net.delivers side (.read (some f))) : (net.endpoint side).Expected side f := by
  obtain ⟨rest, hsplit⟩ := hn.split h
  cases side with
  | server =>
    -- the client sends bytes of the streams it was asked to open
    rintro n bytes rfl hfresh
    have hsent : Frame.data n bytes ∈ net.client.sent := by
      have : net.client.sent = net.server.received ++ .data n bytes :: rest := hsplit
      simp [this]
    have hconn : ¬ net.client.Fresh n := fun hc => ((hn.pumped .client).fresh n hc).1 bytes hsent
    obtain ⟨c, hc, hid⟩ : ∃ c < net.client.added, net.client.connId c = n := by
      simpa [Endpoint.Fresh] using hconn
    have hopens : Opens n net.client.received := hid ▸ ((hn.tabled .client).client rfl).2.1 c hc
    exact hn.opened.not_opens hfresh (hopens.mono fun g hg => (hn.fifo .client).subset hg)
  | client => exact hn.opened.wellOpened _ f rest hsplit

/-- **Every step of either end keeps both sound.** -/
theorem Sound.step {target : Side → Text} {net net' : Tunnel} {a : Side × EndpointAct}
    (hn : Sound net) (h : net.step target a = some net') : Sound net' := by
  obtain ⟨side, a⟩ := a
  simp only [Tunnel.step] at h
  split at h
  case isFalse => cases h
  case isTrue hdel =>
    obtain ⟨e, he, rfl⟩ := Option.map_eq_some_iff.1 h
    have hsteps := Endpoint.steps_of_step he
    have hexp : ∀ f, a = .read (some f) → (net.endpoint side).Expected side f := by
      rintro f rfl
      exact hn.expected hdel
    have htab : Endpoint.Tabled side e := (hn.tabled side).step hsteps fun f hf hside => by
      have := hexp f hf
      subst hside
      exact this
    have hpump : Endpoint.Pumped e := (hn.pumped side).step (hn.tabled side) hsteps
    have hwrit : Endpoint.Written side e := (hn.written side).step (hn.tabled side) hsteps hexp
    obtain ⟨hsent, hrec⟩ := hsteps.record
    refine
      { tabled := forall_set htab hn.tabled
        pumped := forall_set (P := fun _ => Endpoint.Pumped) hpump hn.pumped
        written := forall_set hwrit hn.written
        opened := ?_
        fifo := fun s => ?_ }
    · cases side with
      | server => exact hn.opened.step (hn.pumped .server) (hn.tabled .server) hsteps
      | client => exact hn.opened
    · rcases Side.eq_or_eq_other side s with rfl | rfl
      · rw [endpoint_set_self, endpoint_set_of_ne net s.other_ne]
        rcases hrec with hrec | ⟨f, rfl, hrec⟩
        · rw [hrec]
          exact hn.fifo s
        · obtain ⟨rest, hsplit⟩ := hn.split hdel
          exact ⟨rest, by rw [hrec, hsplit]; simp⟩
      · rw [Side.other_other, endpoint_set_self, endpoint_set_of_ne net side.other_ne]
        have := hn.fifo side.other
        rw [Side.other_other] at this
        exact this.trans hsent

/-- **What comes out of a stream is what went in.** At each end, the bytes
written to a stream's socket are the first of those the other end has read
from its own; and where the other end has closed the stream because it came
to the end of its socket, and this one still holds the stream, they are all
of them. -/
theorem written_prefix_read {target : Side → Text} {as : List (Side × EndpointAct)} {net : Tunnel}
    (h : exec (step target) {} as = some net) (side : Side) (n : ℕ) :
    (net.endpoint side).written n <+: (net.endpoint side.other).read n ∧
      ∀ c, (net.endpoint side).received.getLast? = some (.close n .eof) →
        (net.endpoint side).conns.lookup n = some c →
        (net.endpoint side).written n = (net.endpoint side.other).read n := by
  have hn : Sound net := exec_invariant (fun _ _ _ hI hs => Sound.step hI hs) sound_init h
  constructor
  · calc (net.endpoint side).written n
        <+: payloads n (net.endpoint side).received := (hn.written side).isPrefix n
      _ <+: payloads n (net.endpoint side.other).sent := payloads_mono n (hn.fifo side)
      _ <+: (net.endpoint side.other).read n := (hn.pumped side.other).isPrefix n
  · intro c hlast hc
    obtain ⟨before, hreceived⟩ := List.getLast?_eq_some_iff.1 hlast
    obtain ⟨rest, hsent⟩ := hn.fifo side
    have hsplit : (net.endpoint side.other).sent = before ++ .close n .eof :: rest := by
      simp [← hsent, hreceived]
    calc (net.endpoint side).written n
        = payloads n (net.endpoint side).received :=
          (hn.written side).of_close (hn.tabled side) hlast hc
      _ = payloads n before := by simp [hreceived, Frame.payload]
      _ = (net.endpoint side.other).read n := ((hn.pumped side.other).eof n before rest hsplit).1

/-- A stream is opened, carries two bytes to the client and is closed. -/
def helloStream : List (Side × EndpointAct) :=
  [(.client, .lock .reader), (.client, .transmit .reader true),
    (.server, .read (some (.register "edge-1".toList))), (.server, .reader false),
    (.server, .reader false), (.server, .lock .reader), (.server, .transmit .reader true),
    (.server, .forwarder), (.server, .forwarder), (.server, .forwarder), (.server, .forwarder),
    (.server, .lock .forwarder), (.server, .transmit .forwarder true), (.server, .forwarder),
    (.client, .read (some (.registerAck "edge-1".toList))), (.client, .reader false),
    (.client, .read (some (.openStream 1 "edge-1".toList))), (.client, .reader true),
    (.server, .recv 0 [104, 105]), (.server, .lock (.pump 0)), (.server, .transmit (.pump 0) true),
    (.server, .recvEnd 0 true), (.server, .pump 0), (.server, .pump 0), (.server, .lock (.pump 0)),
    (.server, .transmit (.pump 0) true),
    (.client, .read (some (.data 1 [104, 105]))), (.client, .reader false), (.client, .write 1),
    (.client, .write 1), (.client, .reader false), (.client, .read (some (.close 1 .eof)))]

theorem written_prefix_read_helloStream :
    ∃ net, exec (step fun _ => "edge-1".toList) {} helloStream = some net ∧
      net.client.received.getLast? = some (.close 1 .eof) ∧
      net.client.conns.lookup 1 = some 0 ∧ net.client.written 1 = [104, 105] ∧
      net.client.written 1 <+: net.server.read 1 ∧ net.client.written 1 = net.server.read 1 := by
  have hrun : (exec (step fun _ => "edge-1".toList) {} helloStream).any (fun net =>
      decide (net.client.received.getLast? = some (.close 1 .eof) ∧
        net.client.conns.lookup 1 = some 0 ∧ net.client.written 1 = [104, 105])) = true := by
    decide +kernel
  obtain ⟨net, hnet, hfacts⟩ := (Option.any_eq_true _ _).1 hrun
  obtain ⟨hlast, hconn, hwritten⟩ := of_decide_eq_true hfacts
  obtain ⟨hpre, hclose⟩ := written_prefix_read hnet .client 1
  exact ⟨net, hnet, hlast, hconn, hwritten, hpre, hclose 0 hlast hconn⟩

end Tunnel

end ZeroTouch
