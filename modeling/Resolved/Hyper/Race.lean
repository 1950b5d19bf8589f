import Resolved.Hyper.Packet
import Resolved.Net

/-!
# Flights and races

A call joins the flight of another call for its question, or leads one and races the upstreams.
-/

/-!
## Single flights

The registry of the questions that are being resolved. A flight is known by a number, which stands
for the identity of its broadcast channel; no number is used twice.
-/

namespace Resolved.Hyper

abbrev FlightId := Nat

abbrev FlightResult := Except Unit RrMeta

structure Channel where
  senders : Nat
  sent : Option FlightResult
deriving DecidableEq

inductive LeadOrFollow where
  | lead (flight : FlightId)
  | follow (flight : FlightId)
deriving DecidableEq, Repr

structure Singleflight where
  inner : CacheKey → Option FlightId
  channels : FlightId → Channel
  fresh : FlightId

namespace Singleflight

def new : Singleflight := ⟨fun _ => none, fun _ => ⟨0, none⟩, 0⟩

variable (flights : Singleflight)

def joinOrLead (key : CacheKey) : LeadOrFollow × Singleflight :=
  match flights.inner key with
  | some flight => (.follow flight, flights)
  | none => (.lead flights.fresh,
    { inner := Function.update flights.inner key (some flights.fresh)
      channels := Function.update flights.channels flights.fresh ⟨2, none⟩
      fresh := flights.fresh + 1 })

def dropSender (flight : FlightId) : Singleflight :=
  let channel := flights.channels flight
  { flights with
    channels := Function.update flights.channels flight
      { channel with senders := channel.senders - 1 } }

def finish (key : CacheKey) : Singleflight :=
  match flights.inner key with
  | some flight =>
    { flights.dropSender flight with inner := Function.update flights.inner key none }
  | none => flights

def send (flight : FlightId) (result : FlightResult) : Singleflight :=
  Singleflight.dropSender { flights with
    channels := Function.update flights.channels flight
      { flights.channels flight with sent := some result } } flight

/-- What `recv` returns: what was sent, or that the channel is closed; `none` while it waits. A
follower has subscribed before its flight was finished, and so before anything was sent. -/
def recv (flight : FlightId) : Option (Option FlightResult) :=
  let channel := flights.channels flight
  match channel.sent with
  | some result => some (some result)
  | none => if channel.senders = 0 then some none else none

end Singleflight

/-!
## The race of upstreams

One query goes to several upstreams at once, each time with an id of its own; the first valid
response wins.
-/

open Lib Wire

structure Upstream where
  id : Nat
  addr : SocketAddr
deriving DecidableEq, Repr

structure UpstreamScore where
  upstreamId : Nat
  reachable : Bool
deriving DecidableEq, Repr

def ranked (k : Nat) (upstreams : List Upstream) (scores : List UpstreamScore) : List Upstream :=
  let best := ((scores.filter (·.reachable)).filterMap fun score =>
    upstreams.find? (·.id = score.upstreamId)).take k
  if best = [] then upstreams.take k else best

def withId (template : Bytes) (id : UInt16) : Bytes :=
  if 2 ≤ template.length then overwrite template 0 (toBe16 id.toNat) else template

def idPasses (id : UInt16) : Bytes → Bool
  | a :: b :: _ => be16 a b = id.toNat
  | _ => true

def attemptItem (validate : Bytes → Upstream → HResult Unit) (up : Upstream) (id : UInt16)
    (raw : Bytes) : HResult PacketView :=
  if idPasses id raw then do
    let packet ← PacketView.new raw
    validate packet.raw up
    return packet
  else .error .txidMismatch

def onItem {α : Type} (lastErr : HyperError) : HResult α → HResult α ⊕ HyperError
  | .ok item => .inl (.ok item)
  | .error .cancelled => .inr lastErr
  | .error error => .inr error

end Resolved.Hyper
