import Resolved.Exchange.State

/-!
# One exchange over UDP, TCP or TLS

What the sockets do is given: whether one could be opened, what was sent and received.
-/

namespace Resolved.Exchange
open Lib Wire Links

def wireResult {α : Type} : Except WireError α → Except ResolveError α
  | .ok value => .ok value
  | .error error => .error (.wire error)

structure UdpIo where
  taken : Except ResolveError Unit
  sent : Except IoError Nat
  /-- The datagrams received in time, each with its fragment size, and what then ends the wait. -/
  datagrams : List (Packet × Nat)
  stopped : IoError

def exchangeUdp (query : Packet) (io : UdpIo) : Except ResolveError (Packet × Nat) :=
  match io.taken with
  | .error error => .error error
  | .ok () =>
    match io.sent with
    | .error error => .error (.io error)
    | .ok sent =>
      if sent ≠ query.length then .error (.protocol "short UDP send")
      else
        match io.datagrams.find? fun datagram =>
            (responseMatches query datagram.1).toOption.isSome with
        | some datagram => .ok datagram
        | none => .error (.io io.stopped)

structure StreamIo where
  taken : Except ResolveError Bool
  first : Except IoError Packet
  timeLeft : Bool
  opened : Except ResolveError Unit
  second : Except IoError Packet

structure StreamTexts where
  limit : String
  short : String
  truncated : String

def exchangeOnStream (texts : StreamTexts) (query : Packet) (frame : Except IoError Packet) :
    Except ResolveError Packet :=
  if query.length > 65535 then .error (.protocol texts.limit)
  else
    match frame with
    | .error error => .error (.io error)
    | .ok response =>
      if response.length < dnsHeaderLen then .error (.protocol texts.short)
      else do
        wireResult (responseMatches query response)
        let header ← wireResult (Header.parse response)
        if header.truncated then throw (.protocol texts.truncated) else return response

def exchangeTcpStream : Packet → Except IoError Packet → Except ResolveError Packet :=
  exchangeOnStream {
    limit := "DNS query exceeds the TCP frame limit"
    short := "short DNS-over-TCP frame"
    truncated := "truncated DNS-over-TCP response" }

def exchangeTlsStream : Packet → Except IoError Packet → Except ResolveError Packet :=
  exchangeOnStream {
    limit := "DNS query exceeds the TLS frame limit"
    short := "short DNS-over-TLS frame"
    truncated := "truncated DNS-over-TLS response" }

def exchangeStreams (send : Packet → Except IoError Packet → Except ResolveError Packet)
    (query : Packet) (io : StreamIo) : Except ResolveError Packet :=
  match io.taken with
  | .error error => .error error
  | .ok reused =>
    match send query io.first with
    | .ok response => .ok response
    | .error error =>
      if !reused ∨ !io.timeLeft then .error error
      else
        match io.opened with
        | .error error => .error error
        | .ok () => send query io.second

def exchangeTcp : Packet → StreamIo → Except ResolveError Packet := exchangeStreams exchangeTcpStream

def exchangeTls : Packet → StreamIo → Except ResolveError Packet := exchangeStreams exchangeTlsStream

end Resolved.Exchange
