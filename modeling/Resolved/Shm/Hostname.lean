import Resolved.Shm.Stub

/-!
# Addresses from the stub

What the NSS module takes from the responses to its two queries. `out` and `count` keep what was put
into them when a function fails.
-/

namespace Resolved.Shm
open Lib Wire

/-- `inet_ntop` into a buffer of `INET6_ADDRSTRLEN` octets. -/
structure InetNtop where
  text : Bytes → Bytes
  short : ∀ address, (text address).length < 46

inductive ReplyErrno where
  | stub (cause : StubErrno)
  | eagain
  | enoent
  | eio
  | enodata
  | io (code : Nat)
deriving DecidableEq, Repr

def responseRcode (response : Bytes) : Except ReplyErrno Unit :=
  if response.length < dnsHeaderLen then .error (.stub .eproto)
  else
    let rcode := response.getD 3 0 &&& 0x0f
    if rcode = 0 then .ok ()
    else if rcode = 2 then .error .eagain
    else if rcode = 3 then .error .enoent
    else .error .eio

def skipQuestions (response : Bytes) : Nat → Nat → Except StubErrno Nat
  | 0, offset => .ok offset
  | questions + 1, offset => do
    let (_, offset) ← dnsExpandName response offset
    if response.length < offset + 4 then .error .eproto
    else skipQuestions response questions (offset + 4)

def appendUnique (out : List Bytes) (max : Nat) (address : Bytes) : Except StubErrno (List Bytes) :=
  if address ∈ out then .ok out
  else if max ≤ out.length then .ok out
  else if 64 ≤ address.length then .error .emsgsize
  else .ok (out ++ [address])

structure StubRecord where
  rrType : Nat
  cls : Nat
  dataOffset : Nat
  dataLength : Nat

def readAnswer (response : Bytes) (offset : Nat) : Except StubErrno StubRecord := do
  let (_, offset) ← dnsExpandName response offset
  if response.length < offset + 10 then .error .eproto
  else
    let dataLength := stubReadU16 response (offset + 8)
    if response.length < offset + 10 + dataLength then .error .eproto
    else
      .ok ⟨stubReadU16 response offset, stubReadU16 response (offset + 2), offset + 10, dataLength⟩

def addressText (ntop : InetNtop) (response : Bytes) (record : StubRecord) : Option Bytes :=
  if record.cls = classIn ∧ (record.rrType = typeA ∧ record.dataLength = 4 ∨
      record.rrType = typeAaaa ∧ record.dataLength = 16) then
    some (ntop.text ((response.drop record.dataOffset).take record.dataLength))
  else none

def answerLoop (ntop : InetNtop) (max : Nat) (response : Bytes) :
    Nat → Nat → List Bytes → List Bytes × Except StubErrno Unit
  | 0, _, out => (out, .ok ())
  | answers + 1, offset, out =>
    match readAnswer response offset with
    | .error cause => (out, .error cause)
    | .ok record =>
      match (addressText ntop response record).elim (.ok out) (appendUnique out max) with
      | .error cause => (out, .error cause)
      | .ok out => answerLoop ntop max response answers (record.dataOffset + record.dataLength) out

def parseAddresses (ntop : InetNtop) (max : Nat) (response : Bytes) (out : List Bytes) :
    List Bytes × Except ReplyErrno Unit :=
  match responseRcode response with
  | .error cause => (out, .error cause)
  | .ok () =>
    match skipQuestions response (stubReadU16 response 4) dnsHeaderLen with
    | .error cause => (out, .error (.stub cause))
    | .ok offset =>
      match answerLoop ntop max response (stubReadU16 response 6) offset out with
      | (out, .error cause) => (out, .error (.stub cause))
      | (out, .ok ()) => (out, if out = [] then .error .enodata else .ok ())

def resolveType (ntop : InetNtop) (max : Nat) (answer : Except ReplyErrno Bytes)
    (out : List Bytes) : List Bytes × Except ReplyErrno Unit :=
  match answer with
  | .error cause => (out, .error cause)
  | .ok response => parseAddresses ntop max response out

def resolveSecond (ntop : InetNtop) (max : Nat) (answer : Except ReplyErrno Bytes)
    (out : List Bytes) : List Bytes × Except ReplyErrno Unit :=
  if out.length < max then resolveType ntop max answer out else (out, .ok ())

/-- `errno` after a call, where zero stands for no error: `stub_endpoint` can fail without setting
it. -/
def errnoAfter : Except ReplyErrno Unit → Option ReplyErrno
  | .ok () => none
  | .error cause => if cause = .io 0 then none else some cause

/-- `query` is what `dns_query` returns for a type, with `errno` where it fails. -/
def srStubResolveHostname (ntop : InetNtop) (name : Bytes) (max : Nat)
    (query : Nat → Except ReplyErrno Bytes) : Except ReplyErrno (List Bytes) :=
  if name = [] ∨ max = 0 then .error (.stub .einval)
  else
    let first := resolveType ntop max (query typeA) []
    let second := resolveSecond ntop max (query typeAaaa) first.1
    if second.1 = [] then .error ((errnoAfter first.2 <|> errnoAfter second.2).getD .enodata)
    else .ok second.1

end Resolved.Shm
