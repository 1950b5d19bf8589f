import Resolved.Lib.Utf8
import Resolved.Net
import Resolved.Lib.Result

/-!
# LLMNR packets

How they are written and read, and how a query collects its answers.
-/

/-!
## LLMNR packets

`from_utf8_lossy` is a parameter of the functions that read texts.
-/

namespace Resolved.Llmnr
open Lib

def u16At (pkt : Bytes) (offset : Nat) : Nat :=
  (pkt.getD offset 0).toNat * 256 + (pkt.getD (offset + 1) 0).toNat

section
variable (lossy : Bytes → Str)

/-- The loop of `parse_qname`. Each turn but the last goes on by two octets at least. -/
def qnameLoop (pkt : Bytes) : Nat → Nat → List Str → Option (List Str)
  | 0, _, _ => none
  | turns + 1, i, labels =>
    match pkt[i]? with
    | none => none
    | some length =>
      let l := length.toNat
      if l = 0 then some labels
      else if l &&& 0xc0 = 0xc0 then none
      else if l > 63 ∨ i + 1 + l > pkt.length then none
      else qnameLoop pkt turns (i + 1 + l) (labels ++ [lossy ((pkt.drop (i + 1)).take l)])

def parseQname (pkt : Bytes) : Option Str :=
  if pkt.length < 13 then none
  else (qnameLoop lossy pkt pkt.length 12 []).map ['.'].intercalate

end

def skipNameLoop (pkt : Bytes) : Nat → Nat → Option Nat
  | 0, _ => none
  | turns + 1, i =>
    match pkt[i]? with
    | none => none
    | some length =>
      let l := length.toNat
      if l = 0 then some (i + 1)
      else if l &&& 0xc0 = 0xc0 then some (i + 2)
      else skipNameLoop pkt turns (i + (1 + l))

def skipName (pkt : Bytes) (i : Nat) : Option Nat := skipNameLoop pkt (pkt.length + 1) i

def qtypeAt (pkt : Bytes) : Option Nat := do
  let i ← skipName pkt 12
  if i + 4 > pkt.length then none else some (u16At pkt i)

def pushLabel (output : Bytes) (label : Str) : Option Bytes :=
  if (utf8 label).length = 0 ∨ 63 < (utf8 label).length then none
  else some (output ++ UInt8.ofNat (utf8 label).length :: utf8 label)

def buildQuery (id : Nat) (name : Str) (qtype : Nat) : Option Bytes := do
  let header := toBe16 id ++ toBe16 0 ++ toBe16 1 ++ toBe16 0 ++ toBe16 0 ++ toBe16 0
  let output ← (splitAtChar '.' (trimEndWith (· == '.') name)).foldlM pushLabel header
  return output ++ [0] ++ toBe16 qtype ++ toBe16 1

def addressRecord (rrType : Nat) (rdata : Bytes) : Bytes :=
  [0xc0, 0x0c] ++ toBe16 rrType ++ toBe16 1 ++ toBe32 30 ++ toBe16 rdata.length ++ rdata

def buildResponse (query : Bytes) (v4 : List Ipv4Addr) (v6 : List Ipv6Addr) : Option Bytes :=
  if query.length < 12 then none
  else do
    let an := (v4.length + v6.length) % 2 ^ 16
    let r := query.take 2 ++ [0x84, 0] ++ (query.drop 4).take 2 ++ toBe16 an ++ [0, 0, 0, 0] ++ query.drop 12
    let name ← skipName query 12
    return r.take (max (name + 4) 12) ++ v4.flatMap (addressRecord 1 ·.octets) ++
      v6.flatMap (addressRecord 28 ·.octets)

def ipv4At (pkt : Bytes) (i : Nat) : Ipv4Addr :=
  ⟨pkt.getD i 0, pkt.getD (i + 1) 0, pkt.getD (i + 2) 0, pkt.getD (i + 3) 0⟩

def ipv6At (pkt : Bytes) (i : Nat) : Ipv6Addr :=
  let segment (k : Nat) := UInt16.ofNat (u16At pkt (i + 2 * k))
  ⟨segment 0, segment 1, segment 2, segment 3, segment 4, segment 5, segment 6, segment 7⟩

def extractLoop (pkt : Bytes) : Nat → Nat → List IpAddr → List IpAddr
  | 0, _, out => out
  | records + 1, i, out =>
    match skipName pkt i with
    | none => out
    | some i =>
      if i + 10 > pkt.length then out
      else
        let typ := u16At pkt i
        let rdlen := u16At pkt (i + 8)
        let i := i + 10
        if i + rdlen > pkt.length then out
        else
          let out :=
            if typ = 1 ∧ rdlen = 4 then out ++ [.v4 (ipv4At pkt i)]
            else if typ = 28 ∧ rdlen = 16 then out ++ [.v6 (ipv6At pkt i)]
            else out
          extractLoop pkt records (i + rdlen) out

def extractAddrs (pkt : Bytes) (out : List IpAddr) : List IpAddr :=
  if pkt.length < 12 then out
  else
    match skipName pkt 12 with
    | none => out
    | some i => extractLoop pkt (u16At pkt 6) (i + 4) out

/-!
## An LLMNR query

The datagrams are those that `recv_from` puts into the buffer until the deadline, in the order in
which they come. Failing sockets and the table of outstanding queries are left out.
-/

inductive LlmnrError where
  | timeout
  | wire
deriving DecidableEq, Repr

structure LlmnrQueryResult where
  name : Str
  addrs : List IpAddr
  peers : List SocketAddr
deriving DecidableEq

def isReply (id : Nat) (pkt : Bytes) : Bool :=
  12 ≤ pkt.length && u16At pkt 0 == id && pkt.getD 2 0 &&& 0x80 != 0

def collect (id : Nat) (collected : List IpAddr × List SocketAddr) (datagram : Bytes × SocketAddr) :
    List IpAddr × List SocketAddr :=
  if isReply id datagram.1 then (extractAddrs datagram.1 collected.1, collected.2 ++ [datagram.2])
  else collected

def query (id : Nat) (name : Str) (qtype : Nat) (received : List (Bytes × SocketAddr)) :
    Except LlmnrError LlmnrQueryResult := do
  let _ ← okOr .wire (buildQuery id name qtype)
  let (addrs, peers) := received.foldl (collect id) ([], [])
  if addrs = [] then throw .timeout else return ⟨name, addrs, peers⟩

end Resolved.Llmnr
