import Resolved.Mdns.Ingress

/-!
# The cache of mDNS records

Instants are counted in milliseconds.
-/

namespace Resolved.Mdns
open Lib

inductive MdnsNameError where
  | empty
  | compressed
  | invalidLabel
  | tooLong
  | trailingData
deriving DecidableEq, Repr

def canonicalLoop : Nat → Bytes → Bytes → Except MdnsNameError Bytes
  | 0, _, _ => .error .invalidLabel
  | _ + 1, [], _ => .error .invalidLabel
  | labels + 1, length :: rest, output =>
    if length &&& 0xc0 ≠ 0 then .error .compressed
    else if length = 0 then
      if rest ≠ [] then .error .trailingData
      else if (output ++ [length]).length > 255 then .error .tooLong
      else .ok (output ++ [length])
    else if length > 63 then .error .invalidLabel
    else if length.toNat > rest.length then .error .invalidLabel
    else
      let output := output ++ length :: (rest.take length.toNat).map asciiLower
      if output.length ≥ 255 then .error .tooLong
      else canonicalLoop labels (rest.drop length.toNat) output

def canonicalWireName (input : Bytes) : Except MdnsNameError Bytes :=
  if input = [] then .error .empty else canonicalLoop (input.length + 1) input []

structure MdnsRecordKey where
  interface : MdnsInterface
  owner : Bytes
  rrType : Nat
  cls : Nat
deriving DecidableEq, Repr

def MdnsRecordKey.new (interface : MdnsInterface) (owner : Bytes) (rrType cls : Nat) :
    Except MdnsNameError MdnsRecordKey := do
  let owner ← canonicalWireName owner
  return ⟨interface, owner, rrType, cls &&& dnsClassMask⟩

structure MdnsCacheRecord where
  rdata : Bytes
  cacheFlush : Bool
  receivedAt : Nat
  expiresAt : Nat
deriving DecidableEq, Repr

def mdnsCacheFlushGrace : Nat := 1000

structure MdnsCache where
  records : MdnsRecordKey → List MdnsCacheRecord

def refreshFirst (fresh : MdnsCacheRecord) : List MdnsCacheRecord → List MdnsCacheRecord
  | [] => [fresh]
  | record :: rest =>
    if record.rdata = fresh.rdata then fresh :: rest else record :: refreshFirst fresh rest

namespace MdnsCache

def new : MdnsCache := ⟨fun _ => []⟩

variable (cache : MdnsCache)

def insert (key : MdnsRecordKey) (rdata : Bytes) (ttl : Nat) (cacheFlush : Bool) (now : Nat) :
    MdnsCache :=
  let grace := now + mdnsCacheFlushGrace
  let live := (cache.records key).filter (·.expiresAt > now)
  let records :=
    if ttl = 0 then live.map fun record =>
      if record.rdata = rdata ∧ record.expiresAt > grace then { record with expiresAt := grace }
      else record
    else
      let flushed := if cacheFlush then live.map fun record =>
          if record.rdata ≠ rdata ∧ ¬now - record.receivedAt < mdnsCacheFlushGrace ∧
            record.expiresAt > grace then { record with expiresAt := grace } else record
        else live
      refreshFirst ⟨rdata, cacheFlush, now, now + ttl * 1000⟩ flushed
  { cache with records := Function.update cache.records key records }

def lookup (key : MdnsRecordKey) (now : Nat) : List MdnsCacheRecord × MdnsCache :=
  let live := (cache.records key).filter (·.expiresAt > now)
  (live, { cache with records := Function.update cache.records key live })

end MdnsCache

end Resolved.Mdns
