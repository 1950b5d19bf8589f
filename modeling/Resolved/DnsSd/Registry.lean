import Resolved.Lib.Utf8
import Resolved.Mdns.Cache

/-!
# Services on the local network

The registry of announced services and the owners of their records.
-/

/-!
## The registry of DNS-SD services

Services are registered by clients, and browsers are told what is added and removed.
-/

namespace Resolved.DnsSd
open Lib Mdns

inductive DnsSdError where
  | emptyInstance
  | instanceTooLong
  | invalidInstance
  | invalidHost
  | invalidPort
  | invalidTxtItem
  | txtTooLarge
  | invalidSubtype
  | duplicateRegistration
  | unknownRegistration
deriving DecidableEq, Repr

structure DnsSdServiceType where
  service : Str
  protocol : Str
deriving DecidableEq, Repr

abbrev DnsSdDomain := List Str

abbrev DnsSdHost := List Str

structure DnsSdInstance where
  bytes : Bytes
  filled : bytes ≠ []
  short : bytes.length ≤ 63
  clean : 0 ∉ bytes
deriving DecidableEq

def DnsSdInstance.new (value : Bytes) : Except DnsSdError DnsSdInstance :=
  if empty : value = [] then .error .emptyInstance
  else if long : 63 < value.length then .error .instanceTooLong
  else if zero : 0 ∈ value then .error .invalidInstance
  else .ok ⟨value, empty, not_lt.1 long, zero⟩

structure DnsSdRegistration where
  instance' : DnsSdInstance
  serviceType : DnsSdServiceType
  domain : DnsSdDomain
  host : DnsSdHost
  port : UInt16
  priority : UInt16
  weight : UInt16
  txt : List Bytes
  subtypes : List Str
  addresses : List IpAddr
  interface : MdnsInterface
  ttl : UInt32
deriving DecidableEq

def dnsSdMaxTxtTotal : Nat := 1300

def isAsciiAlphanumeric (c : Char) : Bool :=
  (48 ≤ c.toNat && c.toNat ≤ 57) || (65 ≤ c.toNat && c.toNat ≤ 90) ||
    (97 ≤ c.toNat && c.toNat ≤ 122)

def serviceLabelIsValid (value : Str) : Bool :=
  value.head? == some '_' && 2 ≤ value.length && value.length ≤ 16 && isAscii value &&
    (value.drop 1).all (fun c => isAsciiAlphanumeric c || c == '-') &&
    value[1]? != some '-' && value.getLast? != some '-'

def validateTxtFrom (total : Nat) : List Bytes → Except DnsSdError Unit
  | [] => .ok ()
  | item :: rest =>
    if 255 < item.length then .error .invalidTxtItem
    else if dnsSdMaxTxtTotal < total + (1 + item.length) then .error .txtTooLarge
    else validateTxtFrom (total + (1 + item.length)) rest

def validateTxt (items : List Bytes) : Except DnsSdError Unit := validateTxtFrom 0 items

namespace DnsSdRegistration

def familyFits (registration : DnsSdRegistration) (address : IpAddr) : Bool :=
  match registration.interface.family, address with
  | .ipv4, .v4 _ => true
  | .ipv6, .v6 _ => true
  | _, _ => false

def validate (registration : DnsSdRegistration) : Except DnsSdError Unit := do
  if registration.instance'.bytes.isEmpty then throw .emptyInstance
  else if registration.port = 0 then throw .invalidPort
  else
    validateTxt registration.txt
    if !registration.subtypes.all serviceLabelIsValid then throw .invalidSubtype
    else if !registration.addresses.all registration.familyFits then throw .invalidHost
    else return ()

end DnsSdRegistration

structure RegistrationKey where
  interface : MdnsInterface
  instance' : Bytes
  serviceType : DnsSdServiceType
  domain : DnsSdDomain
deriving DecidableEq

def RegistrationKey.fromRegistration (registration : DnsSdRegistration) : RegistrationKey :=
  ⟨registration.interface, registration.instance'.bytes, registration.serviceType, registration.domain⟩

inductive DnsSdBrowseUpdateKind where
  | added
  | removed
deriving DecidableEq, Repr

structure DnsSdBrowseUpdate where
  kind : DnsSdBrowseUpdateKind
  registrationId : Nat
  instance' : DnsSdInstance
  serviceType : DnsSdServiceType
  domain : DnsSdDomain
  interface : MdnsInterface
deriving DecidableEq

structure DnsSdBrowseFilter where
  serviceType : DnsSdServiceType
  domain : DnsSdDomain
  interface : Option MdnsInterface
deriving DecidableEq

def DnsSdBrowseFilter.selects (filter : DnsSdBrowseFilter) (registration : DnsSdRegistration) : Bool :=
  filter.serviceType == registration.serviceType && filter.domain == registration.domain &&
    match filter.interface with
    | none => true
    | some interface => interface == registration.interface

def updateOf (kind : DnsSdBrowseUpdateKind) (id : Nat) (registration : DnsSdRegistration) :
    DnsSdBrowseUpdate :=
  ⟨kind, id, registration.instance', registration.serviceType, registration.domain, registration.interface⟩

structure DnsSdRegistry where
  nextRegistrationId : Nat
  nextSubscriptionId : Nat
  registrations : Std.ExtTreeMap Nat DnsSdRegistration
  keys : RegistrationKey → Option Nat
  subscriptions : Std.ExtTreeMap Nat DnsSdBrowseFilter
  pending : Std.ExtTreeMap Nat (List DnsSdBrowseUpdate)

def nextId (counter : Nat) : Nat := max ((counter + 1) % 2 ^ 64) 1

def trimInvalid : Nat → Bytes → Bytes
  | 0, front => front
  | fuel + 1, front =>
    if ByteArray.validateUTF8 ⟨front.toArray⟩ || front.isEmpty then front
    else trimInvalid fuel front.dropLast

def asciiBytes (s : Str) : Bytes := s.map fun c => UInt8.ofNat c.toNat

def renamedInstance (base : DnsSdInstance) (ordinal : Nat) : Except DnsSdError DnsSdInstance :=
  let suffix := asciiBytes (' ' :: '(' :: (toString ordinal).toList ++ [')'])
  if 63 ≤ suffix.length then .error .instanceTooLong
  else
    let maximum := 63 - suffix.length
    let front :=
      if maximum < base.bytes.length then trimInvalid maximum (base.bytes.take maximum)
      else base.bytes
    DnsSdInstance.new (front ++ suffix)

namespace DnsSdRegistry

def empty : DnsSdRegistry := ⟨0, 0, ∅, fun _ => none, ∅, ∅⟩

def notify (registry : DnsSdRegistry) (kind : DnsSdBrowseUpdateKind) (id : Nat)
    (registration : DnsSdRegistration) : DnsSdRegistry :=
  { registry with
    pending := registry.subscriptions.toList.foldl (fun pending (subscription, filter) =>
      if filter.selects registration then
        pending.insert subscription
          ((pending[subscription]?).getD [] ++ [updateOf kind id registration])
      else pending) registry.pending }

def register (registry : DnsSdRegistry) (registration : DnsSdRegistration) :
    Except DnsSdError (Nat × DnsSdRegistry) := do
  registration.validate
  let key := RegistrationKey.fromRegistration registration
  if (registry.keys key).isSome then throw .duplicateRegistration
  else
    let id := nextId registry.nextRegistrationId
    let registry := ({ registry with nextRegistrationId := id }).notify .added id registration
    return (id, { registry with
      keys := Function.update registry.keys key (some id)
      registrations := registry.registrations.insert id registration })

def registerRenamed (registry : DnsSdRegistry) (registration : DnsSdRegistration) :
    Nat → Nat → Except DnsSdError ((Nat × DnsSdInstance) × DnsSdRegistry)
  | 0, _ => .error .duplicateRegistration
  | fuel + 1, ordinal => do
    let candidate ←
      if ordinal = 1 then .ok registration.instance'
      else renamedInstance registration.instance' ordinal
    let renamed := { registration with instance' := candidate }
    if (registry.keys (.fromRegistration renamed)).isSome then
      registerRenamed registry registration fuel (ordinal + 1)
    else
      let (id, registry) ← registry.register renamed
      return ((id, candidate), registry)

def registerWithAutomaticRename (registry : DnsSdRegistry) (registration : DnsSdRegistration) :
    Except DnsSdError ((Nat × DnsSdInstance) × DnsSdRegistry) :=
  registry.registerRenamed registration 9999 1

def update (registry : DnsSdRegistry) (id : Nat) (registration : DnsSdRegistration) :
    Except DnsSdError DnsSdRegistry := do
  registration.validate
  let previous ← okOr .unknownRegistration registry.registrations[id]?
  let previousKey := RegistrationKey.fromRegistration previous
  let newKey := RegistrationKey.fromRegistration registration
  if previousKey ≠ newKey ∧ (registry.keys newKey).isSome then throw .duplicateRegistration
  else
    let registry := registry.notify .removed id previous
    let registry := { registry with
      keys := Function.update (Function.update registry.keys previousKey none) newKey (some id) }
    let registry := registry.notify .added id registration
    return { registry with registrations := registry.registrations.insert id registration }

def unregister (registry : DnsSdRegistry) (id : Nat) :
    Except DnsSdError (DnsSdRegistration × DnsSdRegistry) := do
  let registration ← okOr .unknownRegistration registry.registrations[id]?
  let registry := { registry with
    registrations := registry.registrations.erase id
    keys := Function.update registry.keys (.fromRegistration registration) none }
  return (registration, registry.notify .removed id registration)

def subscribe (registry : DnsSdRegistry) (filter : DnsSdBrowseFilter) : Nat × DnsSdRegistry :=
  let id := nextId registry.nextSubscriptionId
  let initial := (registry.registrations.toList.filter fun (_, registration) =>
    filter.selects registration).map fun (id, registration) => updateOf .added id registration
  (id, { registry with
    nextSubscriptionId := id
    subscriptions := registry.subscriptions.insert id filter
    pending := registry.pending.insert id initial })

def unsubscribe (registry : DnsSdRegistry) (id : Nat) : DnsSdRegistry :=
  { registry with
    subscriptions := registry.subscriptions.erase id
    pending := registry.pending.erase id }

def takeUpdates (registry : DnsSdRegistry) (id : Nat) : List DnsSdBrowseUpdate × DnsSdRegistry :=
  match registry.pending[id]? with
  | none => ([], registry)
  | some updates => (updates, { registry with pending := registry.pending.insert id [] })

def unregisterAll (registry : DnsSdRegistry) : List Nat → List DnsSdRegistration × DnsSdRegistry
  | [] => ([], registry)
  | id :: rest =>
    match registry.unregister id with
    | .error _ => registry.unregisterAll rest
    | .ok (registration, registry) =>
      let (removed, registry) := registry.unregisterAll rest
      (registration :: removed, registry)

def removeInterface (registry : DnsSdRegistry) (interface : MdnsInterface) :
    List DnsSdRegistration × DnsSdRegistry :=
  registry.unregisterAll ((registry.registrations.toList.filter fun (_, registration) =>
    registration.interface = interface).map (·.1))

end DnsSdRegistry

/-!
## Owners of service records

The name under which the SRV and TXT records of a service are announced.
-/

inductive OwnerError where
  | invalidDomain
  | name (error : MdnsNameError)
deriving DecidableEq, Repr

def pushLabel (output label : Bytes) : Except OwnerError Bytes :=
  if label = [] ∨ 63 < label.length ∨ 0 ∈ label then .error .invalidDomain
  else .ok (output ++ UInt8.ofNat label.length :: label)

def encodeLabels (labels : List Bytes) : Except OwnerError Bytes := do
  let output ← labels.foldlM pushLabel []
  let output := output ++ [0]
  if 255 < output.length then throw .invalidDomain
  else (canonicalWireName output).mapError .name

namespace DnsSdRegistration

def ownerLabels (registration : DnsSdRegistration) : List Bytes :=
  registration.instance'.bytes :: utf8 registration.serviceType.service ::
    utf8 registration.serviceType.protocol :: registration.domain.map utf8

def instanceOwner (registration : DnsSdRegistration) : Except OwnerError Bytes :=
  encodeLabels registration.ownerLabels

end DnsSdRegistration

end Resolved.DnsSd
