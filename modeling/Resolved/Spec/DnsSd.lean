import Resolved.Lib.ChangeLog
import Resolved.DnsSd.Registry
import Resolved.Spec.Names

/-!
# Services

What browsers learn about services, and which names the services own.
-/

/-! ## What browsers of DNS-SD services know -/

namespace Resolved.Spec
open Lib DnsSd Mdns

inductive RegistryOp where
  | register (registration : DnsSdRegistration)
  | registerWithAutomaticRename (registration : DnsSdRegistration)
  | update (id : Nat) (registration : DnsSdRegistration)
  | unregister (id : Nat)
  | removeInterface (interface : MdnsInterface)
  | subscribe (filter : DnsSdBrowseFilter)
  | unsubscribe (id : Nat)
  | takeUpdates (id : Nat)

inductive RegistryCall where
  | register
  | registerWithAutomaticRename
  | update
  | unregister
  | removeInterface
  | subscribe
  | unsubscribe
  | takeUpdates
deriving DecidableEq

def RegistryOp.call : RegistryOp → RegistryCall
  | register _ => .register
  | registerWithAutomaticRename _ => .registerWithAutomaticRename
  | update _ _ => .update
  | unregister _ => .unregister
  | removeInterface _ => .removeInterface
  | subscribe _ => .subscribe
  | unsubscribe _ => .unsubscribe
  | takeUpdates _ => .takeUpdates

structure Observed where
  registry : DnsSdRegistry
  taken : Nat → List DnsSdBrowseUpdate

def RegistryOp.apply (s : Observed) : RegistryOp → Observed
  | register registration =>
    match s.registry.register registration with
    | .ok (_, registry) => { s with registry }
    | .error _ => s
  | registerWithAutomaticRename registration =>
    match s.registry.registerWithAutomaticRename registration with
    | .ok (_, registry) => { s with registry }
    | .error _ => s
  | update id registration =>
    match s.registry.update id registration with
    | .ok registry => { s with registry }
    | .error _ => s
  | unregister id =>
    match s.registry.unregister id with
    | .ok (_, registry) => { s with registry }
    | .error _ => s
  | removeInterface interface => { s with registry := (s.registry.removeInterface interface).2 }
  | subscribe filter => { s with registry := (s.registry.subscribe filter).2 }
  | unsubscribe id => { s with registry := s.registry.unsubscribe id }
  | takeUpdates id =>
    let (updates, registry) := s.registry.takeUpdates id
    ⟨registry, Function.update s.taken id (s.taken id ++ updates)⟩

def Observed.start : Observed := ⟨.empty, fun _ => []⟩

def Observed.run (s : Observed) (ops : List RegistryOp) : Observed := ops.foldl RegistryOp.apply s

def RegistryOp.registers (op : RegistryOp) : Bool :=
  op.call = .register || op.call = .registerWithAutomaticRename

def RegistryOp.subscribes (op : RegistryOp) : Bool := op.call = .subscribe

def changeOf (update : DnsSdBrowseUpdate) : Change Nat :=
  match update.kind with
  | .added => .added update.registrationId
  | .removed => .removed update.registrationId

def Observed.received (s : Observed) (subscription : Nat) : List DnsSdBrowseUpdate :=
  s.taken subscription ++ (s.registry.pending[subscription]?).getD []

structure Consistent (s : Observed) : Prop where
  keys : ∀ key id, s.registry.keys key = some id ↔
    ∃ registration, s.registry.registrations[id]? = some registration ∧
      RegistrationKey.fromRegistration registration = key
  views : ∀ (subscription : Nat) (filter : DnsSdBrowseFilter),
    s.registry.subscriptions[subscription]? = some filter →
      Mirrors ((s.received subscription).map changeOf) fun id =>
        ∃ registration, s.registry.registrations[id]? = some registration ∧ filter.selects registration = true

/-! ## Unique owners of service records -/

def UniqueOwners (registry : DnsSdRegistry) : Prop :=
  ∀ (id id' : Nat) registration registration' owner, registry.registrations[id]? = some registration →
    registry.registrations[id']? = some registration' → registration.interface = registration'.interface →
    registration.instanceOwner = .ok owner → registration'.instanceOwner = .ok owner → id = id'

def SameSpelling (registration registration' : DnsSdRegistration) : Prop :=
  lowered registration.ownerLabels = lowered registration'.ownerLabels

def RegistryOp.Makes : RegistryOp → DnsSdRegistration → Prop
  | register registration, made => made = registration
  | registerWithAutomaticRename registration, made => made = registration ∨
    ∃ ordinal name, 2 ≤ ordinal ∧ ordinal ≤ 9999 ∧ renamedInstance registration.instance' ordinal = .ok name ∧
      made = { registration with instance' := name }
  | update _ registration, made => made = registration
  | _, _ => False

def RegistryOp.replaces : RegistryOp → Option Nat
  | update id _ => some id
  | _ => none

def SpelledApart (registry : DnsSdRegistry) (op : RegistryOp) : Prop :=
  ∀ made, op.Makes made → ∀ (id : Nat) live, registry.registrations[id]? = some live →
    op.replaces ≠ some id → live.interface = made.interface → SameSpelling live made →
    RegistrationKey.fromRegistration live = .fromRegistration made

end Resolved.Spec
