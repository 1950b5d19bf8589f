import Mathlib

namespace Resolved.Edns

inductive FeatureLevel where
  | udp
  | edns0
  | dnssecOk
deriving DecidableEq, Repr

namespace FeatureLevel

def rank : FeatureLevel → Nat
  | udp => 0
  | edns0 => 1
  | dnssecOk => 2

theorem rank_injective : Function.Injective rank := by
  intro a b h
  cases a <;> cases b <;> simp_all [rank]

instance : LinearOrder FeatureLevel := LinearOrder.lift' rank rank_injective

def usesEdns : FeatureLevel → Bool
  | udp => false
  | edns0 | dnssecOk => true

def isDnssecOk : FeatureLevel → Bool
  | dnssecOk => true
  | udp | edns0 => false

def lower : FeatureLevel → FeatureLevel
  | dnssecOk => edns0
  | edns0 | udp => udp

end FeatureLevel

def nanosPerSecond : Nat := 1000000000
def featureRetryAttempts : Nat := 3
def featureGracePeriodMin : Nat := 5 * 60 * nanosPerSecond
def featureGracePeriodMax : Nat := 6 * 60 * 60 * nanosPerSecond

structure ServerFeatureState where
  possible : FeatureLevel
  verified : FeatureLevel
  verifiedOnce : Bool
  failedAttempts : Nat
  retryAfter : Option Nat
  gracePeriod : Nat
  badOpt : Bool
deriving DecidableEq, Repr

namespace ServerFeatureState

protected def default : ServerFeatureState :=
  ⟨.dnssecOk, .udp, false, 0, none, featureGracePeriodMin, false⟩

def retryDue (s : ServerFeatureState) (now : Nat) : Bool :=
  s.retryAfter.any fun retryAfter => retryAfter ≤ now

def capped (s : ServerFeatureState) (best : FeatureLevel) : ServerFeatureState :=
  let s := if s.badOpt && s.possible.usesEdns then { s with possible := .udp } else s
  if s.possible > best then { s with possible := best } else s

def possibleLevel (s : ServerFeatureState) (best : FeatureLevel) (now : Nat) :
    ServerFeatureState :=
  let s := s.capped best
  if s.possible < best ∧ s.retryDue now then
    { s with
      possible := best
      failedAttempts := 0
      retryAfter := none
      badOpt := false
      gracePeriod := min (s.gracePeriod * 2) featureGracePeriodMax }
  else s

def recordSuccess (s : ServerFeatureState) (level : FeatureLevel) : ServerFeatureState :=
  { s with
    verifiedOnce := true
    verified := if level > s.verified then level else s.verified
    failedAttempts := if level = s.possible then 0 else s.failedAttempts }

def downgradeTo (s : ServerFeatureState) (level : FeatureLevel) (now : Nat) :
    ServerFeatureState :=
  if level ≥ s.possible then s
  else
    { s with
      possible := level
      verified := min s.verified level
      failedAttempts := 0
      retryAfter := some (now + s.gracePeriod) }

def recordFailure (s : ServerFeatureState) (level : FeatureLevel) (now : Nat) :
    ServerFeatureState × Option FeatureLevel :=
  if level ≠ s.possible then (s, none)
  else
    let s := { s with failedAttempts := min (s.failedAttempts + 1) 255 }
    if s.failedAttempts < featureRetryAttempts then (s, none)
    else if level.lower = level then (s, none)
    else (s.downgradeTo level.lower now, some level.lower)

def recordBadOpt (s : ServerFeatureState) (level : FeatureLevel) (now : Nat) :
    ServerFeatureState :=
  if level.usesEdns then { s with badOpt := true }.downgradeTo .udp now else s

def recordDoOff (s : ServerFeatureState) (level : FeatureLevel) (now : Nat) :
    ServerFeatureState :=
  if level = .dnssecOk then s.downgradeTo .edns0 now else s

end ServerFeatureState

end Resolved.Edns
