import MobileCore.CppText

/-!
# Events of the Go services

What a producer publishes, with the instant in the representation in which it was written, and
what a consumer decodes. A time carries a pointer to its location beside the instant.
-/

namespace MobileCore.SimEvents

open MobileCore.CppText

/-- A timestamp as it is written: the instant in nanoseconds since the zero time, and the offset
from UTC in minutes where it is not written as UTC. -/
structure Stamp where
  instant : Int
  offset : Option Int := none
deriving DecidableEq

/-- The pointers to locations. Each location that is fabricated for an offset is a new one. -/
inductive Location where
  | utc
  | localZone
  | fabricated (serial : Nat)
deriving DecidableEq

structure Time where
  instant : Int
  loc : Location := .utc
deriving DecidableEq

/-- The location of a decoded time: the local one where its offset is the one written, at that
instant. -/
def locate (localOffset : Int → Int) (serial : Nat) (stamp : Stamp) : Location :=
  match stamp.offset with
  | none => .utc
  | some offset =>
    if offset = localOffset stamp.instant then .localZone else .fabricated serial

def decodeTime (localOffset : Int → Int) (serial : Nat) (stamp : Stamp) : Time :=
  ⟨stamp.instant, locate localOffset serial stamp⟩

/-- `Time.Truncate` rounds down to a multiple of `d` since the zero time. -/
def Time.truncate (t : Time) (d : Int) : Time :=
  if d ≤ 0 then t else { t with instant := t.instant - t.instant % d }

/-- Node types, event types and severities are strings. -/
structure SimEvent (τ : Type) where
  id : Str
  timestamp : τ
  node : Str
  eventType : Str
  supi : Str := []
  detail : Str
  severity : Str
deriving DecidableEq

abbrev Message := SimEvent Stamp

def decode (localOffset : Int → Int) (serial : Nat) (m : Message) : SimEvent Time :=
  { m with timestamp := decodeTime localOffset serial m.timestamp }

/-- The counters of the producers are 64-bit. -/
def nextNumber (n : Int) : Int := (n + 1).bmod (2 ^ 64)

/-- The gateway's IDs, drawn under a lock by both of its goroutines. -/
def newID (eidN : Int) : Str := lit "ev-" ++ intText eidN

theorem truncate_loc (t : Time) (d : Int) : (t.truncate d).loc = t.loc := by
  unfold Time.truncate
  split <;> rfl

theorem truncate_utc (instant d : Int) :
    Time.truncate ⟨instant, .utc⟩ d = ⟨(Time.truncate ⟨instant, .utc⟩ d).instant, .utc⟩ := by
  unfold Time.truncate
  split <;> rfl

theorem truncate_instant (t : Time) (d : Int) (loc : Location) :
    ({ t with loc := loc }.truncate d).instant = (t.truncate d).instant := by
  unfold Time.truncate
  split <;> rfl

end MobileCore.SimEvents
