import MobileCore.FastPath

/-!
# The counters of a data plane

The counters are numbers of packets modulo 2^64. A packet counts as received when its call begins,
so the packets in flight are those of the calls under way, the queued ones and those that the
worker took and has not counted yet.
-/

namespace MobileCore.PacketCounters

open MobileCore.FastPath (PathStats)
open MobileCore.PacketRules

/-- The counters after `received` packets with `inFlight` of them in flight, where `unmatchedOnly`
of these are counted as packets without a PDR and not yet as dropped. -/
def Accounted (stats : PathStats) (received inFlight unmatchedOnly : Nat) : Prop :=
  ∃ forwarded dropped noPdr : Nat,
    forwarded + dropped + inFlight = received ∧ noPdr ≤ dropped + unmatchedOnly ∧
    stats.pktsRx = UInt64.ofNat received ∧ stats.pktsForwarded = UInt64.ofNat forwarded ∧
    stats.pktsDropped = UInt64.ofNat dropped ∧ stats.pktsNoPdr = UInt64.ofNat noPdr

variable {stats : PathStats} {r n u : Nat}

theorem accounted_init : Accounted {} 0 0 0 := ⟨0, 0, 0, rfl, Nat.le_refl 0, rfl, rfl, rfl, rfl⟩

theorem Accounted.moved {r' m : Nat} (h : Accounted stats r n u) (hreceived : r = r')
    (hsame : n = m) : Accounted stats r' m u := hreceived ▸ hsame ▸ h

theorem ofNat_succ (n : Nat) : UInt64.ofNat (n + 1) = UInt64.ofNat n + 1 := UInt64.ofNat_add n 1

theorem Accounted.receive (h : Accounted stats r n u) :
    Accounted { stats with pktsRx := stats.pktsRx + 1 } (r + 1) (n + 1) u := by
  obtain ⟨forwarded, dropped, noPdr, hsum, hle, hrx, hforwarded, hdropped, hnoPdr⟩ := h
  refine ⟨forwarded, dropped, noPdr, by omega, hle, ?_, hforwarded, hdropped, hnoPdr⟩
  show stats.pktsRx + 1 = _
  rw [hrx, ofNat_succ]

theorem Accounted.drop (h : Accounted stats r (n + 1) u) :
    Accounted { stats with pktsDropped := stats.pktsDropped + 1 } r n u := by
  obtain ⟨forwarded, dropped, noPdr, hsum, hle, hrx, hforwarded, hdropped, hnoPdr⟩ := h
  refine ⟨forwarded, dropped + 1, noPdr, by omega, by omega, hrx, hforwarded, ?_, hnoPdr⟩
  show stats.pktsDropped + 1 = _
  rw [hdropped, ofNat_succ]

theorem Accounted.unmatched (h : Accounted stats r n u) :
    Accounted { stats with pktsNoPdr := stats.pktsNoPdr + 1 } r n (u + 1) := by
  obtain ⟨forwarded, dropped, noPdr, hsum, hle, hrx, hforwarded, hdropped, hnoPdr⟩ := h
  refine ⟨forwarded, dropped, noPdr + 1, hsum, by omega, hrx, hforwarded, hdropped, ?_⟩
  show stats.pktsNoPdr + 1 = _
  rw [hnoPdr, ofNat_succ]

theorem Accounted.dropUnmatched (h : Accounted stats r (n + 1) (u + 1)) :
    Accounted { stats with pktsDropped := stats.pktsDropped + 1 } r n u := by
  obtain ⟨forwarded, dropped, noPdr, hsum, hle, hrx, hforwarded, hdropped, hnoPdr⟩ := h
  refine ⟨forwarded, dropped + 1, noPdr, by omega, by omega, hrx, hforwarded, ?_, hnoPdr⟩
  show stats.pktsDropped + 1 = _
  rw [hdropped, ofNat_succ]

theorem Accounted.forward (h : Accounted stats r (n + 1) u) (arrivalNs nowNs : UInt64) :
    Accounted ({ stats with pktsForwarded := stats.pktsForwarded + 1 }.recordLatency
      arrivalNs nowNs) r n u := by
  obtain ⟨forwarded, dropped, noPdr, hsum, hle, hrx, hforwarded, hdropped, hnoPdr⟩ := h
  have hcounted : Accounted { stats with pktsForwarded := stats.pktsForwarded + 1 } r n u := by
    refine ⟨forwarded + 1, dropped, noPdr, by omega, hle, hrx, ?_, hdropped, hnoPdr⟩
    show stats.pktsForwarded + 1 = _
    rw [hforwarded, ofNat_succ]
  unfold PathStats.recordLatency
  split <;> exact hcounted

theorem Accounted.processPacket (h : Accounted stats r (n + 1) u) (rules : RuleTable)
    (nowNs : UInt64) (pkt : Packet) :
    Accounted (FastPath.processPacket rules nowNs pkt stats).2 r n u := by
  unfold FastPath.processPacket
  split
  · exact h.unmatched.dropUnmatched
  · dsimp only
    split
    · exact h.drop
    · split
      · exact h.drop
      · exact h.forward _ _

theorem Accounted.rx_eq (h : Accounted stats r n u) :
    stats.pktsRx = stats.pktsForwarded + stats.pktsDropped + UInt64.ofNat n := by
  obtain ⟨forwarded, dropped, noPdr, rfl, -, hrx, hforwarded, hdropped, -⟩ := h
  rw [hrx, hforwarded, hdropped, UInt64.ofNat_add, UInt64.ofNat_add]

/-- The numbers themselves, as long as the counters do not wrap. -/
theorem Accounted.noPdr_le (h : Accounted stats r n u) (hfew : r < 2 ^ 64) :
    stats.pktsNoPdr.toNat ≤ stats.pktsDropped.toNat + u := by
  obtain ⟨forwarded, dropped, noPdr, hsum, hle, hrx, hforwarded, hdropped, hnoPdr⟩ := h
  rw [hnoPdr, hdropped, UInt64.toNat_ofNat', UInt64.toNat_ofNat',
    Nat.mod_eq_of_lt (show dropped < 2 ^ 64 by omega)]
  exact Nat.le_trans (Nat.mod_le noPdr _) hle

end MobileCore.PacketCounters
