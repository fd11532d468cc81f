import MobileCore.PacketGateways
import Mathlib.Data.List.Nodup

namespace MobileCore.AddressPool

open PacketGateways

/-- What the wait for the PCRF ends with. -/
inductive Gx where
  | timeout
  | failed
  | unexpected
  | cca (resultCode : UInt8)
deriving DecidableEq

def sendCcrAndWaitCca : Gx → Bool
  | .cca resultCode => resultCode = 1
  | _ => false

def handleCreateSessionReq (pgw : PgwNode) (req : S5Request) (gx : Gx) : PgwNode × S5Response :=
  if sendCcrAndWaitCca gx then
    ({ nextTeid := pgw.nextTeid + 1, nextIp := pgw.nextIp + 1, thread := .receiving },
      { answers := req.session.imsi, cause := 16, senderTeid := pgw.nextTeid,
        ueIp := ipBytes pgw.nextIp, ebi := req.session.ebi })
  else ({ pgw with thread := .receiving }, { answers := req.session.imsi, cause := 64 })

def receiveLoop (pgw : PgwNode) : List (S5Request × Gx) → PgwNode × List S5Response
  | [] => (pgw, [])
  | (req, gx) :: rest =>
    let (pgw, resp) := handleCreateSessionReq pgw req gx
    let (pgw, resps) := receiveLoop pgw rest
    (pgw, resp :: resps)

def liveAddresses (resps : List S5Response) : List (List UInt8) :=
  (resps.filter fun resp => resp.cause = 16).map S5Response.ueIp

def address (ip : List UInt8) : Nat := ip.foldl (fun n byte => 256 * n + byte.toNat) 0

/-- From 10.0.0.1 to 10.0.254.254. -/
def InPool (ip : List UInt8) : Prop :=
  ip.length = 4 ∧ address [10, 0, 0, 1] ≤ address ip ∧ address ip ≤ address [10, 0, 254, 254]

structure Allocates (reqs : List (S5Request × Gx)) : Prop where
  distinct : (liveAddresses (receiveLoop {} reqs).2).Nodup
  inside : ∀ ip ∈ liveAddresses (receiveLoop {} reqs).2, InPool ip
  denied : ∀ front req gx back, reqs = front ++ (req, gx) :: back → sendCcrAndWaitCca gx = false →
    (handleCreateSessionReq (receiveLoop {} front).1 req gx).1.nextIp =
        (receiveLoop {} front).1.nextIp ∧
      (handleCreateSessionReq (receiveLoop {} front).1 req gx).1.nextTeid =
        (receiveLoop {} front).1.nextTeid

def granted (reqs : List (S5Request × Gx)) : Nat := reqs.countP fun r => sendCcrAndWaitCca r.2

section Nodes

variable (s : State) (req : S5Request) {gx : Gx}

theorem acceptSession_eq (h : sendCcrAndWaitCca gx = true) :
    acceptSession s req =
      ({ s with pgw := (handleCreateSessionReq s.pgw req gx).1,
                fromPgw := s.fromPgw ++ [(handleCreateSessionReq s.pgw req gx).2] },
        [.pgwSession req.session.imsi s.pgw.nextTeid (ipBytes s.pgw.nextIp)]) := by
  rw [handleCreateSessionReq, if_pos h]
  rfl

theorem rejectSession_eq (h : sendCcrAndWaitCca gx = false) :
    rejectSession s req =
      { s with pgw := (handleCreateSessionReq s.pgw req gx).1,
               fromPgw := s.fromPgw ++ [(handleCreateSessionReq s.pgw req gx).2] } := by
  rw [handleCreateSessionReq, if_neg (Bool.not_eq_true _ ▸ h)]
  rfl

end Nodes

theorem address_ipBytes (raw : UInt32) : address (ipBytes raw) = raw.toNat := by
  have hlt := raw.toNat_lt
  have hhigh : raw.toNat >>> 24 = raw.toNat / 16777216 := Nat.shiftRight_eq_div_pow _ 24
  have hmid : raw.toNat >>> 16 = raw.toNat / 65536 := Nat.shiftRight_eq_div_pow _ 16
  have hlow : raw.toNat >>> 8 = raw.toNat / 256 := Nat.shiftRight_eq_div_pow _ 8
  simp only [address, ipBytes, List.foldl_cons, List.foldl_nil, UInt32.toNat_toUInt8,
    UInt32.toNat_shiftRight]
  rw [show (24 : UInt32).toNat % 32 = 24 by decide, show (16 : UInt32).toNat % 32 = 16 by decide,
    show (8 : UInt32).toNat % 32 = 8 by decide, hhigh, hmid, hlow]
  omega

/-- The addresses are those behind the counter, one for each granted request. -/
theorem liveAddresses_receiveLoop (pgw : PgwNode) (reqs : List (S5Request × Gx)) :
    liveAddresses (receiveLoop pgw reqs).2 =
      (List.range (granted reqs)).map fun k => ipBytes (pgw.nextIp + UInt32.ofNat k) := by
  induction reqs generalizing pgw with
  | nil => rfl
  | cons r rest ih =>
      obtain ⟨req, gx⟩ := r
      have hnext := ih (handleCreateSessionReq pgw req gx).1
      rw [receiveLoop]
      dsimp only
      cases hgx : sendCcrAndWaitCca gx with
      | true =>
          have hgranted : granted ((req, gx) :: rest) = granted rest + 1 :=
            List.countP_cons_of_pos hgx
          rw [handleCreateSessionReq, if_pos hgx] at hnext ⊢
          rw [hgranted, List.range_succ_eq_map, List.map_cons, List.map_map]
          have hfirst : pgw.nextIp + UInt32.ofNat 0 = pgw.nextIp := UInt32.add_zero _
          rw [hfirst]
          show _ :: liveAddresses _ = _
          rw [hnext]
          congr 1
          apply List.map_congr_left
          intro k _
          show ipBytes (pgw.nextIp + 1 + UInt32.ofNat k) = ipBytes (pgw.nextIp + UInt32.ofNat (k + 1))
          rw [UInt32.ofNat_add, UInt32.add_assoc, UInt32.add_comm 1]
          rfl
      | false =>
          have hgranted : granted ((req, gx) :: rest) = granted rest :=
            List.countP_cons_of_neg (by rw [hgx]; decide)
          rw [handleCreateSessionReq, if_neg (by rw [hgx]; decide)] at hnext ⊢
          rw [hgranted]
          exact hnext

theorem denied_keeps (pgw : PgwNode) (req : S5Request) {gx : Gx}
    (h : sendCcrAndWaitCca gx = false) :
    (handleCreateSessionReq pgw req gx).1.nextIp = pgw.nextIp ∧
      (handleCreateSessionReq pgw req gx).1.nextTeid = pgw.nextTeid := by
  rw [handleCreateSessionReq, if_neg (Bool.not_eq_true _ ▸ h)]
  exact ⟨rfl, rfl⟩

theorem address_live {k : Nat} (hk : k ≤ 65278) :
    address (ipBytes (({} : PgwNode).nextIp + UInt32.ofNat k)) = address [10, 0, 0, 1] + k := by
  have hsmall : (UInt32.ofNat k).toNat = k := UInt32.toNat_ofNat_of_lt' (by show k < 4294967296; omega)
  have hfirst : ({} : PgwNode).nextIp.toNat = 167772161 := by decide
  have haddress : address [10, 0, 0, 1] = 167772161 := by decide
  rw [address_ipBytes, UInt32.toNat_add, hsmall, hfirst, haddress]
  exact Nat.mod_eq_of_lt (by omega)

theorem granted_le_of_inside {reqs : List (S5Request × Gx)}
    (h : ∀ ip ∈ liveAddresses (receiveLoop {} reqs).2, InPool ip) : granted reqs ≤ 65278 := by
  by_contra hmany
  have hmem : ipBytes (({} : PgwNode).nextIp + UInt32.ofNat 65278) ∈
      liveAddresses (receiveLoop {} reqs).2 := by
    rw [liveAddresses_receiveLoop]
    exact List.mem_map.mpr ⟨65278, List.mem_range.mpr (Nat.lt_of_not_le hmany), rfl⟩
  obtain ⟨-, -, hle⟩ := h _ hmem
  rw [address_live (Nat.le_refl _)] at hle
  exact absurd hle (by decide)

/-- The P-GW allocates as its pool allows exactly as long as the sessions are no more than the
addresses of the pool. -/
theorem allocates_iff (reqs : List (S5Request × Gx)) : Allocates reqs ↔ granted reqs ≤ 65278 := by
  constructor
  · intro h
    exact granted_le_of_inside h.inside
  · intro hfew
    constructor
    · rw [liveAddresses_receiveLoop, List.nodup_map_iff_inj_on List.nodup_range]
      intro j hj k hk heq
      have hj := List.mem_range.mp hj
      have hk := List.mem_range.mp hk
      have haddress := congrArg address heq
      rw [address_live (by omega), address_live (by omega)] at haddress
      exact Nat.add_left_cancel haddress
    · intro ip hip
      rw [liveAddresses_receiveLoop] at hip
      obtain ⟨k, hk, rfl⟩ := List.mem_map.mp hip
      have hk := List.mem_range.mp hk
      refine ⟨rfl, ?_, ?_⟩
      · rw [address_live (by omega)]
        exact Nat.le_add_right _ _
      · have hlast : address [10, 0, 254, 254] = address [10, 0, 0, 1] + 65277 := by decide
        rw [address_live (by omega), hlast]
        exact Nat.add_le_add_left (by omega) _
    · intro front req gx back _ hdenied
      exact denied_keeps _ req hdenied

/-- The session after the last address of the pool gets 10.0.254.255. -/
theorem not_allocates_beyond : ¬∀ reqs, Allocates reqs := by
  intro h
  let req : S5Request × Gx := ({ session := {}, senderTeid := 1000 }, .cca 1)
  have hmany : granted (List.replicate 65279 req) = 65279 := by
    rw [granted, List.countP_replicate]
    exact if_pos rfl
  have hfew := granted_le_of_inside (h (List.replicate 65279 req)).inside
  rw [hmany] at hfew
  exact absurd hfew (by decide)

end MobileCore.AddressPool
