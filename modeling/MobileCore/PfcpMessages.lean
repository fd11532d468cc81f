import Mathlib.Data.List.Basic

/-!
# PFCP messages on N4

Big-endian messages: a header with a SEID and a sequence number, and information elements of
type, length and value. The SMF builds establishment requests, the UPF reads headers only.
-/

namespace MobileCore.PfcpMessages

def put16 (x : UInt16) : List UInt8 := [(x >>> 8).toUInt8, x.toUInt8]

def put32 (x : UInt32) : List UInt8 :=
  [(x >>> 24).toUInt8, (x >>> 16).toUInt8, (x >>> 8).toUInt8, x.toUInt8]

def put64 (x : UInt64) : List UInt8 :=
  [(x >>> 56).toUInt8, (x >>> 48).toUInt8, (x >>> 40).toUInt8, (x >>> 32).toUInt8,
    (x >>> 24).toUInt8, (x >>> 16).toUInt8, (x >>> 8).toUInt8, x.toUInt8]

def ie (type : UInt16) (val : List UInt8) : List UInt8 :=
  put16 type ++ (put16 (UInt16.ofNat val.length) ++ val)

def nodeId (ip : UInt32) : List UInt8 := 0x00 :: put32 ip

def fSeid (seid : UInt64) (ip : UInt32) : List UInt8 := 0x02 :: (put64 seid ++ put32 ip)

def farIdValue (farId : UInt32) : List UInt8 := [0, 0, (farId >>> 8).toUInt8, farId.toUInt8]

def createPdr (pdrId : UInt16) (farId : UInt32) : List UInt8 :=
  ie 56 (put16 pdrId) ++ ie 29 [0, 0, 0, 100] ++ ie 22 (ie 20 [0, 0, 0, 0]) ++
    ie 108 (farIdValue farId)

def createFar (farId : UInt32) : List UInt8 := ie 108 (farIdValue farId) ++ ie 44 [0x00, 0x02]

/-- A message whose header SEID is zero, as both network functions build theirs. -/
def message (type : UInt8) (seq : UInt32) (ies : List UInt8) : List UInt8 :=
  let sequence : List UInt8 := [(seq >>> 16).toUInt8, (seq >>> 8).toUInt8, seq.toUInt8, 0x00]
  let body : List UInt8 := [0, 0, 0, 0, 0, 0, 0, 0] ++ (sequence ++ ies)
  (0x21 : UInt8) :: type :: (put16 (UInt16.ofNat body.length) ++ body)

/-- The SMF's Session Establishment Request. -/
def buildSessionEstReq (smfIp : UInt32) (cpSeid : UInt64) (seq : UInt32) (pdrId : UInt16)
    (farId : UInt32) : List UInt8 :=
  message 50 seq (ie 60 (nodeId smfIp) ++ (ie 57 (fSeid cpSeid smfIp) ++
    (ie 1 (createPdr pdrId farId) ++ ie 3 (createFar farId))))

/-- The UPF's response to any request; the caller writes the message type over the second byte. -/
def buildRsp (upfIp : UInt32) (upSeid : UInt64) (seq : UInt32) : List UInt8 :=
  message 51 seq (ie 19 [0x01] ++ (ie 60 (nodeId upfIp) ++ ie 57 (fSeid upSeid upfIp)))

def get16 (hi lo : UInt8) : UInt16 := (hi.toUInt16 <<< 8) ||| lo.toUInt16

def get64 (bytes : List UInt8) : UInt64 :=
  bytes.foldl (fun seid b => (seid <<< 8) ||| b.toUInt64) 0

structure Header where
  versionFlags : UInt8
  msgType : UInt8
  msgLen : UInt16
  seid : UInt64
  seq : UInt32
  hasSeid : Bool
deriving DecidableEq, Repr

def parseSeq : List UInt8 → Option UInt32
  | b₀ :: b₁ :: b₂ :: _ =>
    some ((b₀.toUInt32 <<< 16) ||| (b₁.toUInt32 <<< 8) ||| b₂.toUInt32)
  | _ => none

/-- Without the flag the source leaves the SEID as it finds it on its stack, here `stale`. -/
def parseHeader (stale : UInt64) : List UInt8 → Option Header
  | flags :: type :: hi :: lo :: rest =>
    if flags &&& 0x01 ≠ 0 then
      if rest.length < 12 then none
      else
        (parseSeq (rest.drop 8)).map fun seq =>
          ⟨flags, type, get16 hi lo, get64 (rest.take 8), seq, true⟩
    else (parseSeq rest).map fun seq => ⟨flags, type, get16 hi lo, stale, seq, false⟩
  | _ => none

def elements : Nat → List UInt8 → List (UInt16 × List UInt8)
  | fuel + 1, t₁ :: t₂ :: l₁ :: l₂ :: rest =>
    let len := (get16 l₁ l₂).toNat
    if len ≤ rest.length then
      (get16 t₁ t₂, rest.take len) :: elements fuel (rest.drop len)
    else []
  | _, _ => []

/-- The SEID of the first F-SEID element of a message, which the sender gave to its session. -/
def cpFSeid (header : Header) (pkt : List UInt8) : Option UInt64 :=
  let body := pkt.drop (if header.hasSeid then 16 else 8)
  ((elements body.length body).lookup 57).map fun val => get64 ((val.drop 1).take 8)

theorem get64_put64 (x : UInt64) : get64 (put64 x) = x := by
  apply UInt64.toBitVec_inj.mp
  apply BitVec.eq_of_getLsbD_eq
  intro i hi
  simp [get64, put64, hi, -UInt64.toUInt64_toUInt8]
  grind

theorem get16_put16 (x : UInt16) : get16 (x >>> 8).toUInt8 x.toUInt8 = x := by
  apply UInt16.toBitVec_inj.mp
  apply BitVec.eq_of_getLsbD_eq
  intro i hi
  simp [get16, hi, -UInt16.toUInt16_toUInt8]
  grind

theorem elements_ie (fuel : Nat) (type : UInt16) (val rest : List UInt8) (h : val.length < 65536) :
    elements (fuel + 1) (ie type val ++ rest) = (type, val) :: elements fuel rest := by
  have hlen : (UInt16.ofNat val.length).toNat = val.length := UInt16.toNat_ofNat_of_lt' h
  have hfits : val.length ≤ (val ++ rest).length := by
    rw [List.length_append]
    exact Nat.le_add_right _ _
  simp only [ie, put16, List.cons_append, List.nil_append, elements, get16_put16, hlen,
    if_pos hfits, List.take_left, List.drop_left]

theorem buildSessionEstReq_seids (smfIp : UInt32) (cpSeid : UInt64) (seq : UInt32)
    (pdrId : UInt16) (farId : UInt32) (stale : UInt64) :
    let pkt := buildSessionEstReq smfIp cpSeid seq pdrId farId
    ∃ h, parseHeader stale (pkt.take 4096) = some h ∧ h.msgType = 50 ∧ h.seid = 0 ∧
      cpFSeid h (pkt.take 4096) = some cpSeid := by
  intro pkt
  have hlength : pkt.length = 98 := rfl
  have htake : pkt.take 4096 = pkt := List.take_of_length_le (by omega)
  rw [htake]
  refine ⟨_, rfl, rfl, rfl, ?_⟩
  have hnode : (nodeId smfIp).length < 65536 := (by decide : 5 < 65536)
  have hseid : (fSeid cpSeid smfIp).length < 65536 := (by decide : 13 < 65536)
  have helements : elements 82 (pkt.drop 16) = (60, nodeId smfIp) :: (57, fSeid cpSeid smfIp) ::
      elements 80 (ie 1 (createPdr pdrId farId) ++ ie 3 (createFar farId)) := by
    show elements 82 (ie 60 (nodeId smfIp) ++ (ie 57 (fSeid cpSeid smfIp) ++ _)) = _
    rw [elements_ie _ _ _ _ hnode, elements_ie _ _ _ _ hseid]
  have hbody : (pkt.drop 16).length = 82 := rfl
  show ((elements (pkt.drop 16).length (pkt.drop 16)).lookup 57).map _ = some cpSeid
  rw [hbody, helements]
  exact congrArg some (get64_put64 cpSeid)

end MobileCore.PfcpMessages
