import Mathlib.Algebra.Group.Nat.Defs
import MobileCore.PfcpMessages

/-!
# Establishment requests read back

The layout of a Session Establishment Request as a strict reader: the header length covers the
message, and the elements tile the message and every grouped element without a byte left over.
-/

namespace MobileCore.EstablishmentRequests

open PfcpMessages

def get32 (b₀ b₁ b₂ b₃ : UInt8) : UInt32 :=
  (b₀.toUInt32 <<< 24) ||| (b₁.toUInt32 <<< 16) ||| (b₂.toUInt32 <<< 8) ||| b₃.toUInt32

/-- The elements that the bytes consist of, when nothing is cut short or left over. -/
def tiling : Nat → List UInt8 → Option (List (UInt16 × List UInt8))
  | _, [] => some []
  | fuel + 1, t₁ :: t₂ :: l₁ :: l₂ :: rest =>
    let len := (get16 l₁ l₂).toNat
    if len ≤ rest.length then
      (tiling fuel (rest.drop len)).map ((get16 t₁ t₂, rest.take len) :: ·)
    else none
  | _, _ => none

/-- The elements inside a grouped element. -/
def group (val : List UInt8) : Option (List (UInt16 × List UInt8)) := tiling val.length val

def read16 : List UInt8 → Option UInt16
  | [hi, lo] => some (get16 hi lo)
  | _ => none

def read32 : List UInt8 → Option UInt32
  | [b₀, b₁, b₂, b₃] => some (get32 b₀ b₁ b₂ b₃)
  | _ => none

def read64 (val : List UInt8) : Option UInt64 :=
  if val.length = 8 then some (get64 val) else none

def readNodeId : List UInt8 → Option UInt32
  | 0x00 :: ip => read32 ip
  | _ => none

def readFSeid : List UInt8 → Option (UInt64 × UInt32)
  | 0x02 :: rest => do return (← read64 (rest.take 8), ← read32 (rest.drop 8))
  | _ => none

/-- The one value of a type among the elements, through its reader. -/
def field {α : Type} (type : UInt16) (read : List UInt8 → Option α)
    (es : List (UInt16 × List UInt8)) : Option α :=
  (es.lookup type).bind read

structure CreatedPdr where
  pdrId : UInt16
  precedence : UInt32
  sourceInterface : UInt32
  farId : UInt32
deriving DecidableEq, Repr

structure CreatedFar where
  farId : UInt32
  applyAction : UInt16
deriving DecidableEq, Repr

structure Request where
  seq : UInt32
  nodeIp : UInt32
  cpSeid : UInt64
  cpIp : UInt32
  pdr : CreatedPdr
  far : CreatedFar
deriving DecidableEq, Repr

def readPdr (val : List UInt8) : Option CreatedPdr := do
  let es ← group val
  let pdi ← field 22 group es
  return ⟨← field 56 read16 es, ← field 29 read32 es, ← field 20 read32 pdi,
    ← field 108 read32 es⟩

def readFar (val : List UInt8) : Option CreatedFar := do
  let es ← group val
  return ⟨← field 108 read32 es, ← field 44 read16 es⟩

/-- The header as the UPF parses it, then a body that the elements fill. -/
def readRequest (pkt : List UInt8) : Option Request := do
  let header ← parseHeader 0 pkt
  if header.msgType = 50 ∧ header.hasSeid ∧ header.msgLen.toNat = (pkt.drop 4).length then
    let es ← group (pkt.drop 16)
    let (cpSeid, cpIp) ← field 57 readFSeid es
    return ⟨header.seq, ← field 60 readNodeId es, cpSeid, cpIp, ← field 1 readPdr es,
      ← field 3 readFar es⟩
  else none

/-- The request has the values it was built from, the FAR id in both places. -/
def Carries (smfIp : UInt32) (cpSeid : UInt64) (seq : UInt32) (pdrId : UInt16) (farId : UInt32)
    (r : Request) : Prop :=
  r.nodeIp = smfIp ∧ r.cpIp = smfIp ∧ r.cpSeid = cpSeid ∧ r.seq = seq ∧ r.pdr.pdrId = pdrId ∧
    r.pdr.farId = farId ∧ r.far.farId = farId

theorem tiling_ie (fuel : Nat) (type : UInt16) (val rest : List UInt8) (h : val.length < 65536) :
    tiling (fuel + 1) (ie type val ++ rest) = (tiling fuel rest).map ((type, val) :: ·) := by
  have hlen : (UInt16.ofNat val.length).toNat = val.length := UInt16.toNat_ofNat_of_lt' h
  have hfits : val.length ≤ (val ++ rest).length := by
    rw [List.length_append]
    exact Nat.le_add_right _ _
  simp only [ie, put16, List.cons_append, List.nil_append, tiling, get16_put16, hlen,
    if_pos hfits, List.take_left, List.drop_left]

theorem tiling_flatMap (es : List (UInt16 × List UInt8)) (fuel : Nat) (hfuel : es.length ≤ fuel)
    (h : ∀ e ∈ es, e.2.length < 65536) :
    tiling fuel (es.flatMap fun e => ie e.1 e.2) = some es := by
  induction es generalizing fuel with
  | nil => cases fuel <;> rfl
  | cons e es ih =>
      obtain ⟨fuel, rfl⟩ : ∃ n, fuel = n + 1 :=
        Nat.exists_eq_succ_of_ne_zero (by rw [List.length_cons] at hfuel; omega)
      rw [List.flatMap_cons, tiling_ie _ _ _ _ (h e (by simp)),
        ih fuel (by simpa using hfuel) fun e' he' => h e' (by simp [he'])]
      rfl

theorem ie_length (type : UInt16) (val : List UInt8) : (ie type val).length = val.length + 4 := by
  simp only [ie, put16, List.length_append, List.length_cons, List.length_nil]
  omega

theorem length_le_flatMap_ie (es : List (UInt16 × List UInt8)) :
    es.length ≤ (es.flatMap fun e => ie e.1 e.2).length := by
  induction es with
  | nil => exact Nat.le_refl 0
  | cons e es ih =>
      rw [List.flatMap_cons, List.length_append, List.length_cons, ie_length]
      omega

theorem group_flatMap (es : List (UInt16 × List UInt8)) (h : ∀ e ∈ es, e.2.length < 65536) :
    group (es.flatMap fun e => ie e.1 e.2) = some es :=
  tiling_flatMap es _ (length_le_flatMap_ie es) h

@[simp] theorem read16_put16 (x : UInt16) : read16 (put16 x) = some x :=
  congrArg some (get16_put16 x)

@[simp] theorem read32_put32 (x : UInt32) : read32 (put32 x) = some x := by
  apply congrArg some
  apply UInt32.toBitVec_inj.mp
  apply BitVec.eq_of_getLsbD_eq
  intro i hi
  simp [get32, hi, -UInt32.toUInt32_toUInt8]
  grind

theorem read64_put64 (x : UInt64) : read64 (put64 x) = some x :=
  (if_pos rfl).trans (congrArg some (get64_put64 x))

@[simp] theorem read32_farIdValue (farId : UInt32) :
    read32 (farIdValue farId) = some (farId &&& 0xFFFF) := by
  have hmask : ∀ i < 32, (65535#32).getLsbD i = decide (i < 16) := by decide
  apply congrArg some
  apply UInt32.toBitVec_inj.mp
  apply BitVec.eq_of_getLsbD_eq
  intro i hi
  simp [get32, hi, hmask, -UInt32.toUInt32_toUInt8, -BitVec.getLsbD_eq_getElem]
  grind

theorem parseSeq_message (seq : UInt32) (rest : List UInt8) (h : seq.toNat < 2 ^ 24) :
    parseSeq ((seq >>> 16).toUInt8 :: (seq >>> 8).toUInt8 :: seq.toUInt8 :: rest) = some seq := by
  have hhigh : ∀ i, 24 ≤ i → seq.toBitVec.getLsbD i = false := by
    intro i hi
    apply Nat.testBit_lt_two_pow
    exact Nat.lt_of_lt_of_le h (Nat.pow_le_pow_right (by decide) hi)
  apply congrArg some
  apply UInt32.toBitVec_inj.mp
  apply BitVec.eq_of_getLsbD_eq
  intro i hi
  simp [hi, -UInt32.toUInt32_toUInt8]
  grind

theorem group_createPdr (pdrId : UInt16) (farId : UInt32) :
    group (createPdr pdrId farId) = some [(56, put16 pdrId), (29, [0, 0, 0, 100]),
      (22, ie 20 [0, 0, 0, 0]), (108, farIdValue farId)] := by
  have hgroup := group_flatMap [(56, put16 pdrId), (29, [0, 0, 0, 100]),
    (22, ie 20 [0, 0, 0, 0]), (108, farIdValue farId)] (by simp [put16, ie, farIdValue])
  simpa [createPdr] using hgroup

theorem readPdr_createPdr (pdrId : UInt16) (farId : UInt32) :
    readPdr (createPdr pdrId farId) = some ⟨pdrId, 100, 0, farId &&& 0xFFFF⟩ := by
  have hpdi : group (ie 20 [0, 0, 0, 0]) = some [(20, [0, 0, 0, 0])] := by decide
  have hprecedence : read32 [0, 0, 0, 100] = some 100 := by decide
  have hinterface : read32 [0, 0, 0, 0] = some 0 := by decide
  simp [readPdr, group_createPdr, field, List.lookup_cons, hpdi, hprecedence, hinterface]

theorem group_createFar (farId : UInt32) :
    group (createFar farId) = some [(108, farIdValue farId), (44, [0x00, 0x02])] := by
  have hgroup := group_flatMap [(108, farIdValue farId), (44, [0x00, 0x02])]
    (by simp [farIdValue])
  simpa [createFar] using hgroup

theorem readFar_createFar (farId : UInt32) :
    readFar (createFar farId) = some ⟨farId &&& 0xFFFF, 2⟩ := by
  have haction : read16 [0x00, 0x02] = some 2 := by decide
  simp [readFar, group_createFar, field, List.lookup_cons, haction]

theorem readFSeid_fSeid (seid : UInt64) (ip : UInt32) :
    readFSeid (fSeid seid ip) = some (seid, ip) := by
  have hseid : (put64 seid ++ put32 ip).take 8 = put64 seid := List.take_left' rfl
  have hip : (put64 seid ++ put32 ip).drop 8 = put32 ip := List.drop_left' rfl
  simp [fSeid, readFSeid, hseid, hip, read64_put64]

theorem parseHeader_message (stale : UInt64) (type : UInt8) (seq : UInt32) (ies : List UInt8)
    (hseq : seq.toNat < 2 ^ 24) :
    parseHeader stale (message type seq ies) =
      some ⟨0x21, type, UInt16.ofNat (ies.length + 12), 0, seq, true⟩ := by
  have hflag : (0x21 : UInt8) &&& 0x01 ≠ 0 := by decide
  have hlong : ¬ ies.length + 1 + 1 + 1 + 1 + 1 + 1 + 1 + 1 + 1 + 1 + 1 + 1 < 12 := by omega
  have hseid : get64 [0, 0, 0, 0, 0, 0, 0, 0] = 0 := by decide
  simp only [message, put16, List.cons_append, List.nil_append, parseHeader, if_pos hflag,
    List.length_cons, if_neg hlong, get16_put16, List.drop_succ_cons, List.drop_zero,
    List.take_succ_cons, List.take_zero, hseid, parseSeq_message seq _ hseq, Option.map_some]

theorem readRequest_buildSessionEstReq (smfIp : UInt32) (cpSeid : UInt64) (seq : UInt32)
    (pdrId : UInt16) (farId : UInt32) (hseq : seq.toNat < 2 ^ 24) :
    readRequest (buildSessionEstReq smfIp cpSeid seq pdrId farId) =
      some ⟨seq, smfIp, cpSeid, smfIp, ⟨pdrId, 100, 0, farId &&& 0xFFFF⟩,
        ⟨farId &&& 0xFFFF, 2⟩⟩ := by
  have hbodies : (ie 60 (nodeId smfIp) ++ (ie 57 (fSeid cpSeid smfIp) ++
      (ie 1 (createPdr pdrId farId) ++ ie 3 (createFar farId)))).length = 82 := rfl
  have hheader := parseHeader_message 0 50 seq (ie 60 (nodeId smfIp) ++
    (ie 57 (fSeid cpSeid smfIp) ++ (ie 1 (createPdr pdrId farId) ++ ie 3 (createFar farId)))) hseq
  rw [hbodies, ← buildSessionEstReq] at hheader
  have hlength : (UInt16.ofNat (82 + 12)).toNat =
      ((buildSessionEstReq smfIp cpSeid seq pdrId farId).drop 4).length := rfl
  have hgroup := group_flatMap [(60, nodeId smfIp), (57, fSeid cpSeid smfIp),
    (1, createPdr pdrId farId), (3, createFar farId)]
    (by simp [nodeId, fSeid, createPdr, createFar, ie_length, put16, put32, put64, farIdValue])
  have hbody : (buildSessionEstReq smfIp cpSeid seq pdrId farId).drop 16 =
      [(60, nodeId smfIp), (57, fSeid cpSeid smfIp), (1, createPdr pdrId farId),
        (3, createFar farId)].flatMap fun e => ie e.1 e.2 := by
    simp [buildSessionEstReq, message, put16]
  have hnode : readNodeId (nodeId smfIp) = some smfIp := read32_put32 smfIp
  simp only [readRequest, hheader, Option.bind_eq_bind, Option.bind_some]
  rw [if_pos ⟨trivial, trivial, hlength⟩, hbody, hgroup]
  simp [field, List.lookup_cons, hnode, readFSeid_fSeid, readPdr_createPdr, readFar_createFar]

theorem and_low_half (farId : UInt32) : farId &&& 0xFFFF = farId ↔ farId < 65536 := by
  rw [← UInt32.toNat_inj, UInt32.lt_iff_toNat_lt, UInt32.toNat_and]
  have hmask : (0xFFFF : UInt32).toNat = 2 ^ 16 - 1 := rfl
  rw [hmask, Nat.and_two_pow_sub_one_eq_mod]
  exact Nat.mod_eq_iff_lt (by decide)

/-- The layout recovers a request exactly when its FAR id fits into 16 bits. -/
theorem buildSessionEstReq_carries_iff (smfIp : UInt32) (cpSeid : UInt64) (seq : UInt32)
    (pdrId : UInt16) (farId : UInt32) (hseq : seq.toNat < 2 ^ 24) :
    (∃ r, readRequest (buildSessionEstReq smfIp cpSeid seq pdrId farId) = some r ∧
      Carries smfIp cpSeid seq pdrId farId r) ↔ farId < 65536 := by
  rw [readRequest_buildSessionEstReq smfIp cpSeid seq pdrId farId hseq, ← and_low_half]
  constructor
  · rintro ⟨r, hr, hcarries⟩
    obtain rfl := Option.some.inj hr
    exact hcarries.2.2.2.2.2.2
  · intro hsmall
    exact ⟨_, rfl, rfl, rfl, rfl, rfl, rfl, hsmall, hsmall⟩

theorem buildSessionEstReq_carries_scenario :
    ∃ r, readRequest (buildSessionEstReq 0x0A010003 0x100000001 7 1 1) = some r ∧
      Carries 0x0A010003 0x100000001 7 1 1 r :=
  (buildSessionEstReq_carries_iff 0x0A010003 0x100000001 7 1 1 (by decide)).mpr (by decide)

/-- FAR 65536 becomes FAR 0 in both places. -/
theorem buildSessionEstReq_far_65536 :
    readRequest (buildSessionEstReq 0x0A010003 0x100000001 7 1 65536) =
        some ⟨7, 0x0A010003, 0x100000001, 0x0A010003, ⟨1, 100, 0, 0⟩, ⟨0, 2⟩⟩ ∧
      ¬ ∃ r, readRequest (buildSessionEstReq 0x0A010003 0x100000001 7 1 65536) = some r ∧
        Carries 0x0A010003 0x100000001 7 1 65536 r := by
  have hread : readRequest (buildSessionEstReq 0x0A010003 0x100000001 7 1 65536) =
      some ⟨7, 0x0A010003, 0x100000001, 0x0A010003, ⟨1, 100, 0, 0⟩, ⟨0, 2⟩⟩ := by
    decide +kernel
  refine ⟨hread, ?_⟩
  rintro ⟨r, hr, hcarries⟩
  rw [hread] at hr
  obtain rfl := Option.some.inj hr
  exact absurd hcarries.2.2.2.2.2.2 (by decide)

end MobileCore.EstablishmentRequests
