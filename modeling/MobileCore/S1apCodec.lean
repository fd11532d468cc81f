import MobileCore.BigEndian
import MobileCore.CppText
import MobileCore.ItemRuns

/-!
# S1AP frames

An S1AP PDU is a header, the number of its information elements and the elements, with one length
byte before the body and one in each element. The handover messages are built element by element,
the NAS transports by overwriting bytes of a captured PDU.
-/

namespace MobileCore.S1apCodec

open BigEndian CppText ItemRuns

/-- The length of a value has one byte. -/
structure Ie where
  id : UInt16
  criticality : UInt8
  value : List UInt8
  fits : value.length < 256
deriving DecidableEq

def idMmeUeS1apId : UInt16 := 0
def idHandoverType : UInt16 := 1
def idCause : UInt16 := 2
def idEnbUeS1apId : UInt16 := 8
def idNasPdu : UInt16 := 26

def Ie.encode (ie : Ie) : List UInt8 :=
  [UInt8.ofNat (ie.id.toNat / 256), UInt8.ofNat ie.id.toNat, ie.criticality,
    UInt8.ofNat ie.value.length] ++ ie.value

structure Frame where
  pduType : UInt8
  procCode : UInt8
  criticality : UInt8
  ies : List Ie
deriving DecidableEq

theorem length_take_lt (len : UInt8) (rest : List UInt8) : (rest.take len.toNat).length < 256 := by
  have hlen := len.toNat_lt
  have htake := List.length_take_le len.toNat rest
  omega

def parseIe : List UInt8 → Option (Ie × List UInt8)
  | idHigh :: idLow :: criticality :: len :: rest =>
    if len.toNat ≤ rest.length then
      some (⟨UInt16.ofNat (idHigh.toNat * 256 + idLow.toNat), criticality, rest.take len.toNat,
        length_take_lt len rest⟩, rest.drop len.toNat)
    else none
  | _ => none

/-- The frame as the source documents it. The length byte counts the bytes behind it. -/
def parseFrame : List UInt8 → Option Frame
  | pduType :: procCode :: criticality :: len :: body =>
    if len.toNat = body.length then
      match body with
      | 0x00 :: countHigh :: countLow :: ies =>
        (readCounted parseIe (countHigh.toNat * 256 + countLow.toNat) ies).map
          (⟨pduType, procCode, criticality, ·⟩)
      | _ => none
    else none
  | _ => none

theorem inverts_parseIe (ie : Ie) : Inverts parseIe Ie.encode ie := by
  intro rest
  obtain ⟨id, criticality, value, fits⟩ := ie
  have hlen : (UInt8.ofNat value.length).toNat = value.length := UInt8.toNat_ofNat_of_lt' fits
  have hid : UInt16.ofNat ((UInt8.ofNat (id.toNat / 256)).toNat * 256 +
      (UInt8.ofNat id.toNat).toNat) = id := by
    have hlt := id.toNat_lt
    apply UInt16.toNat_inj.mp
    rw [UInt16.toNat_ofNat', UInt8.toNat_ofNat', UInt8.toNat_ofNat']
    omega
  simp only [Ie.encode, List.cons_append, List.nil_append, parseIe, hlen, hid]
  rw [if_pos (by rw [List.length_append]; omega)]
  simp only [List.take_left, List.drop_left]

/-- A frame with the one length and the one count that its header has. -/
def frameBytes (pduType procCode criticality len count : UInt8) (ies : List Ie) : List UInt8 :=
  [pduType, procCode, criticality, len, 0x00, 0x00, count] ++ ies.flatMap Ie.encode

section Frames

variable {pduType procCode criticality len count : UInt8} {ies : List Ie}

theorem parseFrame_frameBytes : parseFrame (frameBytes pduType procCode criticality len count ies) =
    if len.toNat = (ies.flatMap Ie.encode).length + 3 then
      (readCounted parseIe count.toNat (ies.flatMap Ie.encode)).map
        (⟨pduType, procCode, criticality, ·⟩)
    else none := by
  have hcount : (0x00 : UInt8).toNat * 256 + count.toNat = count.toNat := Nat.zero_add _
  simp only [frameBytes, List.cons_append, List.nil_append, parseFrame, List.length_cons, hcount]

theorem parseFrame_encoded (hlen : len.toNat = (ies.flatMap Ie.encode).length + 3)
    (hcount : count.toNat = ies.length) :
    parseFrame (frameBytes pduType procCode criticality len count ies) =
      some ⟨pduType, procCode, criticality, ies⟩ := by
  have hrun := readCounted_encoded fun ie (_ : ie ∈ ies) => inverts_parseIe ie
  rw [parseFrame_frameBytes, if_pos hlen, hcount, hrun, Option.map_some]

theorem parseFrame_some {frame : Frame}
    (h : parseFrame (frameBytes pduType procCode criticality len count ies) = some frame)
    (hlength : frame.ies.length = ies.length) :
    (len.toNat = (ies.flatMap Ie.encode).length + 3 ∧ count.toNat = ies.length) ∧
      frame.ies = ies := by
  rw [parseFrame_frameBytes] at h
  split at h
  · rename_i hlen
    obtain ⟨read, hread, rfl⟩ := Option.map_eq_some_iff.mp h
    have hcount : count.toNat = ies.length := (length_of_readCounted hread).symm.trans hlength
    have hrun := readCounted_encoded fun ie (_ : ie ∈ ies) => inverts_parseIe ie
    rw [hcount, hrun] at hread
    exact ⟨⟨hlen, hcount⟩, (Option.some.inj hread).symm⟩
  · cases h

end Frames

section HandoverMessages

def buildHoPdu (pduType procCode criticality : UInt8) (mmeId enbId : UInt32)
    (extraIes : List UInt8) : List UInt8 :=
  let ids : List UInt8 := [0x00, 0x00, 0x00, 0x02, (mmeId >>> 8).toUInt8, mmeId.toUInt8,
    0x00, 0x08, 0x00, 0x02, (enbId >>> 8).toUInt8, enbId.toUInt8]
  let ies := ids ++ extraIes
  let nIes := UInt8.ofNat (2 + extraIes.length / 6)
  let body : List UInt8 := [0x00, 0x00, nIes] ++ ies
  [pduType, procCode, criticality, UInt8.ofNat body.length] ++ body

/-- HandoverType intralte and Cause radioNetwork. -/
def preparationExtra : List UInt8 :=
  [0x00, 0x01, 0x00, 0x01, 0x00, 0x00, 0x02, 0x40, 0x02, 0x00, 0x00]

def buildHandoverRequired (mmeId enbId : UInt32) : List UInt8 :=
  buildHoPdu 0x00 0x00 0x00 mmeId enbId preparationExtra

def buildHandoverRequest (mmeId enbId : UInt32) : List UInt8 :=
  buildHoPdu 0x00 0x01 0x00 mmeId enbId preparationExtra

def buildHandoverRequestAck (mmeId enbId : UInt32) : List UInt8 :=
  buildHoPdu 0x20 0x01 0x40 mmeId enbId []

def buildHandoverCommand (mmeId enbId : UInt32) : List UInt8 :=
  buildHoPdu 0x20 0x00 0x00 mmeId enbId []

def buildENBStatusTransfer (mmeId enbId : UInt32) : List UInt8 :=
  buildHoPdu 0x00 0x18 0x40 mmeId enbId []

def buildMMEStatusTransfer (mmeId enbId : UInt32) : List UInt8 :=
  buildHoPdu 0x00 0x19 0x40 mmeId enbId []

def buildHandoverNotify (mmeId enbId : UInt32) : List UInt8 :=
  buildHoPdu 0x00 0x02 0x40 mmeId enbId []

def buildUEContextReleaseCommand (mmeId enbId : UInt32) : List UInt8 :=
  buildHoPdu 0x00 0x17 0x00 mmeId enbId []

def buildUEContextReleaseComplete (mmeId enbId : UInt32) : List UInt8 :=
  buildHoPdu 0x20 0x17 0x40 mmeId enbId []

/-- The PDU is a frame with this header, the two identities and the extra elements. -/
def Framed (pdu : List UInt8) (pduType procCode criticality : UInt8) (mmeId enbId : UInt32)
    (extras : List Ie) : Prop :=
  ∃ mme enb : Ie, parseFrame pdu = some ⟨pduType, procCode, criticality, mme :: enb :: extras⟩ ∧
    (mme.id = idMmeUeS1apId ∧ number mme.value = mmeId.toNat) ∧
    (enb.id = idEnbUeS1apId ∧ number enb.value = enbId.toNat)

def idIe (id : UInt16) (ueId : UInt32) : Ie :=
  ⟨id, 0x00, [(ueId >>> 8).toUInt8, ueId.toUInt8], (by decide : 2 < 256)⟩

theorem number_idIe (id : UInt16) (ueId : UInt32) :
    number (idIe id ueId).value = ueId.toNat % 2 ^ 16 := by
  have hhigh : (ueId >>> 8).toUInt8.toNat = ueId.toNat / 256 % 256 :=
    toNat_byte ueId (by decide) rfl
  simp only [number, idIe, List.foldl_cons, List.foldl_nil, UInt32.toNat_toUInt8, hhigh]
  omega

theorem number_idIe_iff (id : UInt16) (ueId : UInt32) :
    number (idIe id ueId).value = ueId.toNat ↔ ueId.toNat < 2 ^ 16 := by
  rw [number_idIe]
  omega

def messageIes (mmeId enbId : UInt32) (extras : List Ie) : List Ie :=
  idIe idMmeUeS1apId mmeId :: idIe idEnbUeS1apId enbId :: extras

theorem encode_idIe_mme (ueId : UInt32) : (idIe idMmeUeS1apId ueId).encode =
    ([0x00, 0x00, 0x00, 0x02, (ueId >>> 8).toUInt8, ueId.toUInt8] : List UInt8) := by
  have hhigh : UInt8.ofNat (idMmeUeS1apId.toNat / 256) = 0x00 := by decide
  have hlow : UInt8.ofNat idMmeUeS1apId.toNat = 0x00 := by decide
  simp only [Ie.encode, idIe, hhigh, hlow]
  rfl

theorem encode_idIe_enb (ueId : UInt32) : (idIe idEnbUeS1apId ueId).encode =
    ([0x00, 0x08, 0x00, 0x02, (ueId >>> 8).toUInt8, ueId.toUInt8] : List UInt8) := by
  have hhigh : UInt8.ofNat (idEnbUeS1apId.toNat / 256) = 0x00 := by decide
  have hlow : UInt8.ofNat idEnbUeS1apId.toNat = 0x08 := by decide
  simp only [Ie.encode, idIe, hhigh, hlow]
  rfl

theorem buildHoPdu_eq (pduType procCode criticality : UInt8) (mmeId enbId : UInt32)
    (extras : List Ie) :
    buildHoPdu pduType procCode criticality mmeId enbId (extras.flatMap Ie.encode) =
      frameBytes pduType procCode criticality
        (UInt8.ofNat ((extras.flatMap Ie.encode).length + 15))
        (UInt8.ofNat (2 + (extras.flatMap Ie.encode).length / 6))
        (messageIes mmeId enbId extras) := by
  simp only [buildHoPdu, frameBytes, messageIes, List.flatMap_cons, encode_idIe_mme,
    encode_idIe_enb, List.cons_append, List.nil_append, List.length_cons, Nat.add_assoc,
    Nat.reduceAdd]

theorem length_messageIes (mmeId enbId : UInt32) (extras : List Ie) :
    ((messageIes mmeId enbId extras).flatMap Ie.encode).length =
      (extras.flatMap Ie.encode).length + 12 := by
  simp only [messageIes, List.flatMap_cons, encode_idIe_mme, encode_idIe_enb, List.cons_append,
    List.nil_append, List.length_cons, Nat.add_assoc, Nat.reduceAdd]

/-- The extra elements are as many as the sixths of their bytes, and fit in a one-byte length. -/
def CountedBySize (extras : List Ie) : Prop :=
  extras.length = (extras.flatMap Ie.encode).length / 6 ∧
    (extras.flatMap Ie.encode).length ≤ 240

theorem lengths_iff (mmeId enbId : UInt32) (extras : List Ie) :
    ((UInt8.ofNat ((extras.flatMap Ie.encode).length + 15)).toNat =
        ((messageIes mmeId enbId extras).flatMap Ie.encode).length + 3 ∧
      (UInt8.ofNat (2 + (extras.flatMap Ie.encode).length / 6)).toNat =
        (messageIes mmeId enbId extras).length) ↔ CountedBySize extras := by
  rw [length_messageIes, UInt8.toNat_ofNat', UInt8.toNat_ofNat', messageIes, List.length_cons,
    List.length_cons, CountedBySize]
  omega

/-- A handover message is read back when its extra elements are as many as their size says, and
both identities fit in two bytes. -/
theorem framed_buildHoPdu_iff (pduType procCode criticality : UInt8) (mmeId enbId : UInt32)
    (extras : List Ie) :
    Framed (buildHoPdu pduType procCode criticality mmeId enbId (extras.flatMap Ie.encode))
        pduType procCode criticality mmeId enbId extras ↔
      (mmeId.toNat < 2 ^ 16 ∧ enbId.toNat < 2 ^ 16) ∧ CountedBySize extras := by
  rw [Framed, buildHoPdu_eq]
  constructor
  · rintro ⟨mme, enb, hparse, ⟨-, hmme⟩, -, henb⟩
    obtain ⟨hlengths, hies⟩ := parseFrame_some hparse rfl
    obtain ⟨rfl, htail⟩ := List.cons.inj hies
    obtain ⟨rfl, -⟩ := List.cons.inj htail
    exact ⟨⟨(number_idIe_iff _ mmeId).mp hmme, (number_idIe_iff _ enbId).mp henb⟩,
      (lengths_iff mmeId enbId extras).mp hlengths⟩
  · rintro ⟨⟨hmme, henb⟩, hsize⟩
    obtain ⟨hlen, hcount⟩ := (lengths_iff mmeId enbId extras).mpr hsize
    exact ⟨idIe idMmeUeS1apId mmeId, idIe idEnbUeS1apId enbId, parseFrame_encoded hlen hcount,
      ⟨rfl, (number_idIe_iff _ mmeId).mpr hmme⟩, rfl, (number_idIe_iff _ enbId).mpr henb⟩

def preparationIes : List Ie :=
  [⟨idHandoverType, 0x00, [0x00], by decide⟩, ⟨idCause, 0x40, [0x00, 0x00], by decide⟩]

theorem preparationExtra_eq : preparationExtra = preparationIes.flatMap Ie.encode := by decide

inductive HoMessage where
  | handoverRequired
  | handoverRequest
  | handoverRequestAck
  | handoverCommand
  | enbStatusTransfer
  | mmeStatusTransfer
  | handoverNotify
  | ueContextReleaseCommand
  | ueContextReleaseComplete
deriving DecidableEq, Repr

def HoMessage.build : HoMessage → UInt32 → UInt32 → List UInt8
  | .handoverRequired => buildHandoverRequired
  | .handoverRequest => buildHandoverRequest
  | .handoverRequestAck => buildHandoverRequestAck
  | .handoverCommand => buildHandoverCommand
  | .enbStatusTransfer => buildENBStatusTransfer
  | .mmeStatusTransfer => buildMMEStatusTransfer
  | .handoverNotify => buildHandoverNotify
  | .ueContextReleaseCommand => buildUEContextReleaseCommand
  | .ueContextReleaseComplete => buildUEContextReleaseComplete

def HoMessage.pduType : HoMessage → UInt8
  | .handoverRequestAck | .handoverCommand | .ueContextReleaseComplete => 0x20
  | _ => 0x00

def HoMessage.procCode : HoMessage → UInt8
  | .handoverRequired | .handoverCommand => 0x00
  | .handoverRequest | .handoverRequestAck => 0x01
  | .handoverNotify => 0x02
  | .ueContextReleaseCommand | .ueContextReleaseComplete => 0x17
  | .enbStatusTransfer => 0x18
  | .mmeStatusTransfer => 0x19

def HoMessage.criticality : HoMessage → UInt8
  | .handoverRequired | .handoverRequest | .handoverCommand | .ueContextReleaseCommand => 0x00
  | _ => 0x40

def HoMessage.extras : HoMessage → List Ie
  | .handoverRequired | .handoverRequest => preparationIes
  | _ => []

theorem HoMessage.build_eq (m : HoMessage) (mmeId enbId : UInt32) : m.build mmeId enbId =
    buildHoPdu m.pduType m.procCode m.criticality mmeId enbId (m.extras.flatMap Ie.encode) := by
  cases m with
  | handoverRequired | handoverRequest =>
      rw [extras, ← preparationExtra_eq]
      rfl
  | _ => rfl

/-- The two elements of a preparation have eleven bytes, which count as one element. -/
theorem HoMessage.countedBySize_iff (m : HoMessage) :
    CountedBySize m.extras ↔ m ≠ .handoverRequired ∧ m ≠ .handoverRequest := by
  have hpreparation : ¬CountedBySize preparationIes := by
    rintro ⟨hcount, -⟩
    rw [← preparationExtra_eq] at hcount
    cases hcount
  cases m with
  | handoverRequired => exact iff_of_false hpreparation fun h => h.1 rfl
  | handoverRequest => exact iff_of_false hpreparation fun h => h.2 rfl
  | _ => exact iff_of_true ⟨rfl, by decide⟩ ⟨by decide, by decide⟩

/-- For any header and extra elements, and for the nine messages that the builders make. -/
theorem handover_framed_iff (mmeId enbId : UInt32) :
    (∀ pduType procCode criticality extras,
      Framed (buildHoPdu pduType procCode criticality mmeId enbId (extras.flatMap Ie.encode))
          pduType procCode criticality mmeId enbId extras ↔
        (mmeId.toNat < 2 ^ 16 ∧ enbId.toNat < 2 ^ 16) ∧ CountedBySize extras) ∧
      ∀ m : HoMessage,
        Framed (m.build mmeId enbId) m.pduType m.procCode m.criticality mmeId enbId m.extras ↔
          (mmeId.toNat < 2 ^ 16 ∧ enbId.toNat < 2 ^ 16) ∧
            (m ≠ .handoverRequired ∧ m ≠ .handoverRequest) := by
  constructor
  · intro pduType procCode criticality extras
    exact framed_buildHoPdu_iff pduType procCode criticality mmeId enbId extras
  · intro m
    rw [m.build_eq, framed_buildHoPdu_iff, m.countedBySize_iff]

/-- A count of three before four elements. -/
theorem not_framed_handoverRequired :
    ¬Framed (buildHandoverRequired 1 1) 0x00 0x00 0x00 1 1 preparationIes := by
  rintro ⟨mme, enb, hparse, -⟩
  have hnone : parseFrame (buildHandoverRequired 1 1) = none := by decide
  cases hnone.symm.trans hparse

end HandoverMessages

section NasTransports

/-- Each pair of characters is scanned as a byte. -/
def hex2bytes : Str → List UInt8
  | a :: b :: rest => UInt8.ofNat ((unsignedPrefix 16 [a, b]).getD 0) :: hex2bytes rest
  | _ => []

/-- A transport with the identities 0 and 1 and its NAS-PDU cut off. -/
def nasTemplate : List UInt8 :=
  hex2bytes (lit "000b4038000003000000020000000800020001001a002524")

def buildNasTransport (proc0 proc1 : UInt8) (mmeId enbId : UInt32) (nas : List UInt8) :
    List UInt8 :=
  let pdu := nasTemplate
  let pdu := pdu.set 0 proc0
  let pdu := pdu.set 1 proc1
  let pdu := pdu.set 3 (UInt8.ofNat (20 + nas.length))
  let pdu := pdu.set 12 mmeId.toUInt8
  let pdu := pdu.set 18 enbId.toUInt8
  let pdu := pdu.set 22 (UInt8.ofNat (nas.length + 1))
  let pdu := pdu.set 23 (UInt8.ofNat nas.length)
  pdu ++ nas

def buildDlNasTransport (mmeId enbId : UInt32) (nas : List UInt8) : List UInt8 :=
  buildNasTransport 0x00 0x0b mmeId enbId nas

def buildUlNasTransport (mmeId enbId : UInt32) (nas : List UInt8) : List UInt8 :=
  buildNasTransport 0x00 0x0d mmeId enbId nas

/-- The byte at an offset is a length of one byte, and counts all that follows it. -/
def CountsRest (pdu : List UInt8) (offset : Nat) : Prop :=
  ∃ len, pdu[offset]? = some len ∧ len.toNat = (pdu.drop (offset + 1)).length ∧ len.toNat < 128

/-- The octet string in an element, behind its own length. -/
def octets (value : List UInt8) : Option (List UInt8) :=
  match value with
  | len :: rest => if len.toNat = rest.length then some rest else none
  | [] => none

/-- The identities and the NAS-PDU of a transport. -/
def parseNasTransport (pdu : List UInt8) : Option (Nat × Nat × List UInt8) :=
  match parseFrame pdu with
  | some ⟨_, _, _, [mme, enb, nas]⟩ =>
    if mme.id = idMmeUeS1apId ∧ enb.id = idEnbUeS1apId ∧ nas.id = idNasPdu then
      (octets nas.value).map (number mme.value, number enb.value, ·)
    else none
  | _ => none

/-- The three lengths are those of the body, of the element and of the octet string. -/
def NasTransported (proc0 proc1 : UInt8) (mmeId enbId : UInt32) (nas : List UInt8) : Prop :=
  let pdu := buildNasTransport proc0 proc1 mmeId enbId nas
  (CountsRest pdu 3 ∧ CountsRest pdu 22 ∧ CountsRest pdu 23) ∧
    parseNasTransport pdu = some (mmeId.toNat, enbId.toNat, nas)

theorem nasTemplate_eq : nasTemplate =
    [0x00, 0x0b, 0x40, 0x38, 0x00, 0x00, 0x03, 0x00, 0x00, 0x00, 0x02, 0x00, 0x00, 0x00, 0x08, 0x00,
      0x02, 0x00, 0x01, 0x00, 0x1a, 0x00, 0x25, 0x24] := by decide

theorem buildNasTransport_eq (proc0 proc1 : UInt8) (mmeId enbId : UInt32) (nas : List UInt8) :
    buildNasTransport proc0 proc1 mmeId enbId nas =
      ([proc0, proc1, 0x40, UInt8.ofNat (20 + nas.length), 0x00, 0x00, 0x03,
        0x00, 0x00, 0x00, 0x02, 0x00, mmeId.toUInt8, 0x00, 0x08, 0x00, 0x02, 0x00, enbId.toUInt8,
        0x00, 0x1a, 0x00, UInt8.ofNat (nas.length + 1), UInt8.ofNat nas.length] : List UInt8) ++
        nas := by
  rw [buildNasTransport, nasTemplate_eq]
  rfl

def shortIdIe (id : UInt16) (ueId : UInt32) : Ie :=
  ⟨id, 0x00, [0x00, ueId.toUInt8], (by decide : 2 < 256)⟩

theorem number_shortIdIe (id : UInt16) {ueId : UInt32} (h : ueId.toNat < 256) :
    number (shortIdIe id ueId).value = ueId.toNat := by
  simp only [number, shortIdIe, List.foldl_cons, List.foldl_nil, UInt32.toNat_toUInt8]
  exact (Nat.zero_add _).trans (Nat.mod_eq_of_lt h)

def nasIe (nas : List UInt8) (h : nas.length < 255) : Ie :=
  ⟨idNasPdu, 0x00, UInt8.ofNat nas.length :: nas, Nat.succ_lt_succ h⟩

theorem buildNasTransport_frame (proc0 proc1 : UInt8) (mmeId enbId : UInt32) {nas : List UInt8}
    (h : nas.length < 255) :
    buildNasTransport proc0 proc1 mmeId enbId nas =
      frameBytes proc0 proc1 0x40 (UInt8.ofNat (20 + nas.length)) 3
        [shortIdIe idMmeUeS1apId mmeId, shortIdIe idEnbUeS1apId enbId, nasIe nas h] := by
  rw [buildNasTransport_eq]
  simp [frameBytes, Ie.encode, shortIdIe, nasIe, idMmeUeS1apId, idEnbUeS1apId, idNasPdu]

theorem countsRest_of {pdu : List UInt8} {offset n : Nat}
    (hget : pdu[offset]? = some (UInt8.ofNat n)) (hrest : (pdu.drop (offset + 1)).length = n)
    (hn : n < 128) : CountsRest pdu offset := by
  have hlen : (UInt8.ofNat n).toNat = n := UInt8.toNat_ofNat_of_lt' (Nat.lt_trans hn (by decide))
  refine ⟨UInt8.ofNat n, hget, ?_, ?_⟩
  · rw [hlen, hrest]
  · rw [hlen]
    exact hn

/-- The length of the body is the largest of the three, and the first to leave its range. -/
theorem countsRest_buildNasTransport (proc0 proc1 : UInt8) (mmeId enbId : UInt32)
    {nas : List UInt8} (h : nas.length < 108) :
    CountsRest (buildNasTransport proc0 proc1 mmeId enbId nas) 3 ∧
      CountsRest (buildNasTransport proc0 proc1 mmeId enbId nas) 22 ∧
      CountsRest (buildNasTransport proc0 proc1 mmeId enbId nas) 23 := by
  rw [buildNasTransport_eq]
  refine ⟨countsRest_of rfl ?_ (by omega), countsRest_of rfl rfl (by omega),
    countsRest_of rfl rfl (by omega)⟩
  exact Nat.add_comm nas.length 20

theorem octets_nasIe (nas : List UInt8) (h : nas.length < 255) :
    octets (nasIe nas h).value = some nas := by
  have hlen : (UInt8.ofNat nas.length).toNat = nas.length :=
    UInt8.toNat_ofNat_of_lt' (Nat.lt_trans h (by decide))
  exact if_pos hlen

theorem parseNasTransport_build (proc0 proc1 : UInt8) {mmeId enbId : UInt32} {nas : List UInt8}
    (hmme : mmeId.toNat < 256) (henb : enbId.toNat < 256) (h : nas.length < 236) :
    parseNasTransport (buildNasTransport proc0 proc1 mmeId enbId nas) =
      some (mmeId.toNat, enbId.toNat, nas) := by
  have hshort : nas.length < 255 := Nat.lt_trans h (by decide)
  have hbody : ([shortIdIe idMmeUeS1apId mmeId, shortIdIe idEnbUeS1apId enbId,
      nasIe nas hshort].flatMap Ie.encode).length + 3 = 20 + nas.length := by
    simp [Ie.encode, shortIdIe, nasIe]
    omega
  have hlen : (UInt8.ofNat (20 + nas.length)).toNat = 20 + nas.length :=
    UInt8.toNat_ofNat_of_lt' (by show _ < 256; omega)
  rw [parseNasTransport, buildNasTransport_frame proc0 proc1 mmeId enbId hshort,
    parseFrame_encoded (hlen.trans hbody.symm) rfl]
  simp only [number_shortIdIe _ hmme, number_shortIdIe _ henb, octets_nasIe]
  exact if_pos ⟨rfl, rfl, rfl⟩

theorem nasTransported (proc0 proc1 : UInt8) {mmeId enbId : UInt32} {nas : List UInt8}
    (hmme : mmeId.toNat < 256) (henb : enbId.toNat < 256) (h : nas.length < 108) :
    NasTransported proc0 proc1 mmeId enbId nas :=
  ⟨countsRest_buildNasTransport proc0 proc1 mmeId enbId h,
    parseNasTransport_build proc0 proc1 hmme henb (Nat.lt_trans h (by decide))⟩

/-- The longest NAS-PDU of the range, in a downlink transport. -/
theorem nasTransported_longest : NasTransported 0x00 0x0b 255 255 (List.replicate 107 0) :=
  nasTransported 0x00 0x0b (by decide) (by decide) (by decide)

/-- 256 is read back as 0, and a body of 128 bytes has no length of one byte. -/
theorem not_nasTransported :
    ¬NasTransported 0x00 0x0b 256 1 [] ∧
      ¬NasTransported 0x00 0x0b 1 1 (List.replicate 108 0) := by
  constructor
  · rintro ⟨-, hparse⟩
    have hzero : parseNasTransport (buildNasTransport 0x00 0x0b 256 1 []) = some (0, 1, []) := by
      decide
    cases hzero.symm.trans hparse
  · rintro ⟨⟨⟨len, hget, -, hlt⟩, -⟩, -⟩
    rw [buildNasTransport_eq] at hget
    obtain rfl := Option.some.inj hget
    exact absurd hlt (by decide)

end NasTransports

end MobileCore.S1apCodec
