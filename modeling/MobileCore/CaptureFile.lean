import MobileCore.CaptureFrames

namespace MobileCore.CaptureFile

open CaptureFrames CaptureStreams ConnectionKeys CppText

inductive GtpMsgType where
  | createSessionReq
  | createSessionRsp
  | modifyBearerReq
  | modifyBearerRsp
  | deleteSessionReq
  | deleteSessionRsp
deriving DecidableEq, Repr

def GtpMsgType.code : GtpMsgType → UInt8
  | .createSessionReq => 32
  | .createSessionRsp => 33
  | .modifyBearerReq => 34
  | .modifyBearerRsp => 35
  | .deleteSessionReq => 36
  | .deleteSessionRsp => 37

def PORT_S1AP : UInt16 := 36412

def PORT_SGW : UInt16 := 2123

structure SctpSeq where
  tsn : UInt32 := 0
  ssn : UInt16 := 0
deriving DecidableEq, Repr

/-- The numbering of the packets goes on from file to file, the connections start anew. -/
structure PcapWriter where
  tcp : Writer
  sctpSeq : UInt64 → SctpSeq
  pktId : UInt32

def openFile (pktId : UInt32) : PcapWriter := ⟨opened, fun _ => {}, pktId⟩

inductive Message where
  | s1ap (payload : Str)
  | gtpv2 (gtp : Str)
  | diameter (frame : Str)
  | sip (sipText : Str)
deriving DecidableEq, Repr

/-- A frame in the file, and the message that it carries; a handshake carries none. -/
structure Frame where
  bytes : Str
  carries : Option Message

def segmentFrames (pktId : UInt32) (m : Message) (segments : List Segment) : List Frame :=
  segments.mapIdx fun i s =>
    ⟨tcpFrame (pktId + UInt32.ofNat i).toUInt16 s, if s.push then some m else none⟩

def writeS1AP (w : PcapWriter) (srcIp dstIp : UInt32) (payload : Str) : PcapWriter × List Frame :=
  let src : Endpoint := ⟨srcIp, PORT_S1AP⟩
  let dst : Endpoint := ⟨dstIp, PORT_S1AP⟩
  let key := connKey src dst
  let ss := w.sctpSeq key
  ({ w with
      sctpSeq := Function.update w.sctpSeq key ⟨ss.tsn + 1, ss.ssn + 1⟩
      pktId := w.pktId + 1 },
    [⟨buildIPSCTP w.pktId.toUInt16 ss.tsn ss.ssn src dst payload 18, some (.s1ap payload)⟩])

def gtpMessage (msgType : GtpMsgType) (teid s : UInt32) (ieData : Str) : Str :=
  let gtpLen := UInt16.ofNat (8 + ieData.length)
  [0x48, msgType.code] ++ putU16 gtpLen ++ putU32 teid ++ putU24 s ++ [0x00] ++ ieData

def writeGTPv2 (w : PcapWriter) (msgType : GtpMsgType) (teid : UInt32) (srcIp dstIp : UInt32)
    (ieData : Str) : PcapWriter × List Frame :=
  let gtp := gtpMessage msgType teid w.pktId ieData
  ({ w with pktId := w.pktId + 2 },
    [⟨buildIPUDP (w.pktId + 1).toUInt16 ⟨srcIp, PORT_SGW⟩ ⟨dstIp, PORT_SGW⟩ gtp,
      some (.gtpv2 gtp)⟩])

/-- The session id is drawn only for a message without AVPs of its own. -/
def diameterPayload (w : PcapWriter) (cmd : DiameterCmd) (app : DiameterApp) (isRequest : Bool)
    (srcIp dstIp : UInt32) (avpData : Str) : UInt32 × Str :=
  if avpData.isEmpty then
    (w.pktId + 2, diameterFrame cmd app isRequest (w.pktId + 1) (defaultAvps srcIp dstIp w.pktId))
  else (w.pktId + 1, diameterFrame cmd app isRequest w.pktId avpData)

def writeStream (w : PcapWriter) (pktId : UInt32) (client server src dst : Endpoint) (payload : Str)
    (m : Message) : PcapWriter × List Frame :=
  let (tcp, segments) := transmit w.tcp client server src dst payload
  ({ w with tcp := tcp, pktId := pktId + UInt32.ofNat segments.length },
    segmentFrames pktId m segments)

def writeDiameter (w : PcapWriter) (cmd : DiameterCmd) (app : DiameterApp) (isRequest : Bool)
    (src dst : Endpoint) (avpData : Str) : PcapWriter × List Frame :=
  let (pktId, frame) := diameterPayload w cmd app isRequest src.ip dst.ip avpData
  writeStream w pktId src dst src dst frame (.diameter frame)

def writeSIP (w : PcapWriter) (sipText : Str) (src dst : Endpoint) : PcapWriter × List Frame :=
  writeStream w w.pktId ⟨src.ip, PORT_SIP⟩ ⟨dst.ip, PORT_SIP⟩ src dst sipText (.sip sipText)

/-- S1AP and GTPv2 take no ports from their caller, and S1AP no name. -/
inductive Call where
  | s1ap (srcIp dstIp : UInt32) (payload : Str)
  | gtpv2 (msgType : GtpMsgType) (teid srcIp dstIp : UInt32) (ieData : Str)
  | diameter (cmd : DiameterCmd) (app : DiameterApp) (isRequest : Bool) (src dst : Endpoint)
      (avpData : Str)
  | sip (sipText : Str) (src dst : Endpoint)
deriving DecidableEq, Repr

def write (w : PcapWriter) : Call → PcapWriter × List Frame
  | .s1ap srcIp dstIp payload => writeS1AP w srcIp dstIp payload
  | .gtpv2 msgType teid srcIp dstIp ieData => writeGTPv2 w msgType teid srcIp dstIp ieData
  | .diameter cmd app isRequest src dst avpData => writeDiameter w cmd app isRequest src dst avpData
  | .sip sipText src dst => writeSIP w sipText src dst

/-- The frames of a sequence of calls. -/
def captured (w : PcapWriter) : List Call → List Frame
  | [] => []
  | call :: calls => (write w call).2 ++ captured (write w call).1 calls

def putU32le (x : UInt32) : Str :=
  [x.toUInt8, (x >>> 8).toUInt8, (x >>> 16).toUInt8, (x >>> 24).toUInt8]

def globalHeader : Str :=
  putU32le 0xa1b2c3d4 ++ [2, 0] ++ [4, 0] ++ putU32le 0 ++ putU32le 0 ++ putU32le 65535 ++
    putU32le 1

def record (time : UInt32 × UInt32) (frame : Str) : Str :=
  let len := UInt32.ofNat frame.length
  putU32le time.1 ++ putU32le time.2 ++ putU32le len ++ putU32le len ++ frame

def records (times : Nat → UInt32 × UInt32) : Nat → List Str → Str
  | _, [] => []
  | i, frame :: frames => record (times i) frame ++ records times (i + 1) frames

/-- The file after some calls, when the `i`-th packet is written at the time `times i`. -/
def captureFile (times : Nat → UInt32 × UInt32) (pktId : UInt32) (calls : List Call) : Str :=
  globalHeader ++ records times 0 ((captured (openFile pktId) calls).map Frame.bytes)

section Reading

structure Packet where
  tsSec : Nat
  tsUsec : Nat
  data : Str
  inclLen : Nat
  origLen : Nat
deriving DecidableEq, Repr

def unpackLE (bytes : Str) : Nat := bytes.foldr (fun b n => b.toNat + 256 * n) 0

/-- The loop over the records, which takes what there is of the last one. -/
def readRecords (file : Str) : List Packet :=
  if file.length < 16 then []
  else
    let inclLen := unpackLE ((file.drop 8).take 4)
    ⟨unpackLE (file.take 4), unpackLE ((file.drop 4).take 4), (file.drop 16).take inclLen, inclLen,
      unpackLE ((file.drop 12).take 4)⟩ :: readRecords ((file.drop 16).drop inclLen)
termination_by file.length
decreasing_by
  rw [List.length_drop, List.length_drop]
  omega

/-- A file without a magic number has no packets. -/
def readPcapRaw (file : Str) : List Packet :=
  let magic := unpackLE (file.take 4)
  if file.length < 4 ∨ (magic ≠ 0xA1B2C3D4 ∧ magic ≠ 0xD4C3B2A1) then []
  else readRecords (file.drop 24)

theorem unpackLE_putU32le (x : UInt32) : unpackLE (putU32le x) = x.toNat := by
  have hlt := x.toNat_lt
  have h24 : (x >>> 24).toUInt8.toNat = x.toNat / 2 ^ 24 % 256 :=
    BigEndian.toNat_byte x (by decide) rfl
  have h16 : (x >>> 16).toUInt8.toNat = x.toNat / 2 ^ 16 % 256 :=
    BigEndian.toNat_byte x (by decide) rfl
  have h8 : (x >>> 8).toUInt8.toNat = x.toNat / 2 ^ 8 % 256 :=
    BigEndian.toNat_byte x (by decide) rfl
  simp only [unpackLE, putU32le, List.foldr_cons, List.foldr_nil, UInt32.toNat_toUInt8, h24, h16,
    h8]
  omega

theorem readRecords_nil : readRecords [] = [] := by
  rw [readRecords]
  rfl

theorem readRecords_record (time : UInt32 × UInt32) (frame rest : Str) :
    readRecords (record time frame ++ rest) =
      ⟨time.1.toNat, time.2.toNat, (frame ++ rest).take (frame.length % 2 ^ 32),
        frame.length % 2 ^ 32, frame.length % 2 ^ 32⟩ ::
        readRecords ((frame ++ rest).drop (frame.length % 2 ^ 32)) := by
  have hfull : ¬(record time frame ++ rest).length < 16 := by
    have hlength : (record time frame ++ rest).length = 16 + (frame ++ rest).length :=
      Nat.add_comm _ 16
    rw [hlength]
    omega
  have hsec : (record time frame ++ rest).take 4 = putU32le time.1 := rfl
  have husec : ((record time frame ++ rest).drop 4).take 4 = putU32le time.2 := rfl
  have hincl : ((record time frame ++ rest).drop 8).take 4 =
      putU32le (UInt32.ofNat frame.length) := rfl
  have horig : ((record time frame ++ rest).drop 12).take 4 =
      putU32le (UInt32.ofNat frame.length) := rfl
  have hbody : (record time frame ++ rest).drop 16 = frame ++ rest := rfl
  rw [readRecords, if_neg hfull]
  simp only [hsec, husec, hincl, horig, hbody, unpackLE_putU32le, UInt32.toNat_ofNat']

theorem readRecords_data_iff (times : Nat → UInt32 × UInt32) (i : Nat) (frames : List Str) :
    (readRecords (records times i frames)).map Packet.data = frames ↔
      ∀ frame ∈ frames, frame.length < 2 ^ 32 := by
  induction frames generalizing i with
  | nil => simp [records, readRecords_nil]
  | cons frame frames ih =>
      rw [records, readRecords_record, List.map_cons, List.cons.injEq, List.forall_mem_cons]
      constructor
      · rintro ⟨hfirst, hrest⟩
        have hlength := congrArg List.length hfirst
        rw [List.length_take] at hlength
        have hfits : frame.length < 2 ^ 32 := by
          have hmod := Nat.mod_lt frame.length (by decide : 0 < 2 ^ 32)
          omega
        rw [Nat.mod_eq_of_lt hfits, List.drop_left] at hrest
        exact ⟨hfits, (ih (i + 1)).mp hrest⟩
      · rintro ⟨hfits, hrest⟩
        rw [Nat.mod_eq_of_lt hfits, List.take_left, List.drop_left]
        exact ⟨rfl, (ih (i + 1)).mpr hrest⟩

theorem readPcapRaw_captureFile (times : Nat → UInt32 × UInt32) (pktId : UInt32)
    (calls : List Call) :
    readPcapRaw (captureFile times pktId calls) =
      readRecords (records times 0 ((captured (openFile pktId) calls).map Frame.bytes)) := by
  have hmagic : unpackLE ((captureFile times pktId calls).take 4) = 0xA1B2C3D4 :=
    unpackLE_putU32le 0xa1b2c3d4
  have hheader : globalHeader.length = 24 := rfl
  have hbody : (captureFile times pktId calls).drop 24 =
      records times 0 ((captured (openFile pktId) calls).map Frame.bytes) :=
    List.drop_left' hheader
  have hfull : ¬(captureFile times pktId calls).length < 4 := by
    rw [captureFile, List.length_append, hheader]
    omega
  simp only [readPcapRaw, hmagic, hbody]
  rw [if_neg]
  rintro (hshort | ⟨hother, -⟩)
  · exact hfull hshort
  · exact hother rfl

/-- The packets in the file are the frames, when none is too long for its length field. -/
theorem packets_captureFile_iff (times : Nat → UInt32 × UInt32) (pktId : UInt32)
    (calls : List Call) :
    (readPcapRaw (captureFile times pktId calls)).map Packet.data =
        (captured (openFile pktId) calls).map Frame.bytes ↔
      ∀ frame ∈ captured (openFile pktId) calls, frame.bytes.length < 2 ^ 32 := by
  rw [readPcapRaw_captureFile, readRecords_data_iff, List.forall_mem_map]

end Reading

end MobileCore.CaptureFile
