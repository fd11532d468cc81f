import MobileCore.BigEndian
import MobileCore.CaptureStreams
import MobileCore.ItemRuns

namespace MobileCore.DiameterAvps

open BigEndian CaptureStreams ConnectionKeys CppText ItemRuns

abbrev Avp := UInt32 × Str

/-- What callers hand to `writeDiameter`. -/
def appendAvps (avps : List Avp) : Str := avps.foldl (fun v avp => addAvpStr v avp.1 avp.2) []

/-- The bytes up to the next multiple of four. -/
def padding (n : Nat) : Nat := (4 - n % 4) % 4

def encodeAvp (avp : Avp) : Str :=
  putU32 avp.1 ++ (0x40 :: putU24 (UInt32.ofNat (8 + avp.2.length))) ++ avp.2 ++
    List.replicate (padding (8 + avp.2.length)) 0

/-- A step of the walk: the code and the data of an AVP, and the bytes behind its padding. -/
def readAvp (bytes : Str) : Option (Avp × Str) :=
  let length := number ((bytes.drop 5).take 3)
  let padded := length + padding length
  if 8 ≤ length ∧ padded ≤ bytes.length then
    some ((UInt32.ofNat (number (bytes.take 4)), (bytes.take length).drop 8), bytes.drop padded)
  else none

def headerLength (msg : Str) : Nat := number ((msg.drop 1).take 3)

/-- The header has the size of the message, and the walk visits these AVPs up to its end. -/
def WellFramed (msg : Str) (avps : List Avp) : Prop :=
  headerLength msg = msg.length ∧ readAll readAvp (msg.drop 20) = some avps

def lastPayload (segments : List Segment) : Str :=
  match segments.getLast? with
  | none => []
  | some s => s.payload

def diameterMessage (w : Writer) (cmd : DiameterCmd) (app : DiameterApp) (isRequest : Bool)
    (src dst : Endpoint) (avps : List Avp) (sid id : UInt32) : Str :=
  lastPayload (writeDiameter w cmd app isRequest src dst (appendAvps avps) sid id).2

/-- The AVPs that a message without any is given. -/
def defaultAvpList (srcIp dstIp sid : UInt32) : List Avp :=
  [(263, diamIdentity srcIp ++ (lit ";" ++ natText sid.toNat)), (264, diamIdentity srcIp),
    (296, diamRealm srcIp), (283, diamRealm dstIp)]

theorem appendAvps_defaultAvpList (srcIp dstIp sid : UInt32) :
    appendAvps (defaultAvpList srcIp dstIp sid) = defaultAvps srcIp dstIp sid := rfl

theorem number_putU32 (x : UInt32) : number (putU32 x) = x.toNat := by
  have hlt := x.toNat_lt
  have h24 : (x >>> 24).toUInt8.toNat = x.toNat / 2 ^ 24 % 256 := toNat_byte x (by decide) rfl
  have h16 : (x >>> 16).toUInt8.toNat = x.toNat / 2 ^ 16 % 256 := toNat_byte x (by decide) rfl
  have h8 : (x >>> 8).toUInt8.toNat = x.toNat / 2 ^ 8 % 256 := toNat_byte x (by decide) rfl
  simp only [number, putU32, List.foldl_cons, List.foldl_nil, UInt32.toNat_toUInt8, h24, h16, h8]
  omega

theorem number_putU24 {n : Nat} (h : n < 2 ^ 24) : number (putU24 (UInt32.ofNat n)) = n := by
  have hn : (UInt32.ofNat n).toNat = n := UInt32.toNat_ofNat_of_lt' (Nat.lt_trans h (by decide))
  have h16 : (UInt32.ofNat n >>> 16).toUInt8.toNat = n / 2 ^ 16 % 256 :=
    (toNat_byte _ (by decide) rfl).trans (congrArg (· / 2 ^ 16 % 256) hn)
  have h8 : (UInt32.ofNat n >>> 8).toUInt8.toNat = n / 2 ^ 8 % 256 :=
    (toNat_byte _ (by decide) rfl).trans (congrArg (· / 2 ^ 8 % 256) hn)
  simp only [number, putU24, List.foldl_cons, List.foldl_nil, UInt32.toNat_toUInt8, h16, h8, hn]
  omega

theorem length_putU32 (x : UInt32) : (putU32 x).length = 4 := rfl

theorem length_putU24 (x : UInt32) : (putU24 x).length = 3 := rfl

theorem length_encodeAvp (avp : Avp) :
    (encodeAvp avp).length = 8 + avp.2.length + padding (8 + avp.2.length) := by
  simp only [encodeAvp, List.length_append, List.length_cons, List.length_replicate, length_putU32,
    length_putU24]

theorem encodeAvp_aligned (avp : Avp) : (encodeAvp avp).length % 4 = 0 := by
  rw [length_encodeAvp, padding]
  omega

/-- At a multiple of four bytes an AVP is written the same way wherever it is. -/
theorem addAvpStr_aligned {v : Str} (h : v.length % 4 = 0) (code : UInt32) (s : Str) :
    addAvpStr v code s = v ++ encodeAvp (code, s) := by
  have hpad : (4 - (v.length + (8 + s.length)) % 4) % 4 = padding (8 + s.length) := by
    rw [padding]
    omega
  have hlength :
      (v ++ (putU32 code ++ (0x40 :: putU24 (UInt32.ofNat (8 + s.length))) ++ s)).length =
        v.length + (8 + s.length) := by
    simp only [List.length_append, List.length_cons, length_putU32, length_putU24]
  simp only [addAvpStr, hlength, hpad]
  simp only [encodeAvp, List.append_assoc]

theorem foldl_addAvpStr (avps : List Avp) {v : Str} (h : v.length % 4 = 0) :
    avps.foldl (fun v avp => addAvpStr v avp.1 avp.2) v = v ++ avps.flatMap encodeAvp := by
  induction avps generalizing v with
  | nil => exact (List.append_nil v).symm
  | cons avp avps ih =>
      have halign : (v ++ encodeAvp avp).length % 4 = 0 := by
        have havp := encodeAvp_aligned avp
        rw [List.length_append]
        omega
      rw [List.foldl_cons, addAvpStr_aligned h, ih halign, List.flatMap_cons, List.append_assoc]

theorem appendAvps_eq (avps : List Avp) : appendAvps avps = avps.flatMap encodeAvp :=
  foldl_addAvpStr avps rfl

theorem inverts_readAvp {avp : Avp} (h : (encodeAvp avp).length < 2 ^ 24) :
    Inverts readAvp encodeAvp avp := by
  intro rest
  obtain ⟨code, s⟩ := avp
  have hsize := length_encodeAvp (code, s)
  have hnumber : number (((encodeAvp (code, s) ++ rest).drop 5).take 3) = 8 + s.length := by
    have hfits : 8 + s.length < 2 ^ 24 := by
      rw [hsize] at h
      exact Nat.lt_of_le_of_lt (Nat.le_add_right _ _) h
    exact number_putU24 hfits
  have hcode : UInt32.ofNat (number ((encodeAvp (code, s) ++ rest).take 4)) = code := by
    have hfour : (encodeAvp (code, s) ++ rest).take 4 = putU32 code := rfl
    rw [hfour, number_putU32, UInt32.ofNat_toNat]
  have hdata : ((encodeAvp (code, s) ++ rest).take (8 + s.length)).drop 8 = s := by
    have height : (encodeAvp (code, s) ++ rest).drop 8 =
        s ++ (List.replicate (padding (8 + s.length)) 0 ++ rest) := by
      simp only [encodeAvp, List.append_assoc]
      rfl
    rw [List.drop_take, height, Nat.add_sub_cancel_left, List.take_left]
  have hrest : (encodeAvp (code, s) ++ rest).drop (8 + s.length + padding (8 + s.length)) =
      rest := List.drop_left' hsize
  have hroom : 8 + s.length + padding (8 + s.length) ≤ (encodeAvp (code, s) ++ rest).length := by
    rw [List.length_append, hsize]
    exact Nat.le_add_right _ _
  simp only [readAvp, hnumber, hcode, hdata, hrest]
  exact if_pos ⟨Nat.le_add_right 8 _, hroom⟩

theorem length_encodeAvp_le {avp : Avp} {avps : List Avp} (h : avp ∈ avps) :
    (encodeAvp avp).length ≤ (avps.flatMap encodeAvp).length := by
  obtain ⟨before, after, rfl⟩ := List.append_of_mem h
  rw [List.flatMap_append, List.flatMap_cons, List.length_append, List.length_append]
  omega

theorem length_diameterFrame (cmd : DiameterCmd) (app : DiameterApp) (isRequest : Bool)
    (id : UInt32) (avps : Str) :
    (diameterFrame cmd app isRequest id avps).length = 20 + avps.length := by
  simp only [diameterFrame, List.length_cons, List.length_append, length_putU24, length_putU32]
  omega

theorem wellFramed_diameterFrame (cmd : DiameterCmd) (app : DiameterApp) (isRequest : Bool)
    (id : UInt32) {avps : List Avp}
    (h : (diameterFrame cmd app isRequest id (appendAvps avps)).length < 2 ^ 24) :
    WellFramed (diameterFrame cmd app isRequest id (appendAvps avps)) avps := by
  have hlength := length_diameterFrame cmd app isRequest id (appendAvps avps)
  have hfits : 20 + (appendAvps avps).length < 2 ^ 24 := hlength ▸ h
  constructor
  · have hadd : 20 + UInt32.ofNat (appendAvps avps).length =
        UInt32.ofNat (20 + (appendAvps avps).length) := (UInt32.ofNat_add 20 _).symm
    rw [hlength, diameterFrame, hadd]
    exact number_putU24 hfits
  · have hbody : (diameterFrame cmd app isRequest id (appendAvps avps)).drop 20 =
        avps.flatMap encodeAvp := appendAvps_eq avps
    rw [hbody]
    apply readAll_encoded
    intro avp havp
    have hle := length_encodeAvp_le havp
    rw [appendAvps_eq] at hfits
    refine ⟨inverts_readAvp (by omega), List.ne_nil_of_length_pos ?_⟩
    rw [length_encodeAvp]
    omega

theorem appendAvps_isEmpty (avps : List Avp) : (appendAvps avps).isEmpty = avps.isEmpty := by
  cases avps with
  | nil => rfl
  | cons avp avps =>
      have hfull : ¬(appendAvps (avp :: avps)).isEmpty = true := by
        rw [appendAvps_eq, List.flatMap_cons, List.isEmpty_iff]
        exact List.append_ne_nil_of_left_ne_nil (List.append_ne_nil_of_left_ne_nil
          (List.append_ne_nil_of_left_ne_nil (List.cons_ne_nil _ _) _) _) _
      exact Bool.eq_false_iff.mpr hfull

def avpsOf (avps : List Avp) (srcIp dstIp sid : UInt32) : List Avp :=
  if avps.isEmpty then defaultAvpList srcIp dstIp sid else avps

theorem diameterMessage_eq (w : Writer) (cmd : DiameterCmd) (app : DiameterApp) (isRequest : Bool)
    (src dst : Endpoint) (avps : List Avp) (sid id : UInt32) :
    diameterMessage w cmd app isRequest src dst avps sid id =
      diameterFrame cmd app isRequest id (appendAvps (avpsOf avps src.ip dst.ip sid)) := by
  have hpayload : (if (appendAvps avps).isEmpty then defaultAvps src.ip dst.ip sid
      else appendAvps avps) = appendAvps (avpsOf avps src.ip dst.ip sid) := by
    rw [appendAvps_isEmpty, avpsOf]
    split
    · exact (appendAvps_defaultAvpList src.ip dst.ip sid).symm
    · rfl
  simp only [diameterMessage, writeDiameter, transmit, hpayload, lastPayload,
    List.getLast?_append, List.getLast?_singleton]
  rfl

/-- The walk ends at the end of the message, after the AVPs of the caller or of the writer. -/
theorem wellFramed_diameterMessage (w : Writer) (cmd : DiameterCmd) (app : DiameterApp)
    (isRequest : Bool) (src dst : Endpoint) (avps : List Avp) (sid id : UInt32)
    (h : (diameterMessage w cmd app isRequest src dst avps sid id).length < 2 ^ 24) :
    WellFramed (diameterMessage w cmd app isRequest src dst avps sid id)
      (avpsOf avps src.ip dst.ip sid) := by
  rw [diameterMessage_eq] at h ⊢
  exact wellFramed_diameterFrame cmd app isRequest id h

/-- A user name of two bytes and a host of four. -/
theorem wellFramed_two_avps :
    WellFramed (diameterMessage opened .authInfo .s6a true ⟨IP_MME, 3868⟩ ⟨IP_HSS, 3868⟩
      [(1, lit "ue"), (264, lit "mme1")] 1 2) [(1, lit "ue"), (264, lit "mme1")] :=
  wellFramed_diameterMessage opened .authInfo .s6a true ⟨IP_MME, 3868⟩ ⟨IP_HSS, 3868⟩
    [(1, lit "ue"), (264, lit "mme1")] 1 2 (by decide +kernel)

/-- The walk through a message without AVPs of the caller visits those of the writer. -/
theorem not_wellFramed_empty :
    ¬WellFramed (diameterMessage opened .authInfo .s6a true ⟨IP_MME, 3868⟩ ⟨IP_HSS, 3868⟩
      [] 1 2) [] := by
  rintro ⟨-, hwalk⟩
  rw [diameterMessage_eq] at hwalk
  have hsmall : (diameterFrame .authInfo .s6a true 2
      (appendAvps (avpsOf [] IP_MME IP_HSS 1))).length < 2 ^ 24 := by decide +kernel
  have hdefaults := (wellFramed_diameterFrame .authInfo .s6a true 2 hsmall).2
  cases hdefaults.symm.trans hwalk

end MobileCore.DiameterAvps
