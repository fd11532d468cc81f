import MobileCore.BigEndian
import MobileCore.CaptureStreams
import MobileCore.DiameterAvps
import MobileCore.OnesComplement

/-!
# Captured frames

Every message in the capture file is in an Ethernet frame with an IPv4 header, and under that a TCP,
UDP or SCTP header. Lengths of 16 bits and the checksum of the IPv4 header are computed from the
payload.
-/

namespace MobileCore.CaptureFrames

open BigEndian CaptureStreams ConnectionKeys CppText
open DiameterAvps (length_putU32 padding)
open OnesComplement (wordsOf wordsOf_append wordsOf_lt sum_eq_ones sum_wordsOf_le)

def putU16 (x : UInt16) : Str := [(x >>> 8).toUInt8, x.toUInt8]

def buildEthernet : Str := List.replicate 6 0x02 ++ List.replicate 6 0x01 ++ [0x08, 0x00]

def sumWords (sum : UInt32) : List UInt8 → UInt32
  | high :: low :: rest => sumWords (sum + ((high.toUInt32 <<< 8) ||| low.toUInt32)) rest
  | _ => sum

theorem toNat_high (sum : UInt32) : (sum >>> 16).toNat = sum.toNat / 2 ^ 16 :=
  (UInt32.toNat_shiftRight sum 16).trans (Nat.shiftRight_eq_div_pow _ 16)

theorem toNat_foldOnce (sum : UInt32) :
    ((sum &&& (0xFFFF : UInt32)) + (sum >>> 16)).toNat =
      sum.toNat % 2 ^ 16 + sum.toNat / 2 ^ 16 := by
  have hlt := sum.toNat_lt
  have hlow : (sum &&& 0xFFFF).toNat = sum.toNat % 2 ^ 16 :=
    (UInt32.toNat_and sum 0xFFFF).trans (Nat.and_two_pow_sub_one_eq_mod _ 16)
  rw [UInt32.toNat_add, hlow, toNat_high]
  omega

theorem high_ne_zero_iff (sum : UInt32) : sum >>> 16 ≠ 0 ↔ 2 ^ 16 ≤ sum.toNat := by
  rw [Ne, ← UInt32.toNat_inj, toNat_high]
  show ¬sum.toNat / 2 ^ 16 = 0 ↔ _
  omega

def foldCarries (sum : UInt32) : UInt32 :=
  if sum >>> 16 ≠ 0 then foldCarries ((sum &&& (0xFFFF : UInt32)) + (sum >>> 16)) else sum
termination_by sum.toNat
decreasing_by
  rename_i hhigh
  rw [toNat_foldOnce]
  rw [high_ne_zero_iff] at hhigh
  omega

def ipChecksum (buf : List UInt8) : UInt16 := (~~~(foldCarries (sumWords 0 buf))).toUInt16

def ipHeader (ipTotal ipId : UInt16) (protocol : UInt8) (srcIp dstIp : UInt32) : Str :=
  let ip : Str := [0x45, 0x00] ++ putU16 ipTotal ++ putU16 ipId ++ putU16 0x4000 ++
    [64, protocol] ++ putU16 0x0000 ++ putU32 srcIp ++ putU32 dstIp
  let ck := ipChecksum ip
  (ip.set 10 (ck >>> 8).toUInt8).set 11 ck.toUInt8

/-- The verification tag is fixed, and the checksum is left out. -/
def sctpHeader (src dst : Endpoint) : Str :=
  putU16 src.port ++ putU16 dst.port ++ putU32 0x12345678 ++ putU32 0x00000000

/-- Type and flags, the length, then the numbers of the chunk. -/
def chunkHeader (chunkLen : UInt16) (tsn : UInt32) (ssn : UInt16) (ppid : UInt32) : Str :=
  [0x00, 0x03] ++ (putU16 chunkLen ++ (putU32 tsn ++ putU16 0 ++ putU16 ssn ++ putU32 ppid))

/-- The numbers of a data chunk come from the state of its association. -/
def buildIPSCTP (ipId : UInt16) (tsn : UInt32) (ssn : UInt16) (src dst : Endpoint) (payload : Str)
    (ppid : UInt32) : Str :=
  let chunkPad := padding (16 + payload.length)
  let ipTotal := UInt16.ofNat (20 + 12 + 16 + payload.length + chunkPad)
  let chunkLen := UInt16.ofNat (16 + payload.length)
  buildEthernet ++ ipHeader ipTotal ipId 132 src.ip dst.ip ++ sctpHeader src dst ++
    chunkHeader chunkLen tsn ssn ppid ++ payload ++ List.replicate chunkPad 0

def tcpHeader (s : Segment) : Str :=
  putU16 s.src.port ++ putU16 s.dst.port ++ putU32 s.seq ++ putU32 s.ack ++ [0x50, s.flags] ++
    putU16 65535 ++ putU16 0x0000 ++ putU16 0x0000

def tcpFrame (ipId : UInt16) (s : Segment) : Str :=
  let ipTotal := UInt16.ofNat (20 + 20 + s.payload.length)
  buildEthernet ++ ipHeader ipTotal ipId 6 s.src.ip s.dst.ip ++ tcpHeader s ++ s.payload

def udpHeader (src dst : Endpoint) (udpLen : UInt16) : Str :=
  putU16 src.port ++ putU16 dst.port ++ (putU16 udpLen ++ putU16 0)

def buildIPUDP (ipId : UInt16) (src dst : Endpoint) (payload : Str) : Str :=
  let udpLen := UInt16.ofNat (8 + payload.length)
  let ipTotal := 20 + udpLen
  buildEthernet ++ ipHeader ipTotal ipId 17 src.ip dst.ip ++ udpHeader src dst udpLen ++ payload

def field (offset size : Nat) (frame : Str) : Nat := number ((frame.drop offset).take size)

/-- The builder of a frame, with the numbers that it takes from its connection. -/
inductive Transport where
  | sctp (tsn : UInt32) (ssn : UInt16) (ppid : UInt32)
  | tcp (flags : UInt8) (seqNum ackNum : UInt32)
  | udp
deriving DecidableEq, Repr

def Transport.build (t : Transport) (ipId : UInt16) (src dst : Endpoint) (payload : Str) : Str :=
  match t with
  | .sctp tsn ssn ppid => buildIPSCTP ipId tsn ssn src dst payload ppid
  | .tcp flags seqNum ackNum => tcpFrame ipId (buildIPTCP src dst payload flags seqNum ackNum)
  | .udp => buildIPUDP ipId src dst payload

/-- The length of the IPv4 header counts the packet, and the words of the header sum to ones. -/
structure Ipv4Sound (frame : Str) : Prop where
  total : field 16 2 frame = frame.length - 14
  checksum : OnesComplement.sum (wordsOf ((frame.drop 14).take 20)) = 0xFFFF

/-- The transport header is followed by the payload. A chunk of SCTP goes on to a multiple of four
bytes, which its length does not count. -/
def Transport.Sound (t : Transport) (payload frame : Str) : Prop :=
  match t with
  | .sctp _ _ _ =>
    field 48 2 frame = 16 + payload.length ∧ (frame.drop 46).length % 4 = 0 ∧
      ∃ pad < 4, frame.drop 62 = payload ++ List.replicate pad 0
  | .tcp _ _ _ => frame.drop 54 = payload
  | .udp => field 38 2 frame = (frame.drop 34).length ∧ frame.drop 42 = payload

theorem toNat_word (high low : UInt8) :
    ((high.toUInt32 <<< 8) ||| low.toUInt32).toNat = high.toNat * 256 + low.toNat := by
  have hhigh := high.toNat_lt
  have hlow := low.toNat_lt
  have hshift : (high.toUInt32 <<< 8).toNat = high.toNat <<< 8 := by
    rw [UInt32.toNat_shiftLeft, UInt8.toNat_toUInt32]
    apply Nat.mod_eq_of_lt
    show high.toNat <<< 8 < 2 ^ 32
    rw [Nat.shiftLeft_eq]
    omega
  rw [UInt32.toNat_or, hshift, UInt8.toNat_toUInt32, ← Nat.shiftLeft_add_eq_or_of_lt hlow,
    Nat.shiftLeft_eq]

theorem toNat_sumWords {sum : UInt32} {bytes : List UInt8}
    (h : sum.toNat + (wordsOf bytes).sum < 2 ^ 32) :
    (sumWords sum bytes).toNat = sum.toNat + (wordsOf bytes).sum := by
  induction bytes using List.twoStepInduction generalizing sum with
  | nil | singleton b => exact (Nat.add_zero _).symm
  | cons_cons high low rest ih =>
      rw [wordsOf, List.sum_cons, ← Nat.add_assoc] at h ⊢
      have hadd : (sum + ((high.toUInt32 <<< 8) ||| low.toUInt32)).toNat =
          sum.toNat + (high.toNat * 256 + low.toNat) := by
        rw [UInt32.toNat_add, toNat_word]
        apply Nat.mod_eq_of_lt
        omega
      rw [sumWords, ih (by rw [hadd]; exact h), hadd]

theorem foldCarries_spec (sum : UInt32) : (foldCarries sum).toNat < 2 ^ 16 ∧
    OnesComplement.SameWord (foldCarries sum).toNat sum.toNat := by
  fun_induction foldCarries sum with
  | case1 sum hhigh ih =>
      obtain ⟨hlt, hsame⟩ := ih
      refine ⟨hlt, hsame.trans ?_⟩
      rw [toNat_foldOnce]
      constructor
      · omega
      · omega
  | case2 sum hhigh =>
      rw [high_ne_zero_iff] at hhigh
      exact ⟨by omega, rfl, Iff.rfl⟩

/-- The checksum and the words that it was computed over make a multiple of 65535. -/
theorem ipChecksum_spec {buf : List UInt8} (h : (wordsOf buf).sum < 2 ^ 32) :
    ((ipChecksum buf).toNat + (wordsOf buf).sum) % 65535 = 0 := by
  have hzero : (0 : UInt32).toNat = 0 := rfl
  have hsum : (sumWords 0 buf).toNat = (wordsOf buf).sum := by
    rw [toNat_sumWords (by rw [hzero]; omega), hzero, Nat.zero_add]
  obtain ⟨hlt, hmod, -⟩ := foldCarries_spec (sumWords 0 buf)
  rw [hsum] at hmod
  have hnot : (ipChecksum buf).toNat = 65535 - (foldCarries (sumWords 0 buf)).toNat := by
    rw [ipChecksum, UInt32.toNat_toUInt16, UInt32.toNat_not]
    show (2 ^ 32 - 1 - _) % 2 ^ 16 = _
    omega
  rw [hnot]
  omega

def headerFront (ipTotal ipId : UInt16) (protocol : UInt8) : Str :=
  [0x45, 0x00] ++ putU16 ipTotal ++ putU16 ipId ++ putU16 0x4000 ++ [64, protocol]

def headerBack (srcIp dstIp : UInt32) : Str := putU32 srcIp ++ putU32 dstIp

theorem ipHeader_eq (ipTotal ipId : UInt16) (protocol : UInt8) (srcIp dstIp : UInt32) :
    ipHeader ipTotal ipId protocol srcIp dstIp =
      headerFront ipTotal ipId protocol ++
        (putU16 (ipChecksum (headerFront ipTotal ipId protocol ++
          (putU16 0x0000 ++ headerBack srcIp dstIp))) ++ headerBack srcIp dstIp) := rfl

theorem length_putU16 (x : UInt16) : (putU16 x).length = 2 := rfl

theorem word_putU16 (x : UInt16) : (x >>> 8).toUInt8.toNat * 256 + x.toUInt8.toNat = x.toNat := by
  have hlt := x.toNat_lt
  have hhigh : (x >>> 8).toUInt8.toNat = x.toNat / 256 % 256 := by
    rw [UInt16.toNat_toUInt8, UInt16.toNat_shiftRight]
    exact congrArg (· % 256) (Nat.shiftRight_eq_div_pow _ 8)
  rw [hhigh, UInt16.toNat_toUInt8]
  omega

theorem wordsOf_putU16 (x : UInt16) : wordsOf (putU16 x) = [x.toNat] :=
  congrArg (· :: []) (word_putU16 x)

theorem number_putU16 (x : UInt16) : number (putU16 x) = x.toNat := by
  rw [← word_putU16 x, number, putU16, List.foldl_cons, List.foldl_cons, List.foldl_nil,
    Nat.zero_mul, Nat.zero_add]

theorem ipHeader_checksum (ipTotal ipId : UInt16) (protocol : UInt8) (srcIp dstIp : UInt32) :
    OnesComplement.sum (wordsOf (ipHeader ipTotal ipId protocol srcIp dstIp)) = 0xFFFF := by
  have hfront : (headerFront ipTotal ipId protocol).length % 2 = 0 := by
    simp [headerFront, putU16]
  have hsplit (x : UInt16) : (wordsOf (headerFront ipTotal ipId protocol ++
      (putU16 x ++ headerBack srcIp dstIp))).sum =
        (wordsOf (headerFront ipTotal ipId protocol)).sum + (x.toNat +
          (wordsOf (headerBack srcIp dstIp)).sum) := by
    rw [wordsOf_append hfront, wordsOf_append (by rw [length_putU16]), wordsOf_putU16,
      List.sum_append, List.sum_append, List.sum_singleton]
  have hbound : (wordsOf (headerFront ipTotal ipId protocol ++
      (putU16 0x0000 ++ headerBack srcIp dstIp))).sum < 2 ^ 32 :=
    Nat.lt_of_le_of_lt (sum_wordsOf_le _) (by decide : 20 * 2 ^ 15 < 2 ^ 32)
  have hpos : 0x45 * 256 ≤ (wordsOf (headerFront ipTotal ipId protocol)).sum :=
    Nat.le_add_right (0x45 * 256) _
  have hcheck := ipChecksum_spec hbound
  have hzero : (0x0000 : UInt16).toNat = 0 := rfl
  rw [hsplit, hzero] at hcheck
  rw [ipHeader_eq]
  apply sum_eq_ones (wordsOf_lt _)
  · rw [hsplit]
    omega
  · rw [hsplit]
    omega

theorem length_ipHeader (ipTotal ipId : UInt16) (protocol : UInt8) (srcIp dstIp : UInt32) :
    (ipHeader ipTotal ipId protocol srcIp dstIp).length = 20 := rfl

theorem length_sctpHeader (src dst : Endpoint) : (sctpHeader src dst).length = 12 := rfl

theorem length_chunkHeader (chunkLen : UInt16) (tsn : UInt32) (ssn : UInt16) (ppid : UInt32) :
    (chunkHeader chunkLen tsn ssn ppid).length = 16 := rfl

theorem length_tcpHeader (s : Segment) : (tcpHeader s).length = 20 := rfl

theorem length_udpHeader (src dst : Endpoint) (udpLen : UInt16) :
    (udpHeader src dst udpLen).length = 8 := rfl

def lowerHeaders (ipTotal ipId : UInt16) (protocol : UInt8) (srcIp dstIp : UInt32) : Str :=
  buildEthernet ++ ipHeader ipTotal ipId protocol srcIp dstIp

theorem length_lowerHeaders (ipTotal ipId : UInt16) (protocol : UInt8) (srcIp dstIp : UInt32) :
    (lowerHeaders ipTotal ipId protocol srcIp dstIp).length = 34 := rfl

theorem field_append {front value : Str} {offset size : Nat} (hfront : front.length = offset)
    (hvalue : value.length = size) (rest : Str) :
    field offset size (front ++ (value ++ rest)) = number value := by
  rw [field, List.drop_left' hfront, List.take_left' hvalue]

theorem length_buildEthernet : buildEthernet.length = 14 := rfl

theorem ipv4Sound_frame {ipTotal : UInt16} (ipId : UInt16) (protocol : UInt8) (srcIp dstIp : UInt32)
    {rest : Str} (h : ipTotal.toNat = 20 + rest.length) :
    Ipv4Sound (lowerHeaders ipTotal ipId protocol srcIp dstIp ++ rest) := by
  constructor
  · have hfield : field 16 2 (lowerHeaders ipTotal ipId protocol srcIp dstIp ++ rest) =
        number (putU16 ipTotal) := rfl
    rw [hfield, number_putU16, h, List.length_append, length_lowerHeaders]
    omega
  · have hheader : ((lowerHeaders ipTotal ipId protocol srcIp dstIp ++ rest).drop 14).take 20 =
        ipHeader ipTotal ipId protocol srcIp dstIp := by
      rw [lowerHeaders, List.append_assoc, List.drop_left' length_buildEthernet,
        List.take_left' (length_ipHeader ipTotal ipId protocol srcIp dstIp)]
    rw [hheader]
    exact ipHeader_checksum ipTotal ipId protocol srcIp dstIp

section Sctp

variable (ipId : UInt16) (tsn : UInt32) (ssn : UInt16) (ppid : UInt32) (src dst : Endpoint)
  (payload : Str)

def sctpFront (payload : Str) : Str :=
  lowerHeaders (UInt16.ofNat (20 + 12 + 16 + payload.length + padding (16 + payload.length))) ipId
    132 src.ip dst.ip ++ sctpHeader src dst

theorem length_sctpFront : (sctpFront ipId src dst payload).length = 46 := by
  rw [sctpFront, List.length_append, length_lowerHeaders, length_sctpHeader]

theorem buildIPSCTP_eq : buildIPSCTP ipId tsn ssn src dst payload ppid =
    sctpFront ipId src dst payload ++
      (chunkHeader (UInt16.ofNat (16 + payload.length)) tsn ssn ppid ++
        (payload ++ List.replicate (padding (16 + payload.length)) 0)) := by
  simp only [buildIPSCTP, sctpFront, lowerHeaders, List.append_assoc]

theorem drop_buildIPSCTP : (buildIPSCTP ipId tsn ssn src dst payload ppid).drop 62 =
    payload ++ List.replicate (padding (16 + payload.length)) 0 := by
  rw [buildIPSCTP_eq, ← List.append_assoc, List.drop_left']
  rw [List.length_append, length_sctpFront, length_chunkHeader]

theorem field_chunkLength : field 48 2 (buildIPSCTP ipId tsn ssn src dst payload ppid) =
    (UInt16.ofNat (16 + payload.length)).toNat := by
  have hfront : (sctpFront ipId src dst payload ++ [0x00, 0x03]).length = 48 := by
    rw [List.length_append, length_sctpFront]
    rfl
  rw [buildIPSCTP_eq, chunkHeader, List.append_assoc, List.append_assoc, ← List.append_assoc,
    field_append hfront (length_putU16 _), number_putU16]

theorem sctp_sound (h : 48 + payload.length + padding (16 + payload.length) < 2 ^ 16) :
    Ipv4Sound (buildIPSCTP ipId tsn ssn src dst payload ppid) ∧
      (Transport.sctp tsn ssn ppid).Sound payload
        (buildIPSCTP ipId tsn ssn src dst payload ppid) := by
  have htotal : (UInt16.ofNat (48 + payload.length + padding (16 + payload.length))).toNat =
      48 + payload.length + padding (16 + payload.length) := UInt16.toNat_ofNat_of_lt' h
  have hchunk : (UInt16.ofNat (16 + payload.length)).toNat = 16 + payload.length :=
    UInt16.toNat_ofNat_of_lt' (Nat.lt_of_le_of_lt (by omega) h)
  constructor
  · rw [buildIPSCTP_eq, sctpFront, List.append_assoc]
    apply ipv4Sound_frame
    rw [htotal]
    simp only [List.length_append, length_sctpHeader, length_chunkHeader, List.length_replicate]
    omega
  · refine ⟨(field_chunkLength ipId tsn ssn ppid src dst payload).trans hchunk, ?_,
      padding (16 + payload.length), Nat.mod_lt _ (by decide), drop_buildIPSCTP ..⟩
    rw [buildIPSCTP_eq, List.drop_left' (length_sctpFront ipId src dst payload)]
    simp only [List.length_append, length_chunkHeader, List.length_replicate, padding]
    omega

end Sctp

theorem tcpFrame_eq (ipId : UInt16) (s : Segment) : tcpFrame ipId s =
    lowerHeaders (UInt16.ofNat (20 + 20 + s.payload.length)) ipId 6 s.src.ip s.dst.ip ++
      (tcpHeader s ++ s.payload) := by
  simp only [tcpFrame, lowerHeaders, List.append_assoc]

theorem drop_tcpFrame (ipId : UInt16) (s : Segment) : (tcpFrame ipId s).drop 54 = s.payload := by
  rw [tcpFrame_eq, ← List.append_assoc, List.drop_left']
  rw [List.length_append, length_lowerHeaders, length_tcpHeader]

theorem tcp_sound (ipId : UInt16) (flags : UInt8) (seqNum ackNum : UInt32) (src dst : Endpoint)
    {payload : Str} (h : 40 + payload.length < 2 ^ 16) :
    Ipv4Sound (tcpFrame ipId (buildIPTCP src dst payload flags seqNum ackNum)) ∧
      (Transport.tcp flags seqNum ackNum).Sound payload
        (tcpFrame ipId (buildIPTCP src dst payload flags seqNum ackNum)) := by
  have htotal : (UInt16.ofNat (20 + 20 + payload.length)).toNat = 40 + payload.length :=
    UInt16.toNat_ofNat_of_lt' h
  constructor
  · rw [tcpFrame_eq]
    apply ipv4Sound_frame
    rw [List.length_append, length_tcpHeader]
    exact htotal.trans (Nat.add_assoc 20 20 payload.length)
  · exact drop_tcpFrame ipId _

section Udp

variable (ipId : UInt16) (src dst : Endpoint) (payload : Str)

theorem buildIPUDP_eq : buildIPUDP ipId src dst payload =
    lowerHeaders (20 + UInt16.ofNat (8 + payload.length)) ipId 17 src.ip dst.ip ++
      (udpHeader src dst (UInt16.ofNat (8 + payload.length)) ++ payload) := by
  simp only [buildIPUDP, lowerHeaders, List.append_assoc]

theorem drop_buildIPUDP : (buildIPUDP ipId src dst payload).drop 42 = payload := by
  rw [buildIPUDP_eq, ← List.append_assoc, List.drop_left']
  rw [List.length_append, length_lowerHeaders, length_udpHeader]

theorem field_udpLength : field 38 2 (buildIPUDP ipId src dst payload) =
    (UInt16.ofNat (8 + payload.length)).toNat := by
  have hfront : (lowerHeaders (20 + UInt16.ofNat (8 + payload.length)) ipId 17 src.ip dst.ip ++
      putU16 src.port ++ putU16 dst.port).length = 38 := by
    simp only [List.length_append, length_lowerHeaders, length_putU16]
  simp only [buildIPUDP_eq, udpHeader, List.append_assoc]
  rw [← List.append_assoc, ← List.append_assoc, field_append hfront (length_putU16 _),
    number_putU16]

theorem udp_sound (h : 28 + payload.length < 2 ^ 16) :
    Ipv4Sound (buildIPUDP ipId src dst payload) ∧
      Transport.udp.Sound payload (buildIPUDP ipId src dst payload) := by
  have hudp : (UInt16.ofNat (8 + payload.length)).toNat = 8 + payload.length :=
    UInt16.toNat_ofNat_of_lt' (Nat.lt_of_le_of_lt (by omega) h)
  have htotal : (20 + UInt16.ofNat (8 + payload.length)).toNat = 28 + payload.length := by
    rw [UInt16.toNat_add, hudp]
    show (20 + (8 + payload.length)) % 2 ^ 16 = _
    omega
  constructor
  · rw [buildIPUDP_eq]
    apply ipv4Sound_frame
    rw [htotal, List.length_append, length_udpHeader]
    omega
  · refine ⟨(field_udpLength ipId src dst payload).trans ?_, drop_buildIPUDP ipId src dst payload⟩
    rw [hudp, buildIPUDP_eq, List.drop_left' (length_lowerHeaders ..), List.length_append,
      length_udpHeader]

end Udp

theorem length_build (t : Transport) (ipId : UInt16) (src dst : Endpoint) (payload : Str) :
    (t.build ipId src dst payload).length = 14 + match t with
      | .sctp _ _ _ => 48 + payload.length + padding (16 + payload.length)
      | .tcp _ _ _ => 40 + payload.length
      | .udp => 28 + payload.length := by
  cases t with
  | sctp tsn ssn ppid =>
      simp only [Transport.build, buildIPSCTP_eq, List.length_append, length_sctpFront,
        length_chunkHeader, List.length_replicate]
      omega
  | tcp flags seqNum ackNum =>
      simp only [Transport.build, buildIPTCP, tcpFrame_eq, List.length_append, length_lowerHeaders,
        length_tcpHeader]
      omega
  | udp =>
      simp only [Transport.build, buildIPUDP_eq, List.length_append, length_lowerHeaders,
        length_udpHeader]
      omega

/-- A packet that the 16-bit lengths can count is counted. -/
theorem build_sound (t : Transport) (ipId : UInt16) (src dst : Endpoint) (payload : Str)
    (h : (t.build ipId src dst payload).length < 14 + 2 ^ 16) :
    Ipv4Sound (t.build ipId src dst payload) ∧
      t.Sound payload (t.build ipId src dst payload) := by
  have hfits := Nat.lt_of_add_lt_add_left (length_build t ipId src dst payload ▸ h)
  cases t with
  | sctp tsn ssn ppid => exact sctp_sound ipId tsn ssn ppid src dst payload hfits
  | tcp flags seqNum ackNum => exact tcp_sound ipId flags seqNum ackNum src dst hfits
  | udp => exact udp_sound ipId src dst payload hfits

/-- A chunk with three bytes of padding. -/
theorem build_sound_s1ap :
    Ipv4Sound
      ((Transport.sctp 0 0 18).build 1 ⟨0x0A000002, 36412⟩ ⟨IP_MME, 36412⟩ [1, 2, 3, 4, 5]) ∧
      (Transport.sctp 0 0 18).Sound [1, 2, 3, 4, 5]
        ((Transport.sctp 0 0 18).build 1 ⟨0x0A000002, 36412⟩ ⟨IP_MME, 36412⟩ [1, 2, 3, 4, 5]) := by
  apply build_sound
  rw [length_build]
  decide

end MobileCore.CaptureFrames
