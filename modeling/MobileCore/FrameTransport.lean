import MobileCore.ByteStreams
import MobileCore.TlvMessages

/-!
# Frames on a TCP connection

A frame is a payload behind its length in four bytes. A node that passes a payload on writes the
length anew.
-/

namespace MobileCore.FrameTransport

open MobileCore.ByteStreams
open MobileCore.TlvMessages

/-- The length of what is sent is cut to 32 bits. -/
def sendFrame (frame : List UInt8) : Sender UInt8 :=
  sendAll (frame.take (UInt32.ofNat frame.length).toNat)

def sendPayload (payload : List UInt8) : Sender UInt8 := fun k =>
  let len := UInt32.ofNat payload.length
  (sendAll (pu32 len) k).bind (sendAll (payload.take len.toNat))

def recvFrame : Receiver UInt8 (List UInt8) := do
  let plen := gu32 (← recvAll 4)
  if plen = 0 ∨ 65536 < plen then failure else recvAll plen.toNat

/-- A frame that a node writes itself, or a payload that it passes on. -/
inductive Transmission where
  | frame (w : MessageWriter)
  | forward (payload : List UInt8)

namespace Transmission

def payload : Transmission → List UInt8
  | frame w => w.udpPayload
  | forward payload => payload

def send : Transmission → Sender UInt8
  | frame w => sendFrame w.frame
  | forward payload => sendPayload payload

end Transmission

def framed (payload : List UInt8) : List UInt8 := pu32 (UInt32.ofNat payload.length) ++ payload

section Frames

variable {payload : List UInt8}

theorem toNat_length (h : payload.length ≤ 65536) :
    (UInt32.ofNat payload.length).toNat = payload.length := by
  apply UInt32.toNat_ofNat_of_lt'
  show payload.length < 4294967296
  omega

theorem length_framed (payload : List UInt8) : (framed payload).length = payload.length + 4 := by
  rw [framed, List.length_append, pu32_length, Nat.add_comm]

theorem sendPayload_sends (h : payload.length ≤ 65536) :
    Sends (sendPayload payload) (framed payload) := by
  have hwhole : payload.take (UInt32.ofNat payload.length).toNat = payload := by
    rw [toNat_length h, List.take_length]
  apply Sends.andThen
  · exact sendAll_sends _
  · rw [hwhole]
    exact sendAll_sends payload

theorem frame_eq_framed (w : MessageWriter) (h : 1 ≤ w.udpPayload.length) :
    w.frame = framed w.udpPayload := by
  rw [MessageWriter.udpPayload, List.length_drop] at h
  have hlong : 4 ≤ w.buf.length := by omega
  rw [framed, MessageWriter.frame, MessageWriter.udpPayload, List.length_drop,
    UInt32.ofNat_sub hlong]
  rfl

theorem send_sends {t : Transmission} (hsome : 1 ≤ t.payload.length)
    (hle : t.payload.length ≤ 65536) : Sends t.send (framed t.payload) := by
  cases t with
  | frame w =>
      have hsmall : (UInt32.ofNat (framed w.udpPayload).length).toNat =
          (framed w.udpPayload).length := by
        apply UInt32.toNat_ofNat_of_lt'
        rw [length_framed]
        exact Nat.lt_of_le_of_lt (Nat.add_le_add_right hle 4) (by decide)
      show Sends (sendFrame w.frame) (framed w.udpPayload)
      rw [sendFrame, frame_eq_framed w hsome, hsmall, List.take_length]
      exact sendAll_sends _
  | forward payload => exact sendPayload_sends hle

theorem sendPayload_succeeds (payload : List UInt8) : Succeeds (sendPayload payload) :=
  (sendAll_succeeds _).andThen (sendAll_succeeds _)

theorem send_succeeds (t : Transmission) : Succeeds t.send := by
  cases t with
  | frame w => exact sendAll_succeeds _
  | forward payload => exact sendPayload_succeeds payload

theorem recvFrame_receives (hsome : 1 ≤ payload.length) (hle : payload.length ≤ 65536) :
    Receives recvFrame (framed payload) payload := by
  have hlength := toNat_length hle
  apply Receives.bind (recvAll_receives (pu32 (UInt32.ofNat payload.length)))
  rw [gu32_pu32, if_neg, hlength]
  · exact recvAll_receives payload
  · rw [UInt32.lt_iff_toNat_lt, ← UInt32.toNat_inj, hlength]
    show ¬(payload.length = 0 ∨ 65536 < payload.length)
    omega

/-- Whatever `recvFrame` returns, the frame that it took is the one of the payload. -/
theorem recvFrame_framed {s s' : Inlet UInt8} (h : recvFrame s = some (payload, s')) :
    s.bytes = framed payload ++ s'.bytes ∧ payload.length ≤ 65536 := by
  obtain ⟨⟨header, s₁⟩, hheader, hpayload⟩ := Option.bind_eq_some_iff.mp h
  obtain ⟨hbytes, hfour⟩ := recvAll_bytes hheader
  dsimp only at hpayload
  split at hpayload
  · cases hpayload
  · rename_i hlength
    obtain ⟨hrest, hplen⟩ := recvAll_bytes hpayload
    have hle : (gu32 header).toNat ≤ 65536 := by
      rw [not_or, UInt32.lt_iff_toNat_lt] at hlength
      exact Nat.le_of_not_lt hlength.2
    have hback : UInt32.ofNat payload.length = gu32 header := by
      rw [hplen, UInt32.ofNat_toNat]
    rw [framed, hback, pu32_gu32 header hfour, hbytes, hrest, List.append_assoc]
    exact ⟨rfl, hplen ▸ hle⟩

end Frames

section Taking

/-- The payload that `recvFrame` returns of the bytes that have come, and what it leaves. -/
def takeFrame (bytes : List UInt8) : Option (List UInt8 × List UInt8) :=
  let plen := gu32 (bytes.take 4)
  if bytes.length < 4 ∨ plen = 0 ∨ 65536 < plen ∨ bytes.length < 4 + plen.toNat then none
  else some ((bytes.drop 4).take plen.toNat, bytes.drop (4 + plen.toNat))

theorem recvFrame_takeFrame (s : Inlet UInt8) :
    (recvFrame s).map (fun x => (x.1, x.2.bytes)) = takeFrame s.bytes := by
  rw [takeFrame]
  by_cases hshort : s.bytes.length < 4
  · rw [if_pos (Or.inl hshort)]
    show ((recvAll 4 s).bind _).map _ = none
    rw [recvAll_eq_none hshort]
    rfl
  obtain ⟨s₁, hheader, hrest⟩ := recvAll_take (Nat.le_of_not_lt hshort)
  have hlength : s₁.bytes.length = s.bytes.length - 4 := by rw [hrest, List.length_drop]
  show ((recvAll 4 s).bind fun x => (if gu32 x.1 = 0 ∨ 65536 < gu32 x.1 then failure
    else recvAll (gu32 x.1).toNat : Receiver UInt8 (List UInt8)) x.2).map _ = _
  rw [hheader, Option.bind_some]
  dsimp only
  by_cases hrefused : gu32 (s.bytes.take 4) = 0 ∨ 65536 < gu32 (s.bytes.take 4)
  · rw [if_pos hrefused, if_pos]
    · rfl
    · exact Or.inr (hrefused.imp_right Or.inl)
  rw [if_neg hrefused]
  by_cases hwaits : s.bytes.length < 4 + (gu32 (s.bytes.take 4)).toNat
  · rw [if_pos (Or.inr (Or.inr (Or.inr hwaits))), recvAll_eq_none (by omega)]
    rfl
  · obtain ⟨s₂, hpayload, hlater⟩ :=
      recvAll_take (n := (gu32 (s.bytes.take 4)).toNat) (s := s₁) (by omega)
    rw [hpayload, if_neg]
    · rw [Option.map_some, hlater, hrest, List.drop_drop]
    · rintro (h | h | h | h)
      · exact hshort h
      · exact hrefused (Or.inl h)
      · exact hrefused (Or.inr h)
      · exact hwaits h

variable {payload : List UInt8}

theorem takeFrame_framed (hsome : 1 ≤ payload.length) (hle : payload.length ≤ 65536)
    (later : List UInt8) : takeFrame (framed payload ++ later) = some (payload, later) := by
  have hlength := toNat_length hle
  have htake : (framed payload ++ later).take 4 = pu32 (UInt32.ofNat payload.length) := by
    rw [framed, List.append_assoc, List.take_left' (pu32_length _)]
  have hdrop : (framed payload ++ later).drop 4 = payload ++ later := by
    rw [framed, List.append_assoc, List.drop_left' (pu32_length _)]
  have hall : (framed payload ++ later).length = payload.length + 4 + later.length := by
    rw [List.length_append, length_framed]
  rw [takeFrame, htake, gu32_pu32, hlength, if_neg, hdrop, List.take_left, ← List.drop_drop, hdrop, List.drop_left]
  rw [UInt32.lt_iff_toNat_lt, ← UInt32.toNat_inj, hlength, hall]
  show ¬(_ ∨ payload.length = 0 ∨ 65536 < payload.length ∨ _)
  omega

/-- Nothing is taken of a frame that is not there as a whole. -/
theorem takeFrame_part (hle : payload.length ≤ 65536) {part later : List UInt8}
    (h : part ++ later = framed payload) (hlater : later ≠ []) : takeFrame part = none := by
  have hlength : part.length + later.length = payload.length + 4 := by
    rw [← List.length_append, h, length_framed]
  have hpos := List.length_pos_of_ne_nil hlater
  rw [takeFrame]
  by_cases hshort : part.length < 4
  · exact if_pos (Or.inl hshort)
  · have hfront : (part ++ later).take 4 = part.take 4 :=
      List.take_append_of_le_length (by omega)
    have hheader : part.take 4 = pu32 (UInt32.ofNat payload.length) := by
      rw [← hfront, h, framed, List.take_left' (pu32_length _)]
    rw [hheader, gu32_pu32, toNat_length hle]
    exact if_pos (Or.inr (Or.inr (Or.inr (by omega))))

end Taking

/-- The payloads that were sent are what a receiver reads, in order and in whatever pieces the
bytes come, and a received payload that is passed on has the bytes that it came with. Everything
is sent on a connection of which each write takes something. -/
theorem frame_transport :
    (∀ (sends : List Transmission) (k k' : Outlet UInt8),
      (∀ t ∈ sends, 1 ≤ t.payload.length ∧ t.payload.length ≤ 65536) →
      sendEach Transmission.send sends k = some k' →
      ∃ bytes, k'.sent = k.sent ++ bytes ∧
        ∀ (s : Inlet UInt8) (later : List UInt8), s.bytes = bytes ++ later →
          ∃ s', recvEach recvFrame sends.length s = some (sends.map Transmission.payload, s') ∧
            s'.bytes = later) ∧
    (∀ (s s' : Inlet UInt8) (payload : List UInt8) (k k' : Outlet UInt8),
      recvFrame s = some (payload, s') → sendPayload payload k = some k' →
      ∃ bytes, s.bytes = bytes ++ s'.bytes ∧ k'.sent = k.sent ++ bytes) ∧
    (∀ sends : List Transmission, Succeeds (sendEach Transmission.send sends)) ∧
    ∀ payload : List UInt8, Succeeds (sendPayload payload) := by
  refine ⟨?_, ?_, ?_, sendPayload_succeeds⟩
  · intro sends k k' hsizes hsent
    refine ⟨sends.flatMap fun t => framed t.payload, ?_, ?_⟩
    · apply sendEach_sends sends _ k k' hsent
      intro t ht
      exact send_sends (hsizes t ht).1 (hsizes t ht).2
    · apply recvEach_receives fun t : Transmission => framed t.payload
      intro t ht
      exact recvFrame_receives (hsizes t ht).1 (hsizes t ht).2
  · intro s s' payload k k' hreceived hsent
    obtain ⟨hbytes, hle⟩ := recvFrame_framed hreceived
    exact ⟨framed payload, hbytes, sendPayload_sends hle k k' hsent⟩
  · intro sends
    exact sendEach_succeeds sends fun t _ => send_succeeds t

/-- A message and a payload that is passed on, written in parts of other sizes than they are
read in. -/
theorem frame_split :
    let sends := [.frame (MessageWriter.create 0x0401 7 0), .forward [7, 8]]
    ∃ k' s', sendEach Transmission.send sends { takes := [1, 7, 9, 3] } = some k' ∧
      k'.sent = [8, 0, 0, 0, 1, 4, 0, 0, 7, 0, 0, 0, 2, 0, 0, 0, 7, 8] ∧
      recvEach recvFrame 2 ⟨[[8], [0, 0], [0, 1, 4, 0, 0, 7, 0, 0], [0, 2, 0], [0, 0, 7, 8]],
        by simp⟩ = some ([[1, 4, 0, 0, 7, 0, 0, 0], [7, 8]], s') := by
  intro sends
  obtain ⟨hreads, -, hsends, -⟩ := frame_transport
  obtain ⟨k', hsent, -⟩ := hsends sends { takes := [1, 7, 9, 3] } (by
    unfold Outlet.Accepts
    decide)
  have hsizes : ∀ t ∈ sends, 1 ≤ t.payload.length ∧ t.payload.length ≤ 65536 := by decide
  obtain ⟨bytes, hbytes, hreceived⟩ := hreads sends _ k' hsizes hsent
  have hwhole : k'.sent = [8, 0, 0, 0, 1, 4, 0, 0, 7, 0, 0, 0, 2, 0, 0, 0, 7, 8] :=
    sendEach_sends sends (fun t ht => send_sends (hsizes t ht).1 (hsizes t ht).2) _ k' hsent
  obtain ⟨s', hs', -⟩ := hreceived
    ⟨[[8], [0, 0], [0, 1, 4, 0, 0, 7, 0, 0], [0, 2, 0], [0, 0, 7, 8]], by simp⟩ [] (by
      rw [List.append_nil, ← List.nil_append bytes]
      exact hwhole.symm.trans hbytes)
  exact ⟨k', s', hsent, hwhole, hs'⟩

end MobileCore.FrameTransport
