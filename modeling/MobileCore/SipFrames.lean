import Mathlib.Algebra.Order.BigOperators.Group.List
import Mathlib.Algebra.Order.Group.Nat
import MobileCore.CallSessionControl
import MobileCore.FrameTransport

/-!
# SIP messages on the wire

Each writer puts some fields of a message into a frame, in an order of its own. Each handler walks
the fields, keeps the ones with its tags and skips the others; a payload that is passed on goes
through several nodes before its last reader.
-/

namespace MobileCore.SipFrames

open ByteCursor ByteStreams CallSessionControl CppText FrameTransport SipPhones TlvMessages

inductive SipTag where
  | sipFrom
  | sipTo
  | contact
  | callId
  | impu
  | impi
  | sdp
  | reason
deriving DecidableEq

def SipTag.code : SipTag → Tag
  | .sipFrom => 0x0500
  | .sipTo => 0x0501
  | .contact => 0x0502
  | .callId => 0x0503
  | .impu => 0x0507
  | .impi => 0x0508
  | .sdp => 0x050A
  | .reason => 0x050C

def typeCode : SipMsgType → MessageType
  | .register => 0x0501
  | .invite => 0x0502
  | .ack => 0x0503
  | .bye => 0x0504
  | .cancel => 0x0505
  | .trying100 => 0x0510
  | .ringing180 => 0x0511
  | .progress183 => 0x0512
  | .ok200 => 0x0513

def types : List SipMsgType :=
  [.register, .invite, .ack, .bye, .cancel, .trying100, .ringing180, .progress183, .ok200]

def typeOfCode (code : MessageType) : Option SipMsgType := types.find? fun type => typeCode type = code

def field (msg : SipMessage) : SipTag → Str
  | .sipFrom => msg.sipFrom
  | .sipTo => msg.sipTo
  | .contact => msg.contact
  | .callId => msg.callId
  | .impu => msg.impu
  | .impi => msg.impi
  | .sdp => msg.sdp
  | .reason => msg.reason

section Writers

/-- The fields of what a command sends. -/
def commandOrder : Command → List SipTag
  | .register => [.sipFrom, .impu, .impi, .contact]
  | .call _ _ => [.sipFrom, .sipTo, .callId, .sdp]
  | .accept => [.callId, .reason, .sdp]
  | .reject => [.callId]
  | .bye => [.callId]
  | _ => [.callId, .sipFrom, .sipTo, .sdp]

def ackOrder : List SipTag := [.callId, .sipFrom, .sipTo]

def ringOrder : List SipTag := [.callId, .sipFrom, .sipTo, .reason]

def responseOrder (msg : SipMessage) : List SipTag :=
  [.callId, .sipFrom, .sipTo, .reason] ++ if msg.sdp = [] then [] else [.sdp]

def conferenceOrder : List SipTag := [.sipFrom, .sipTo, .callId, .sdp]

def write (msg : SipMessage) (order : List SipTag) (seq : UInt32) : MessageWriter :=
  order.foldl (fun w tag => w.writeStr tag.code (field msg tag))
    (MessageWriter.create (typeCode msg.type) seq 0)

/-- A writer writes every field that the message has. -/
def Covers (order : List SipTag) (msg : SipMessage) : Prop :=
  ∀ tag, tag ∉ order → field msg tag = []

end Writers

section Readers

theorem readStr_advances {c : Cursor UInt8} {x : List UInt8 × Cursor UInt8}
    (h : readStr c = some x) : x.2.buf = c.buf ∧ c.pos < x.2.pos := by
  obtain ⟨header, -, hslice⟩ := Option.bind_eq_some_iff.mp h
  obtain ⟨bytes, -, rfl⟩ := Option.map_eq_some_iff.mp hslice
  refine ⟨rfl, ?_⟩
  rw [Cursor.advance_pos]
  omega

theorem skip_advances {c : Cursor UInt8} {header : Tag × UInt16} (h : peek c = some header) :
    (skip c).buf = c.buf ∧ c.pos < (skip c).pos := by
  rw [skip, h]
  refine ⟨rfl, ?_⟩
  rw [Cursor.advance_pos]
  omega

/-- The loop of a handler; `none` where a read throws. -/
def readFields (wanted : List SipTag) (c : Cursor UInt8) (fields : SipTag → Str) :
    Option (SipTag → Str) :=
  if _hmore : hasMore c then
    match _hpeek : peek c with
    | none => some fields
    | some header =>
      match wanted.find? fun tag => tag.code = header.1 with
      | some tag =>
        match _hread : readStr c with
        | none => none
        | some x => readFields wanted x.2 (Function.update fields tag x.1)
      | none => readFields wanted (skip c) fields
  else some fields
termination_by c.buf.length - c.pos
decreasing_by
  · obtain ⟨hbuf, hpos⟩ := readStr_advances _hread
    have hmore : c.pos < c.buf.length := by simpa [hasMore] using _hmore
    rw [hbuf]
    omega
  · obtain ⟨hbuf, hpos⟩ := skip_advances _hpeek
    have hmore : c.pos < c.buf.length := by simpa [hasMore] using _hmore
    rw [hbuf]
    omega

/-- The loops of a handler that ends at the first field with its tag. -/
def readFirst (wanted : SipTag) (c : Cursor UInt8) : Option Str :=
  if _hmore : hasMore c then
    match _hpeek : peek c with
    | none => some []
    | some header =>
      if wanted.code = header.1 then (readStr c).map Prod.fst else readFirst wanted (skip c)
  else some []
termination_by c.buf.length - c.pos
decreasing_by
  obtain ⟨hbuf, hpos⟩ := skip_advances _hpeek
  have hmore : c.pos < c.buf.length := by simpa [hasMore] using _hmore
  rw [hbuf]
  omega

/-- The handlers that decode a SIP payload. -/
inductive Handler where
  | pcscfFromUe
  | pcscfFromScscf
  | scscfRegister
  | scscfInvite
  | scscf200Ok
  | scscfBye
  | scscfUpdate
  | ueIncoming
deriving DecidableEq

def Handler.tags : Handler → List SipTag
  | .pcscfFromUe => [.sipFrom, .sipTo, .impu, .impi, .contact, .callId, .sdp]
  | .pcscfFromScscf => [.sipTo, .sipFrom, .callId, .reason, .sdp]
  | .scscfRegister => [.impu, .impi, .contact]
  | .scscfInvite => [.sipFrom, .sipTo, .callId, .sdp]
  | .scscf200Ok => [.callId, .reason, .sdp]
  | .scscfBye => [.callId, .sipFrom]
  | .scscfUpdate => [.sipFrom, .callId, .sdp]
  | .ueIncoming => [.sipFrom, .sipTo, .callId, .reason, .sdp]

/-- The message that a handler makes of a payload; a type of another protocol is none. -/
def Handler.read (handler : Handler) (payload : List UInt8) : Option SipMessage :=
  let reader := MessageReader.create payload
  (typeOfCode reader.msgType).bind fun type =>
    (readFields handler.tags reader.toCursor fun _ => []).map fun fields =>
      { type
        sipFrom := fields .sipFrom
        sipTo := fields .sipTo
        impu := fields .impu
        impi := fields .impi
        contact := fields .contact
        callId := fields .callId
        sdp := fields .sdp
        reason := fields .reason }

end Readers

section Blocks

variable {msg : SipMessage} {order wanted : List SipTag}

def block (msg : SipMessage) (tag : SipTag) : List UInt8 :=
  th tag.code (UInt16.ofNat (field msg tag).length) ++ field msg tag

theorem code_injective {t u : SipTag} (h : t.code = u.code) : t = u := by
  cases t <;> cases u <;> first | rfl | exact absurd h (by decide)

theorem find_code (wanted : List SipTag) (tag : SipTag) :
    (wanted.find? fun t => t.code = tag.code) = if tag ∈ wanted then some tag else none := by
  induction wanted with
  | nil => rfl
  | cons t wanted ih =>
      by_cases ht : t = tag
      · rw [ht, List.find?_cons_of_pos (by simp), if_pos List.mem_cons_self]
      · have hcode : ¬t.code = tag.code := fun h => ht (code_injective h)
        have hmem : tag ∈ t :: wanted ↔ tag ∈ wanted := by
          rw [List.mem_cons, or_iff_right (Ne.symm ht)]
        rw [List.find?_cons_of_neg (by simpa using hcode), ih]
        simp only [hmem]

theorem write_buf (seq : UInt32) (hshort : ∀ tag ∈ order, (field msg tag).length ≤ 65535) :
    (write msg order seq).buf =
      (MessageWriter.create (typeCode msg.type) seq 0).buf ++ order.flatMap (block msg) := by
  rw [write]
  generalize MessageWriter.create (typeCode msg.type) seq 0 = w
  induction order generalizing w with
  | nil => exact (List.append_nil _).symm
  | cons tag order ih =>
      have hlength : (field msg tag).take (UInt16.ofNat (field msg tag).length).toNat =
          field msg tag := by
        rw [toNat_ofNat_short _ (hshort tag List.mem_cons_self), List.take_length]
      have hbuf : (w.writeStr tag.code (field msg tag)).buf = w.buf ++ block msg tag := by
        show w.buf ++ (th _ _ ++ _) = _
        rw [hlength]
        rfl
      rw [List.foldl_cons, ih (fun t ht => hshort t (List.mem_cons_of_mem tag ht)), hbuf,
        List.flatMap_cons, List.append_assoc]

section Cursors

variable {before rest : List UInt8} {tag : SipTag}

theorem hasMore_block :
    hasMore ⟨before ++ (block msg tag ++ rest), before.length⟩ = true := by
  simp [hasMore, block]

theorem peek_tag : peek ⟨before ++ (block msg tag ++ rest), before.length⟩ =
    some (tag.code, UInt16.ofNat (field msg tag).length) :=
  peek_block before (field msg tag) rest tag.code _

theorem readStr_block (hshort : (field msg tag).length ≤ 65535) :
    readStr ⟨before ++ (block msg tag ++ rest), before.length⟩ =
      some (field msg tag, ⟨(before ++ block msg tag) ++ rest, (before ++ block msg tag).length⟩) := by
  have hread := takes_readBytes tag.code (field msg tag) hshort before rest
  rw [← block] at hread
  rw [readStr, hread, List.append_assoc, List.length_append]

theorem skip_block (hshort : (field msg tag).length ≤ 65535) :
    skip ⟨before ++ (block msg tag ++ rest), before.length⟩ =
      ⟨(before ++ block msg tag) ++ rest, (before ++ block msg tag).length⟩ := by
  have hlength : (block msg tag).length = 4 + (field msg tag).length := by
    rw [block, List.length_append, th_length]
  rw [skip, peek_tag]
  dsimp only
  rw [toNat_ofNat_short _ hshort, Cursor.advance, List.append_assoc, List.length_append, hlength]

end Cursors

theorem readFields_blocks (wanted : List SipTag)
    (hshort : ∀ tag ∈ order, (field msg tag).length ≤ 65535) (before : List UInt8)
    (fields : SipTag → Str) :
    readFields wanted ⟨before ++ order.flatMap (block msg), before.length⟩ fields =
      some fun tag => if tag ∈ order ∧ tag ∈ wanted then field msg tag else fields tag := by
  induction order generalizing before fields with
  | nil =>
      have hmore : ¬hasMore ⟨before ++ [].flatMap (block msg), before.length⟩ = true := by
        simp [hasMore]
      rw [readFields, dif_neg hmore]
      simp
  | cons tag order ih =>
      have htag := hshort tag List.mem_cons_self
      have hih := ih fun t ht => hshort t (List.mem_cons_of_mem tag ht)
      rw [List.flatMap_cons, readFields, dif_pos hasMore_block]
      split
      · rename_i hpeek
        rw [peek_tag] at hpeek
        cases hpeek
      rename_i header hpeek
      rw [peek_tag] at hpeek
      obtain rfl := Option.some.inj hpeek
      rw [find_code]
      by_cases hwanted : tag ∈ wanted
      · rw [if_pos hwanted]
        dsimp only
        split
        · rename_i hread
          rw [readStr_block htag] at hread
          cases hread
        · rename_i x hread
          rw [readStr_block htag] at hread
          obtain rfl := Option.some.inj hread
          rw [hih]
          congr 1
          funext t
          by_cases ht : t = tag
          · simp [ht, hwanted]
          · simp [ht]
      · rw [if_neg hwanted]
        dsimp only
        rw [skip_block htag, hih]
        congr 1
        funext t
        by_cases ht : t = tag
        · simp [ht, hwanted]
        · simp [ht]

theorem readFirst_blocks {wanted : SipTag}
    (hshort : ∀ tag ∈ order, (field msg tag).length ≤ 65535) (before : List UInt8) :
    readFirst wanted ⟨before ++ order.flatMap (block msg), before.length⟩ =
      some (if wanted ∈ order then field msg wanted else []) := by
  induction order generalizing before with
  | nil =>
      have hmore : ¬hasMore ⟨before ++ [].flatMap (block msg), before.length⟩ = true := by
        simp [hasMore]
      rw [readFirst, dif_neg hmore]
      rfl
  | cons tag order ih =>
      have htag := hshort tag List.mem_cons_self
      rw [List.flatMap_cons, readFirst, dif_pos hasMore_block]
      split
      · rename_i hpeek
        rw [peek_tag] at hpeek
        cases hpeek
      rename_i header hpeek
      rw [peek_tag] at hpeek
      obtain rfl := Option.some.inj hpeek
      by_cases hwanted : wanted = tag
      · rw [hwanted, if_pos rfl, if_pos List.mem_cons_self, readStr_block htag]
        rfl
      · have hcode : ¬wanted.code = tag.code := fun h => hwanted (code_injective h)
        have hmem : wanted ∈ tag :: order ↔ wanted ∈ order := by
          rw [List.mem_cons, or_iff_right hwanted]
        rw [if_neg hcode, skip_block htag, ih fun t ht => hshort t (List.mem_cons_of_mem tag ht)]
        simp only [hmem]

end Blocks

/-- A message as its writer has it: the frame has all its fields and is not too long to be read. -/
structure Written where
  msg : SipMessage
  order : List SipTag
  seq : UInt32
  covers : Covers order msg
  fits : 8 + (order.map fun tag => 4 + (field msg tag).length).sum ≤ 65536

namespace Written

variable (w : Written)

def writer : MessageWriter := write w.msg w.order w.seq

def payload : List UInt8 := w.writer.udpPayload

theorem short : ∀ tag ∈ w.order, (field w.msg tag).length ≤ 65535 := by
  intro tag htag
  have hmem : 4 + (field w.msg tag).length ∈
      w.order.map fun tag => 4 + (field w.msg tag).length := List.mem_map_of_mem htag
  have hsum := List.le_sum_of_mem hmem
  have hfits := w.fits
  omega

theorem payload_eq : w.payload =
    (pu16 (typeCode w.msg.type) ++ pu16 0 ++ pu32 w.seq) ++ w.order.flatMap (block w.msg) := by
  rw [payload, writer, MessageWriter.udpPayload, write_buf w.seq w.short]
  rfl

theorem length_payload : w.payload.length =
    8 + (w.order.map fun tag => 4 + (field w.msg tag).length).sum := by
  have hblock (tag : SipTag) : (block w.msg tag).length = 4 + (field w.msg tag).length := by
    rw [block, List.length_append, th_length]
  rw [payload_eq, List.length_append, List.length_flatMap]
  simp only [hblock]
  rfl

theorem reader : MessageReader.create w.payload =
    { buf := w.payload, pos := 8, msgType := typeCode w.msg.type, flags := 0, seqNum := w.seq } := by
  have hlong : 8 ≤ w.payload.length := by
    rw [length_payload]
    omega
  have htype : gu16 (w.payload.take 2) = typeCode w.msg.type := by
    rw [payload_eq]
    exact gu16_pu16 _
  have hflags : gu16 ((w.payload.drop 2).take 2) = 0 := by
    rw [payload_eq]
    exact gu16_pu16 0
  have hseq : gu32 ((w.payload.drop 4).take 4) = w.seq := by
    rw [payload_eq]
    exact gu32_pu32 _
  rw [MessageReader.create, if_pos hlong, htype, hflags, hseq]

theorem cursor : (⟨w.payload, 8⟩ : Cursor UInt8) =
    ⟨(pu16 (typeCode w.msg.type) ++ pu16 0 ++ pu32 w.seq) ++ w.order.flatMap (block w.msg),
      (pu16 (typeCode w.msg.type) ++ pu16 0 ++ pu32 w.seq).length⟩ := by
  rw [payload_eq]
  rfl

end Written

theorem typeOfCode_typeCode (type : SipMsgType) : typeOfCode (typeCode type) = some type := by
  cases type <;> rfl

/-- The part of a message that has the tags. -/
def restrict (tags : List SipTag) (msg : SipMessage) : SipMessage :=
  let seen tag := if tag ∈ tags then field msg tag else []
  { type := msg.type
    sipFrom := seen .sipFrom
    sipTo := seen .sipTo
    impu := seen .impu
    impi := seen .impi
    contact := seen .contact
    callId := seen .callId
    sdp := seen .sdp
    reason := seen .reason }

theorem read_written (w : Written) (handler : Handler) :
    handler.read w.payload = some (restrict handler.tags w.msg) := by
  have hfields : readFields handler.tags ⟨w.payload, 8⟩ (fun _ => []) =
      some fun tag => if tag ∈ handler.tags then field w.msg tag else [] := by
    rw [w.cursor, readFields_blocks handler.tags w.short]
    congr 1
    funext tag
    by_cases hwritten : tag ∈ w.order
    · simp [hwritten]
    · simp [hwritten, w.covers tag hwritten]
  rw [Handler.read, w.reader]
  dsimp only
  rw [typeOfCode_typeCode, Option.bind_some, hfields]
  rfl

theorem readFirst_written (w : Written) (tag : SipTag) :
    readFirst tag ⟨w.payload, 8⟩ = some (field w.msg tag) := by
  rw [w.cursor, readFirst_blocks w.short]
  congr 1
  rw [ite_eq_left_iff]
  intro hwritten
  exact (w.covers tag hwritten).symm

/-- Every reader finds in a payload what the message has for it. -/
structure Represents (payload : List UInt8) (msg : SipMessage) : Prop where
  type : typeOfCode (MessageReader.create payload).msgType = some msg.type
  read : ∀ handler : Handler, handler.read payload = some (restrict handler.tags msg)
  first : ∀ tag, readFirst tag (MessageReader.create payload).toCursor = some (field msg tag)

theorem represents_written (w : Written) : Represents w.payload w.msg := by
  constructor
  · rw [w.reader]
    exact typeOfCode_typeCode w.msg.type
  · exact read_written w
  · rw [w.reader]
    exact readFirst_written w

/-- The connection over which the request came is not on the wire. -/
theorem Represents.origin {payload : List UInt8} {msg : SipMessage} (h : Represents payload msg)
    (n : Nat) : Represents payload { msg with origin := n } := by
  refine ⟨h.type, h.read, fun tag => ?_⟩
  rw [h.first]
  cases tag <;> rfl

section Paths

/-- A connection between two nodes with one writer at a time: what one of them sends, in whatever
pieces it goes out, and what the other has received, in whatever pieces it came. -/
def Hop (sends : List Transmission) (received : List (List UInt8)) : Prop :=
  ∃ (takes : List Nat) (k' : Outlet UInt8) (s s' : Inlet UInt8) (later : List UInt8),
    sendEach Transmission.send sends { takes } = some k' ∧ s.bytes = k'.sent ++ later ∧
    recvEach recvFrame sends.length s = some (received, s')

/-- The frames of a node after any number of nodes that pass their payloads on. -/
inductive Carried (sends : List Transmission) : List (List UInt8) → Prop where
  | direct {received : List (List UInt8)} (hop : Hop sends received) : Carried sends received
  | passed {between received : List (List UInt8)} (before : Carried sends between)
      (hop : Hop (between.map .forward) received) : Carried sends received

theorem hop_payloads {sends : List Transmission} {received : List (List UInt8)}
    (hsizes : ∀ t ∈ sends, 1 ≤ t.payload.length ∧ t.payload.length ≤ 65536)
    (hop : Hop sends received) : received = sends.map Transmission.payload := by
  obtain ⟨takes, k', s, s', later, hsent, hbytes, hreceived⟩ := hop
  have hout := sendEach_sends sends (fun t ht => send_sends (hsizes t ht).1 (hsizes t ht).2)
    { takes } k' hsent
  obtain ⟨s₁, hread, -⟩ := recvEach_receives (fun t : Transmission => framed t.payload) _ sends
    (fun t ht => recvFrame_receives (hsizes t ht).1 (hsizes t ht).2) s later (by
      rw [hbytes, hout, List.nil_append])
  rw [hreceived] at hread
  exact (Prod.ext_iff.mp (Option.some.inj hread)).1

theorem carried_payloads {sends : List Transmission} {received : List (List UInt8)}
    (hsizes : ∀ t ∈ sends, 1 ≤ t.payload.length ∧ t.payload.length ≤ 65536)
    (h : Carried sends received) : received = sends.map Transmission.payload := by
  induction h with
  | direct hop => exact hop_payloads hsizes hop
  | passed _ hop ih =>
      subst ih
      rw [hop_payloads _ hop]
      · have hsame : Transmission.payload ∘ Transmission.forward = id := rfl
        rw [List.map_map, hsame, List.map_id]
      · intro t ht
        obtain ⟨payload, hpayload, rfl⟩ := List.mem_map.mp ht
        obtain ⟨sent, hsent, rfl⟩ := List.mem_map.mp hpayload
        exact hsizes sent hsent

/-- Whatever messages a node writes, through however many nodes their payloads are passed on and
however the bytes are split on the way, the last node's handler reads in each the fields that the
message has for its tags. -/
theorem messages_carried (written : List Written) (handler : Handler)
    {received : List (List UInt8)}
    (hcarried : Carried (written.map fun w => .frame w.writer) received) :
    received.map handler.read = written.map fun w => some (restrict handler.tags w.msg) := by
  have hsizes : ∀ t ∈ written.map fun w => Transmission.frame w.writer,
      1 ≤ t.payload.length ∧ t.payload.length ≤ 65536 := by
    intro t ht
    obtain ⟨w, -, rfl⟩ := List.mem_map.mp ht
    show 1 ≤ w.payload.length ∧ w.payload.length ≤ 65536
    rw [w.length_payload]
    exact ⟨by omega, w.fits⟩
  rw [carried_payloads hsizes hcarried, List.map_map, List.map_map]
  congr 1
  funext w
  exact read_written w handler

/-- A BYE, as a phone writes it. -/
def bye : Written where
  msg := { type := .bye, callId := lit "c" }
  order := [.callId]
  seq := 1
  covers := by
    intro tag htag
    cases tag
    all_goals first | rfl | exact absurd (by decide) htag
  fits := by decide

theorem bye_carried :
    ∃ received, Carried ([bye].map fun w => .frame w.writer) received ∧
      received.map Handler.scscfBye.read =
        [bye].map fun w => some (restrict Handler.scscfBye.tags w.msg) := by
  have hframe : bye.writer.frame.take (UInt32.ofNat bye.writer.frame.length).toNat =
      [13, 0, 0, 0, 4, 5, 0, 0, 1, 0, 0, 0, 3, 5, 1, 0, 99] := by decide
  have hsent : sendEach Transmission.send [.frame bye.writer] { takes := [] } =
      some { sent := [13, 0, 0, 0, 4, 5, 0, 0, 1, 0, 0, 0, 3, 5, 1, 0, 99] } := by
    rw [sendEach, Transmission.send, sendFrame, hframe,
      sendAll_write (List.cons_ne_nil _ _) (by decide)]
    exact congrArg (Option.bind · (sendEach Transmission.send [])) (sendAll_nil _)
  obtain ⟨s', hreceived, -⟩ := recvEach_receives (fun t : Transmission => framed t.payload) _
    [.frame bye.writer]
    (fun t ht => by
      obtain rfl := List.mem_singleton.mp ht
      exact recvFrame_receives (by decide) (by decide))
    ⟨[[13, 0, 0, 0, 4, 5, 0, 0, 1, 0, 0, 0, 3, 5, 1, 0, 99]], by decide⟩ [] (by decide)
  have hcarried : Carried ([bye].map fun w => .frame w.writer) _ :=
    .direct ⟨[], _, _, _, [], hsent, rfl, hreceived⟩
  exact ⟨_, hcarried, messages_carried [bye] .scscfBye hcarried⟩

end Paths

end MobileCore.SipFrames
