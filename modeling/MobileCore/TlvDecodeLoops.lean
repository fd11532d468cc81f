import Mathlib.Logic.Relation
import MobileCore.TlvMessages

namespace MobileCore.TlvDecodeLoops

open MobileCore.ByteCursor
open MobileCore.TlvMessages

namespace Tag

def enbUeS1apId : Tag := 0x0010
def mmeUeS1apId : Tag := 0x0011
def taiMcc : Tag := 0x0013
def taiMnc : Tag := 0x0014
def taiTac : Tag := 0x0015
def icsrEnbTeid : Tag := 0x0054
def nasMsgType : Tag := 0x0102
def nasKsi : Tag := 0x0104
def nasImsi : Tag := 0x0106
def nasRes : Tag := 0x010A
def diaImsi : Tag := 0x0200
def diaPlmn : Tag := 0x0201
def diaRand : Tag := 0x0202
def diaAutn : Tag := 0x0203
def diaXres : Tag := 0x0204
def diaKasme : Tag := 0x0205
def gtpImsi : Tag := 0x0300
def gtpCause : Tag := 0x0301
def gtpApn : Tag := 0x0302
def gtpEbi : Tag := 0x0304
def gtpQci : Tag := 0x0305
def gtpSenderTeid : Tag := 0x0306
def gtpBearerTeid : Tag := 0x0307
def gtpUeIp : Tag := 0x0308
def gtpEnbTeid : Tag := 0x0309
def gtpAmbrUl : Tag := 0x030A
def gtpAmbrDl : Tag := 0x030B
def tauUpdateType : Tag := 0x0500
def tauImsi : Tag := 0x0501
def hoEnbTeidNew : Tag := 0x0606
def hoPdcpSnUl : Tag := 0x0607
def hoPdcpSnDl : Tag := 0x0608

end Tag

/-- The cases of a `switch`, each with the read that it makes; the default is `skip`. -/
abbrev Switch := List (Tag × Kind)

inductive Iteration where
  | ended
  | outOfBounds
  | read (tag : Tag) (len : UInt16) (value : Option Value) (next : Cursor UInt8)

/-- One pass of the loop; a read behind the end of the payload is `outOfBounds`. -/
def iterate (cases : Switch) (c : Cursor UInt8) : Iteration :=
  if hasMore c then
    match peek c with
    | none => .ended
    | some (tag, len) =>
      match cases.lookup tag with
      | none => .read tag len none (skip c)
      | some kind =>
        match readValue kind c with
        | none => .outOfBounds
        | some (value, next) => .read tag len (some value) next
  else .ended

/-- The nodes' handlers that decode a payload; the S-GW's first handler decodes two. -/
inductive Handler where
  | hssReceiveLoop
  | handleInitialUEMsg
  | handleULNasTransport
  | sendCreateSession
  | handleICSetupResponse
  | handleTauRequest
  | handleHandoverRequired
  | handleHandoverRequestAck
  | handleEnbStatusTransfer
  | handleHandoverNotify
  | handleUeContextRelCmpl
  | handleAIR
  | handleCreateSessionReq
  | createSessionRsp
  | handleModifyBearerReq
deriving DecidableEq

def Handler.switch : Handler → Switch
  | .hssReceiveLoop =>
    [(Tag.diaImsi, .u64), (Tag.diaRand, .bytes), (Tag.diaAutn, .bytes), (Tag.diaXres, .bytes),
      (Tag.diaKasme, .bytes)]
  | .handleInitialUEMsg =>
    [(Tag.enbUeS1apId, .u32), (Tag.taiMcc, .u16), (Tag.taiMnc, .u16), (Tag.taiTac, .u16),
      (Tag.nasImsi, .u64), (Tag.nasKsi, .u8)]
  | .handleULNasTransport =>
    [(Tag.mmeUeS1apId, .u32), (Tag.enbUeS1apId, .u32), (Tag.nasMsgType, .u8),
      (Tag.nasRes, .bytes)]
  | .sendCreateSession =>
    [(Tag.gtpCause, .u8), (Tag.gtpSenderTeid, .u32), (Tag.gtpBearerTeid, .u32),
      (Tag.gtpImsi, .u64), (Tag.gtpUeIp, .bytes)]
  | .handleICSetupResponse => [(Tag.mmeUeS1apId, .u32), (Tag.icsrEnbTeid, .u32)]
  | .handleTauRequest =>
    [(Tag.mmeUeS1apId, .u32), (Tag.enbUeS1apId, .u32), (Tag.tauImsi, .u64),
      (Tag.tauUpdateType, .u8)]
  | .handleHandoverRequired =>
    [(Tag.mmeUeS1apId, .u32), (Tag.enbUeS1apId, .u32), (Tag.tauImsi, .u64)]
  | .handleHandoverRequestAck =>
    [(Tag.mmeUeS1apId, .u32), (Tag.enbUeS1apId, .u32), (Tag.hoEnbTeidNew, .u32)]
  | .handleEnbStatusTransfer =>
    [(Tag.mmeUeS1apId, .u32), (Tag.enbUeS1apId, .u32), (Tag.hoPdcpSnUl, .u32),
      (Tag.hoPdcpSnDl, .u32)]
  | .handleHandoverNotify =>
    [(Tag.mmeUeS1apId, .u32), (Tag.enbUeS1apId, .u32), (Tag.hoEnbTeidNew, .u32)]
  | .handleUeContextRelCmpl => [(Tag.mmeUeS1apId, .u32), (Tag.enbUeS1apId, .u32)]
  | .handleAIR => [(Tag.diaImsi, .u64), (Tag.diaPlmn, .u32)]
  | .handleCreateSessionReq =>
    [(Tag.gtpImsi, .u64), (Tag.gtpApn, .str), (Tag.gtpEbi, .u8), (Tag.gtpQci, .u8),
      (Tag.gtpAmbrUl, .u32), (Tag.gtpAmbrDl, .u32)]
  | .createSessionRsp => [(Tag.gtpCause, .u8), (Tag.gtpUeIp, .bytes)]
  | .handleModifyBearerReq => [(Tag.gtpEnbTeid, .u32), (Tag.gtpImsi, .u64)]

/-- The readers that the passes of a loop lead to. -/
def Reaches (cases : Switch) : Cursor UInt8 → Cursor UInt8 → Prop :=
  Relation.ReflTransGen fun c next => ∃ tag len value, iterate cases c = .read tag len value next

/-- A loop that stays in its payload, takes each field for as long as the field says it is, and
ends at or before the end. -/
structure DecodesSafely (cases : Switch) (start : Cursor UInt8) : Prop where
  inBounds : ∀ c, Reaches cases start c → iterate cases c ≠ .outOfBounds
  asDeclared : ∀ c tag len value next, Reaches cases start c →
    iterate cases c = .read tag len value next → next.pos = c.pos + (4 + len.toNat)
  ends : ∃ c, Reaches cases start c ∧ iterate cases c = .ended ∧ c.pos ≤ c.buf.length

/-- A field that a fixed-width read takes has to declare that width. -/
def LengthFits (cases : Switch) (tag : Tag) (len : UInt16) : Prop :=
  ∀ kind width, cases.lookup tag = some kind → kind.width = some width → len.toNat = width

/-- Fields that hold as many bytes as they declare, up to three bytes that are no field. -/
inductive WellFormed (cases : Switch) : List UInt8 → Prop where
  | tail (bytes : List UInt8) (short : bytes.length < 4) : WellFormed cases bytes
  | field (tag : Tag) (len : UInt16) (value rest : List UInt8) (whole : value.length = len.toNat)
      (fits : LengthFits cases tag len) (more : WellFormed cases rest) :
      WellFormed cases (th tag len ++ (value ++ rest))

theorem peek_eq_none (c : Cursor UInt8) : peek c = none ↔ c.buf.length < c.pos + 4 := by
  simp [peek, Cursor.slice]

theorem readValue_of_peek (kind : Kind) (c : Cursor UInt8) (tag : Tag) (len : UInt16)
    (hpeek : peek c = some (tag, len)) :
    let width := kind.width.getD len.toNat
    if c.pos + 4 + width ≤ c.buf.length then
      ∃ value, readValue kind c = some (value, c.advance (4 + width))
    else readValue kind c = none := by
  cases kind <;>
    simp only [Kind.width, Option.getD_some, Option.getD_none, readValue, readU8, readU16, readU32,
      readU64, readStr, readBytes, readFixed, hpeek, Option.bind_some, Cursor.slice] <;>
    split <;> simp

theorem iterate_of_peek (cases : Switch) (c : Cursor UInt8) (tag : Tag) (len : UInt16)
    (hpeek : peek c = some (tag, len)) :
    let width := ((cases.lookup tag).bind Kind.width).getD len.toNat
    (iterate cases c = .outOfBounds ∧ c.buf.length < c.pos + 4 + width) ∨
      ∃ value, iterate cases c = .read tag len value (c.advance (4 + width)) ∧
        ((cases.lookup tag).isSome → c.pos + 4 + width ≤ c.buf.length) := by
  have hmore : hasMore c = true := by
    have hheader : ¬c.buf.length < c.pos + 4 := by
      rw [← peek_eq_none, hpeek]
      simp
    simp only [hasMore, decide_eq_true_eq]
    omega
  cases hcase : cases.lookup tag with
  | none =>
      right
      refine ⟨none, ?_, by simp⟩
      simp [iterate, hmore, hpeek, hcase, skip]
  | some kind =>
      have hread := readValue_of_peek kind c tag len hpeek
      simp only [Option.bind_some] at hread ⊢
      split at hread
      · rename_i hfits
        obtain ⟨value, hread⟩ := hread
        exact .inr ⟨some value, by simp [iterate, hmore, hpeek, hcase, hread], fun _ => hfits⟩
      · rename_i hlong
        exact .inl ⟨by simp [iterate, hmore, hpeek, hcase, hread], by omega⟩

theorem iterate_of_short (cases : Switch) (c : Cursor UInt8) (h : c.buf.length < c.pos + 4) :
    iterate cases c = .ended := by
  simp [iterate, (peek_eq_none c).mpr h]

theorem iterate_advances (cases : Switch) {c next : Cursor UInt8} {tag : Tag} {len : UInt16}
    {value : Option Value} (h : iterate cases c = .read tag len value next) :
    c.pos ≤ next.pos ∧ next.buf = c.buf := by
  cases hpeek : peek c with
  | none =>
      rw [iterate_of_short cases c ((peek_eq_none c).mp hpeek)] at h
      cases h
  | some header =>
      rcases iterate_of_peek cases c header.1 header.2 hpeek with ⟨hout, _⟩ | ⟨_, hread, _⟩
      · rw [hout] at h
        cases h
      · rw [hread] at h
        injection h with _ _ _ hnext
        rw [← hnext]
        exact ⟨Nat.le_add_right _ _, rfl⟩

theorem reaches_advances (cases : Switch) {c last : Cursor UInt8} (h : Reaches cases c last) :
    c.pos ≤ last.pos ∧ last.buf = c.buf := by
  induction h with
  | refl => exact ⟨Nat.le_refl _, rfl⟩
  | tail _ hstep ih =>
      obtain ⟨tag, len, value, hread⟩ := hstep
      obtain ⟨hpos, hbuf⟩ := iterate_advances cases hread
      exact ⟨Nat.le_trans ih.1 hpos, hbuf.trans ih.2⟩

theorem DecodesSafely.pos_le {cases : Switch} {c : Cursor UInt8} (h : DecodesSafely cases c) :
    c.pos ≤ c.buf.length := by
  obtain ⟨last, hreach, _, hpos⟩ := h.ends
  obtain ⟨hle, hbuf⟩ := reaches_advances cases hreach
  rw [hbuf] at hpos
  exact Nat.le_trans hle hpos

theorem decodesSafely_of_short (cases : Switch) (c : Cursor UInt8) (hpos : c.pos ≤ c.buf.length)
    (hshort : c.buf.length < c.pos + 4) : DecodesSafely cases c := by
  have hended := iterate_of_short cases c hshort
  have hstays (d : Cursor UInt8) (hreach : Reaches cases c d) : d = c := by
    rcases Relation.ReflTransGen.cases_head hreach with rfl | ⟨e, ⟨tag, len, value, hread⟩, _⟩
    · rfl
    · rw [hended] at hread
      cases hread
  constructor
  · intro d hreach
    rw [hstays d hreach, hended]
    simp
  · intro d tag len value next hreach hread
    rw [hstays d hreach, hended] at hread
    cases hread
  · exact ⟨c, .refl, hended, hpos⟩

theorem decodesSafely_of_read (cases : Switch) {c next : Cursor UInt8} {tag : Tag} {len : UInt16}
    {value : Option Value} (h : iterate cases c = .read tag len value next) :
    DecodesSafely cases c ↔ next.pos = c.pos + (4 + len.toNat) ∧ DecodesSafely cases next := by
  have hhead (d : Cursor UInt8) (hreach : Reaches cases c d) : d = c ∨ Reaches cases next d := by
    rcases Relation.ReflTransGen.cases_head hreach with rfl | ⟨e, ⟨t, n, v, hread⟩, hrest⟩
    · exact .inl rfl
    · rw [h] at hread
      injection hread with _ _ _ hnext
      rw [← hnext] at hrest
      exact .inr hrest
  have hstep : ∀ d, Reaches cases next d → Reaches cases c d :=
    fun d hreach => .head ⟨tag, len, value, h⟩ hreach
  constructor
  · intro hsafe
    refine ⟨hsafe.asDeclared c tag len value next .refl h, ?_, ?_, ?_⟩
    · intro d hreach
      exact hsafe.inBounds d (hstep d hreach)
    · intro d t n v e hreach
      exact hsafe.asDeclared d t n v e (hstep d hreach)
    · obtain ⟨last, hreach, hended, hpos⟩ := hsafe.ends
      rcases hhead last hreach with rfl | hrest
      · rw [h] at hended
        cases hended
      · exact ⟨last, hrest, hended, hpos⟩
  · rintro ⟨hpos, hsafe⟩
    constructor
    · intro d hreach
      rcases hhead d hreach with rfl | hrest
      · rw [h]
        simp
      · exact hsafe.inBounds d hrest
    · intro d t n v e hreach hread
      rcases hhead d hreach with rfl | hrest
      · rw [h] at hread
        injection hread with _ hlen _ hnext
        rw [← hnext, ← hlen]
        exact hpos
      · exact hsafe.asDeclared d t n v e hrest hread
    · obtain ⟨last, hreach, hended, hle⟩ := hsafe.ends
      exact ⟨last, hstep last hreach, hended, hle⟩

theorem wellFormed_header (cases : Switch) (tag : Tag) (len : UInt16) (bytes : List UInt8) :
    WellFormed cases (th tag len ++ bytes) ↔
      len.toNat ≤ bytes.length ∧ LengthFits cases tag len ∧
        WellFormed cases (bytes.drop len.toNat) := by
  constructor
  · intro h
    generalize hlist : th tag len ++ bytes = list at h
    cases h with
    | tail _ short =>
        rw [← hlist, List.length_append, th_length] at short
        omega
    | field t n value rest whole fits more =>
        obtain ⟨hheader, hbytes⟩ := List.append_inj hlist rfl
        have htag : tag = t := by
          rw [← gu16_pu16 tag, ← gu16_pu16 t]
          exact congrArg (fun l => gu16 (l.take 2)) hheader
        have hlen : len = n := by
          rw [← gu16_pu16 len, ← gu16_pu16 n]
          exact congrArg (fun l => gu16 (l.drop 2)) hheader
        subst htag hlen hbytes
        refine ⟨?_, fits, ?_⟩
        · rw [List.length_append, whole]
          exact Nat.le_add_right _ _
        · rw [← whole, List.drop_left]
          exact more
  · rintro ⟨hlen, hfits, hrest⟩
    have hfield := WellFormed.field tag len (bytes.take len.toNat) _ (by simp [hlen]) hfits hrest
    rw [List.take_append_drop] at hfield
    exact hfield

theorem lengthFits_iff (cases : Switch) (tag : Tag) (len : UInt16) :
    LengthFits cases tag len ↔
      ((cases.lookup tag).bind Kind.width).getD len.toNat = len.toNat := by
  rw [LengthFits]
  cases cases.lookup tag with
  | none => simp
  | some kind =>
      rw [Option.bind_some]
      constructor
      · intro hfits
        cases hwidth : kind.width with
        | none => rfl
        | some width => exact (hfits kind width rfl hwidth).symm
      · rintro hwidth _ width ⟨⟩ hkind
        rw [hkind] at hwidth
        exact hwidth.symm

theorem drop_of_peek (c : Cursor UInt8) (tag : Tag) (len : UInt16)
    (hpeek : peek c = some (tag, len)) :
    c.buf.drop c.pos = th tag len ++ c.buf.drop (c.pos + 4) ∧ c.pos + 4 ≤ c.buf.length := by
  obtain ⟨bytes, hslice, hheader⟩ := Option.map_eq_some_iff.mp hpeek
  rw [Cursor.slice, Nat.add_zero] at hslice
  split at hslice
  · rename_i hfits
    obtain rfl := Option.some.inj hslice
    obtain ⟨rfl, rfl⟩ := Prod.ext_iff.mp hheader
    have hbytes : ((c.buf.drop c.pos).take 4).length = 4 := by
      rw [List.length_take, List.length_drop]
      omega
    refine ⟨?_, hfits⟩
    rw [th, pu16_gu16 _ (by simp [hbytes]), pu16_gu16 _ (by simp [hbytes]),
      List.take_append_drop, Nat.add_zero, ← List.drop_drop, List.take_append_drop]
  · cases hslice

theorem decodesSafely_iff (cases : Switch) (c : Cursor UInt8) :
    DecodesSafely cases c ↔
      c.pos ≤ c.buf.length ∧ WellFormed cases (c.buf.drop c.pos) := by
  -- The induction is on the bytes left; a field that is skipped may end behind the payload.
  induction hleft : c.buf.length + 1 - c.pos using Nat.strongRecOn generalizing c with
  | ind left ih =>
      subst hleft
      cases hpeek : peek c with
      | none =>
          have hshort := (peek_eq_none c).mp hpeek
          constructor
          · intro h
            refine ⟨h.pos_le, .tail _ ?_⟩
            rw [List.length_drop]
            omega
          · rintro ⟨hpos, _⟩
            exact decodesSafely_of_short cases c hpos hshort
      | some header =>
          obtain ⟨tag, len⟩ := header
          obtain ⟨hdrop, hheader⟩ := drop_of_peek c tag len hpeek
          rw [hdrop, wellFormed_header, lengthFits_iff, List.length_drop, List.drop_drop]
          rcases iterate_of_peek cases c tag len hpeek with ⟨hout, hlong⟩ | ⟨value, hread, _⟩
          · constructor
            · intro h
              exact absurd hout (h.inBounds c .refl)
            · rintro ⟨_, hlen, hwidth, _⟩
              omega
          · rw [decodesSafely_of_read cases hread, ih _ ?_ _ rfl]
            · simp only [Cursor.advance_pos, Cursor.advance_buf]
              constructor
              · rintro ⟨hwidth, hpos, hmore⟩
                have hwidth := Nat.add_left_cancel (Nat.add_left_cancel hwidth)
                rw [hwidth, ← Nat.add_assoc] at hmore
                rw [hwidth] at hpos
                exact ⟨by omega, by omega, hwidth, hmore⟩
              · rintro ⟨_, hlen, hwidth, hmore⟩
                rw [hwidth, ← Nat.add_assoc]
                exact ⟨by omega, by omega, hmore⟩
            · simp only [Cursor.advance_pos, Cursor.advance_buf]
              omega

/-- A handler's loop is safe on a payload exactly when every field holds the bytes it declares and
the fields of a fixed width declare it. -/
theorem decode_loop_safe_iff (handler : Handler) (payload : List UInt8)
    (h : 8 ≤ payload.length) :
    DecodesSafely handler.switch (MessageReader.create payload).toCursor ↔
      WellFormed handler.switch (payload.drop 8) := by
  rw [decodesSafely_iff]
  simp [MessageReader.create, h]

/-- A request for authentication vectors with its subscriber and its network. -/
theorem authentication_request_decodes :
    let payload := pu16 0x0101 ++ pu16 0 ++ pu32 1 ++ (th Tag.diaImsi 8 ++
      (pu32 7 ++ pu32 0 ++ (th Tag.diaPlmn 4 ++ (pu32 9 ++ []))))
    DecodesSafely Handler.handleAIR.switch (MessageReader.create payload).toCursor := by
  intro payload
  apply (decode_loop_safe_iff .handleAIR payload (by decide)).mpr
  apply WellFormed.field Tag.diaImsi 8 (pu32 7 ++ pu32 0) _ rfl ((lengthFits_iff _ _ _).mpr rfl)
  apply WellFormed.field Tag.diaPlmn 4 (pu32 9) [] rfl
    ((lengthFits_iff _ _ _).mpr rfl)
  exact .tail [] (by decide)

/-- An uplink message whose last field has a known tag and declares no bytes. -/
theorem empty_identity_read_out_of_bounds :
    ¬∀ (handler : Handler) (payload : List UInt8), 8 ≤ payload.length →
      DecodesSafely handler.switch (MessageReader.create payload).toCursor := by
  intro h
  let payload := pu16 0x0003 ++ pu16 0 ++ pu32 1 ++ th Tag.mmeUeS1apId 0
  have hsafe := h .handleULNasTransport payload (by decide)
  exact hsafe.inBounds _ .refl rfl

end MobileCore.TlvDecodeLoops
