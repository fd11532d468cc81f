import MobileCore.TlvDecodeLoops
import Mathlib.Data.List.Nodup
import Mathlib.Logic.Function.Basic

/-!
# What the decode loops make of a message

Every loop skips the tags that it has no case for, and each case sets a variable of its own. So
new fields and another order of the fields change nothing.
-/

namespace MobileCore.TlvCompatibility

open MobileCore.ByteCursor
open MobileCore.TlvMessages
open MobileCore.TlvDecodeLoops

namespace Tag

def icsrSgwTeid : TlvMessages.Tag := 0x0053
def nasRand : TlvMessages.Tag := 0x0108
def nasAutn : TlvMessages.Tag := 0x0109
def nasUeIp : TlvMessages.Tag := 0x010C

end Tag

open TlvDecodeLoops.Tag
open TlvCompatibility.Tag

/-- A loop of the MME, the HSS or the S-GW, or one of the eNB. -/
inductive Loop where
  | node (handler : Handler)
  | handleDLNas
  | handleICSR
  | handleTauAccept
  | handleHoRequest
  | handleHoCommand
  | handleMmeStatusXfer
  | handleUeCtxRelCmd
deriving DecidableEq

/-- The case of a tag and the variable that it sets. Some take only values of one size. -/
structure Variable where
  tag : TlvMessages.Tag
  initial : Value
  size : Option Nat := none

def u8 (tag : TlvMessages.Tag) (initial : UInt8 := 0) : Variable := { tag, initial := .u8 initial }

def u16 (tag : TlvMessages.Tag) : Variable := { tag, initial := .u16 0 }

def u32 (tag : TlvMessages.Tag) (initial : UInt32 := 0) : Variable :=
  { tag, initial := .u32 initial }

def u64 (tag : TlvMessages.Tag) : Variable := { tag, initial := .u64 0 }

def bytes (tag : TlvMessages.Tag) : Variable := { tag, initial := .bytes [] }

/-- An array of the vectors, which a value of another size does not touch. -/
def array (tag : TlvMessages.Tag) (size : Nat) : Variable :=
  { tag, initial := .bytes (List.replicate size 0), size := some size }

def bothIds : List Variable := [u32 mmeUeS1apId, u32 enbUeS1apId]

def handlerVariables : Handler → List Variable
  | .hssReceiveLoop =>
    [u64 diaImsi, array diaRand 16, array diaAutn 16, array diaXres 8, array diaKasme 32]
  | .handleInitialUEMsg =>
    [u32 enbUeS1apId, u16 taiMcc, u16 taiMnc, u16 taiTac, u64 nasImsi, u8 nasKsi]
  | .handleULNasTransport => bothIds ++ [u8 nasMsgType, bytes nasRes]
  | .sendCreateSession =>
    [u8 gtpCause, u32 gtpSenderTeid, u32 gtpBearerTeid, u64 gtpImsi, bytes gtpUeIp]
  | .handleICSetupResponse => [u32 mmeUeS1apId, u32 icsrEnbTeid]
  | .handleTauRequest => bothIds ++ [u64 tauImsi, u8 tauUpdateType]
  | .handleHandoverRequired => bothIds ++ [u64 tauImsi]
  | .handleHandoverRequestAck => bothIds ++ [u32 hoEnbTeidNew]
  | .handleEnbStatusTransfer => bothIds ++ [u32 hoPdcpSnUl, u32 hoPdcpSnDl]
  | .handleHandoverNotify => bothIds ++ [u32 hoEnbTeidNew]
  | .handleUeContextRelCmpl => bothIds
  | .handleAIR => [u64 diaImsi, u32 diaPlmn]
  | .handleCreateSessionReq =>
    [u64 gtpImsi, { tag := gtpApn, initial := .str [] }, u8 gtpEbi 5, u8 gtpQci 9,
      u32 gtpAmbrUl 50000000, u32 gtpAmbrDl 100000000]
  | .createSessionRsp => [u8 gtpCause, bytes gtpUeIp]
  | .handleModifyBearerReq => [u32 gtpEnbTeid, u64 gtpImsi]

def Loop.variables : Loop → List Variable
  | node handler => handlerVariables handler
  | handleDLNas => bothIds ++ [u8 nasMsgType, bytes nasRand, bytes nasAutn]
  | handleICSR => bothIds ++ [u32 icsrSgwTeid, u8 nasMsgType, bytes nasUeIp]
  | handleTauAccept => bothIds
  | handleHoRequest => bothIds
  | handleHoCommand => bothIds
  | handleMmeStatusXfer => bothIds ++ [u32 hoPdcpSnUl, u32 hoPdcpSnDl]
  | handleUeCtxRelCmd => bothIds

/-- The cases, each with the read that its variable's type calls for. -/
def switch (vars : List Variable) : Switch := vars.map fun v => (v.tag, v.initial.kind)

theorem switch_node (handler : Handler) : switch (Loop.node handler).variables = handler.switch := by
  cases handler <;> rfl

abbrev Fields := TlvMessages.Tag → Option Value

def keeps (vars : List Variable) (tag : TlvMessages.Tag) (x : Value) : Bool :=
  (vars.find? (·.tag == tag)).all fun v => v.size.all (· == x.encode.length)

def assign (vars : List Variable) (tag : TlvMessages.Tag) (value : Option Value) (fields : Fields) :
    Fields :=
  match value with
  | some x => if keeps vars tag x then Function.update fields tag (some x) else fields
  | none => fields

theorem iterate_progress (cases : Switch) {c next : Cursor UInt8} {tag : TlvMessages.Tag}
    {len : UInt16} {value : Option Value} (h : iterate cases c = .read tag len value next) :
    c.pos + 4 ≤ c.buf.length ∧ c.pos + 4 ≤ next.pos ∧ next.buf = c.buf := by
  cases hpeek : peek c with
  | none =>
      rw [iterate_of_short cases c ((peek_eq_none c).mp hpeek)] at h
      cases h
  | some header =>
      have hheader := (drop_of_peek c header.1 header.2 hpeek).2
      rcases iterate_of_peek cases c header.1 header.2 hpeek with ⟨hout, _⟩ | ⟨_, hread, _⟩
      · rw [hout] at h
        cases h
      · rw [hread] at h
        injection h with _ _ _ hnext
        rw [← hnext, Cursor.advance_pos, Cursor.advance_buf]
        exact ⟨hheader, by omega, rfl⟩

/-- `none` when a read goes behind the end of the payload. -/
def decodeLoop (vars : List Variable) (c : Cursor UInt8) (fields : Fields) : Option Fields :=
  match _hpass : iterate (switch vars) c with
  | .ended => some fields
  | .outOfBounds => none
  | .read tag _ value next => decodeLoop vars next (assign vars tag value fields)
termination_by c.buf.length - c.pos
decreasing_by
  obtain ⟨hheader, hpos, hbuf⟩ := iterate_progress _ _hpass
  rw [hbuf]
  omega

def Loop.decode (loop : Loop) (payload : List UInt8) : Option Fields :=
  decodeLoop loop.variables (MessageReader.create payload).toCursor fun tag =>
    (loop.variables.find? (·.tag == tag)).map Variable.initial

/-- A field that holds as many bytes as it declares. -/
structure Tlv where
  tag : TlvMessages.Tag
  value : List UInt8
  short : value.length ≤ 65535

def Tlv.len (t : Tlv) : UInt16 := UInt16.ofNat t.value.length

def Tlv.encode (t : Tlv) : List UInt8 := th t.tag t.len ++ t.value

def Loop.Knows (loop : Loop) (tag : TlvMessages.Tag) : Prop :=
  ((switch loop.variables).lookup tag).isSome = true

/-- The fields of a fixed width have that width. -/
def Loop.Fits (loop : Loop) (t : Tlv) : Prop := LengthFits (switch loop.variables) t.tag t.len

/-- Fields that the loop does not know are put in, and fields with different tags change places. -/
inductive Edited (loop : Loop) (message : List Tlv) : List Tlv → Prop
  | unchanged : Edited loop message message
  | inserted {front back : List Tlv} {t : Tlv} : Edited loop message (front ++ back) →
      ¬loop.Knows t.tag → Edited loop message (front ++ t :: back)
  | permuted {front block block' back : List Tlv} : Edited loop message (front ++ block ++ back) →
      (block.map Tlv.tag).Nodup → block.Perm block' → Edited loop message (front ++ block' ++ back)

section Passes

variable {vars : List Variable}

/-- The value that a read of a kind makes of the bytes of a field. -/
def valueOf : Kind → List UInt8 → Value
  | .u8, value => .u8 (value.headD 0)
  | .u16, value => .u16 (gu16 value)
  | .u32, value => .u32 (gu32 value)
  | .u64, value => .u64 (gu64 value)
  | .bytes, value => .bytes value
  | .str, value => .str value

/-- What one field of a message does to what was read. -/
def absorb (vars : List Variable) (fields : Fields) (t : Tlv) : Fields :=
  assign vars t.tag (((switch vars).lookup t.tag).map fun kind => valueOf kind t.value) fields

theorem readValue_tlv (kind : Kind) (t : Tlv)
    (hfits : ∀ width, kind.width = some width → t.value.length = width) :
    Takes (readValue kind) t.encode (valueOf kind t.value) := by
  have hfixed {α : Type} (width : Nat) (value : List UInt8 → α) (hwidth : kind.width = some width) :
      Takes (readFixed width value) t.encode (value t.value) := by
    rw [← hfits width hwidth]
    exact takes_readFixed value t.tag t.len t.value
  intro before rest
  cases kind with
  | u8 =>
      have hread := hfixed 1 (fun bytes => bytes.headD 0) rfl before rest
      exact congrArg (Option.map fun x => (Value.u8 x.1, x.2)) hread
  | u16 =>
      have hread := hfixed 2 gu16 rfl before rest
      exact congrArg (Option.map fun x => (Value.u16 x.1, x.2)) hread
  | u32 =>
      have hread := hfixed 4 gu32 rfl before rest
      exact congrArg (Option.map fun x => (Value.u32 x.1, x.2)) hread
  | u64 =>
      have hread := hfixed 8 gu64 rfl before rest
      exact congrArg (Option.map fun x => (Value.u64 x.1, x.2)) hread
  | bytes =>
      have hread := takes_readBytes t.tag t.value t.short before rest
      exact congrArg (Option.map fun x => (Value.bytes x.1, x.2)) hread
  | str =>
      have hread := takes_readBytes t.tag t.value t.short before rest
      exact congrArg (Option.map fun x => (Value.str x.1, x.2)) hread

theorem Tlv.encode_length (t : Tlv) : t.encode.length = 4 + t.len.toNat := by
  rw [encode, len, toNat_ofNat_short _ t.short, List.length_append, th_length]

theorem iterate_tlv {cases : Switch} (t : Tlv) (hfits : LengthFits cases t.tag t.len)
    (before rest : List UInt8) :
    iterate cases ⟨before ++ (t.encode ++ rest), before.length⟩ =
      .read t.tag t.len ((cases.lookup t.tag).map fun kind => valueOf kind t.value)
        ⟨before ++ (t.encode ++ rest), before.length + t.encode.length⟩ := by
  have hpeek : peek ⟨before ++ (t.encode ++ rest), before.length⟩ = some (t.tag, t.len) :=
    peek_block before t.value rest t.tag t.len
  have hmore : hasMore ⟨before ++ (t.encode ++ rest), before.length⟩ = true := by
    rw [hasMore, decide_eq_true_eq]
    show before.length < (before ++ (t.encode ++ rest)).length
    rw [List.length_append, List.length_append, t.encode_length]
    omega
  rw [iterate, if_pos hmore, hpeek]
  dsimp only
  cases hcase : cases.lookup t.tag with
  | none =>
      dsimp only
      rw [skip, hpeek, t.encode_length]
      rfl
  | some kind =>
      have hwidth (width : Nat) (h : kind.width = some width) : t.value.length = width := by
        rw [← hfits kind width hcase h, Tlv.len, toNat_ofNat_short _ t.short]
      dsimp only
      rw [readValue_tlv kind t hwidth before rest]
      rfl

theorem decodeLoop_fields {message : List Tlv}
    (hfits : ∀ t ∈ message, LengthFits (switch vars) t.tag t.len) {tail : List UInt8}
    (htail : tail.length < 4) (before : List UInt8) (fields : Fields) :
    decodeLoop vars ⟨before ++ (message.flatMap Tlv.encode ++ tail), before.length⟩ fields =
      some (message.foldl (absorb vars) fields) := by
  induction message generalizing before fields with
  | nil =>
      have hended : iterate (switch vars)
          ⟨before ++ ([].flatMap Tlv.encode ++ tail), before.length⟩ = .ended := by
        apply iterate_of_short
        simp only [List.flatMap_nil, List.nil_append, List.length_append]
        omega
      rw [decodeLoop]
      split
      · rfl
      · rename_i hpass
        rw [hended] at hpass
        cases hpass
      · rename_i hpass
        rw [hended] at hpass
        cases hpass
  | cons t message ih =>
      have hpass := iterate_tlv t (hfits t List.mem_cons_self) before
        (message.flatMap Tlv.encode ++ tail)
      rw [List.flatMap_cons, List.append_assoc, decodeLoop, List.foldl_cons]
      split
      · rename_i hended
        rw [hpass] at hended
        cases hended
      · rename_i hout
        rw [hpass] at hout
        cases hout
      · rename_i tag len value next hread
        rw [hpass] at hread
        injection hread with htag hlen hvalue hnext
        subst htag hvalue hnext
        rw [← List.append_assoc, ← List.length_append]
        exact ih (fun u hu => hfits u (List.mem_cons_of_mem t hu)) (before ++ t.encode) _

end Passes

section Edits

variable {loop : Loop} {message message' : List Tlv}

theorem absorb_unknown {t : Tlv} (h : ¬loop.Knows t.tag) (fields : Fields) :
    absorb loop.variables fields t = fields := by
  rw [Loop.Knows, Option.not_isSome_iff_eq_none] at h
  rw [absorb, h]
  rfl

/-- Fields with different tags set different variables. -/
theorem absorb_comm (vars : List Variable) {t u : Tlv} (h : t.tag ≠ u.tag) (fields : Fields) :
    absorb vars (absorb vars fields t) u = absorb vars (absorb vars fields u) t := by
  have hassign (tag tag' : TlvMessages.Tag) (hne : tag ≠ tag') (x y : Option Value) :
      assign vars tag' y (assign vars tag x fields) =
        assign vars tag x (assign vars tag' y fields) := by
    cases x with
    | none => rfl
    | some x =>
        cases y with
        | none => rfl
        | some y =>
            simp only [assign]
            split
            · split
              · exact Function.update_comm hne _ _ fields
              · rfl
            · rfl
  exact hassign _ _ h _ _

theorem Edited.fold (h : Edited loop message message') (fields : Fields) :
    message'.foldl (absorb loop.variables) fields = message.foldl (absorb loop.variables) fields := by
  induction h with
  | unchanged => rfl
  | inserted _ hunknown ih =>
      rw [← ih, List.foldl_append, List.foldl_cons, absorb_unknown hunknown, ← List.foldl_append]
  | permuted _ hdistinct hperm ih =>
      rw [← ih, List.foldl_append, List.foldl_append, List.foldl_append, List.foldl_append]
      congr 1
      symm
      apply hperm.foldl_eq'
      intro t ht u hu z
      by_cases htag : t.tag = u.tag
      · rw [List.inj_on_of_nodup_map hdistinct ht hu htag]
      · exact absorb_comm _ htag z

theorem Edited.fits (h : Edited loop message message') (hfits : ∀ t ∈ message, loop.Fits t) :
    ∀ t ∈ message', loop.Fits t := by
  induction h with
  | unchanged => exact hfits
  | @inserted front back u _ hunknown ih =>
      intro t ht
      rw [List.mem_append, List.mem_cons] at ht
      rcases ht with ht | rfl | ht
      · exact ih t (List.mem_append_left back ht)
      · intro kind width hcase
        rw [Loop.Knows, hcase] at hunknown
        exact absurd rfl hunknown
      · exact ih t (List.mem_append_right front ht)
  | permuted _ _ hperm ih =>
      intro t ht
      apply ih t
      simpa [hperm.mem_iff] using ht

end Edits

/-- What a loop reads off a well-formed message does not change when fields that it does not know
are put in anywhere or fields with different tags change places. -/
theorem decode_edited (loop : Loop) {header tail : List UInt8} {message message' : List Tlv}
    (hheader : header.length = 8) (htail : tail.length < 4) (hfits : ∀ t ∈ message, loop.Fits t)
    (hedited : Edited loop message message') :
    loop.decode (header ++ (message'.flatMap Tlv.encode ++ tail)) =
        loop.decode (header ++ (message.flatMap Tlv.encode ++ tail)) ∧
      (loop.decode (header ++ (message.flatMap Tlv.encode ++ tail))).isSome = true := by
  have hdecode (fields : List Tlv) (h : ∀ t ∈ fields, loop.Fits t) :
      loop.decode (header ++ (fields.flatMap Tlv.encode ++ tail)) =
        some (fields.foldl (absorb loop.variables) fun tag =>
          (loop.variables.find? (·.tag == tag)).map Variable.initial) := by
    have hcursor : (MessageReader.create (header ++ (fields.flatMap Tlv.encode ++ tail))).toCursor =
        ⟨header ++ (fields.flatMap Tlv.encode ++ tail), header.length⟩ := by
      rw [MessageReader.create, if_pos, hheader]
      rw [List.length_append]
      omega
    rw [Loop.decode, hcursor]
    exact decodeLoop_fields h htail header _
  rw [hdecode message' (hedited.fits hfits), hdecode message hfits, hedited.fold]
  exact ⟨rfl, rfl⟩

/-- A request for vectors in the other order, with an unknown field in front. -/
theorem authentication_request_edited :
    let imsi : Tlv := ⟨diaImsi, pu32 7 ++ pu32 0, by decide⟩
    let plmn : Tlv := ⟨diaPlmn, pu32 9, by decide⟩
    let extra : Tlv := ⟨0x0FFF, [1, 2, 3], by decide⟩
    let header := pu16 0x0101 ++ pu16 0 ++ pu32 1
    (Loop.node .handleAIR).decode (header ++ ([extra, plmn, imsi].flatMap Tlv.encode ++ [])) =
      (Loop.node .handleAIR).decode (header ++ ([imsi, plmn].flatMap Tlv.encode ++ [])) := by
  intro imsi plmn extra header
  have hfits : ∀ t ∈ [imsi, plmn], (Loop.node .handleAIR).Fits t := by
    intro t ht
    rcases List.mem_pair.mp ht with rfl | rfl
    · exact (lengthFits_iff _ _ _).mpr rfl
    · exact (lengthFits_iff _ _ _).mpr rfl
  have hstart : Edited (.node .handleAIR) [imsi, plmn] ([] ++ [imsi, plmn] ++ []) := .unchanged
  have hswapped : Edited (.node .handleAIR) [imsi, plmn] ([] ++ [plmn, imsi] ++ []) :=
    .permuted hstart (by decide) (List.Perm.swap _ _ [])
  have hedited : Edited (.node .handleAIR) [imsi, plmn] ([] ++ extra :: [plmn, imsi]) :=
    .inserted hswapped Bool.false_ne_true
  exact (decode_edited (.node .handleAIR) rfl (by decide) hfits hedited).1

end MobileCore.TlvCompatibility
