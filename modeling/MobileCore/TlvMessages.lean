import MobileCore.ByteCursor

/-!
# The TLV frames of the 4G nodes

A frame is a length prefix, an eight-byte header and fields of tag, length and value, all little
endian. The typed reads skip the four bytes of tag and length and take the width of their type.
-/

namespace MobileCore.TlvMessages

open MobileCore.ByteCursor

/-- `Tag`, an enumeration over 16 bits that keeps the values it has no name for. -/
abbrev Tag := UInt16

/-- `MessageType`, likewise. -/
abbrev MessageType := UInt16

def pu16 (v : UInt16) : List UInt8 := [v.toUInt8, (v >>> 8).toUInt8]

def pu32 (v : UInt32) : List UInt8 :=
  [v.toUInt8, (v >>> 8).toUInt8, (v >>> 16).toUInt8, (v >>> 24).toUInt8]

def th (t : Tag) (n : UInt16) : List UInt8 := pu16 t ++ pu16 n

structure MessageWriter where
  buf : List UInt8

namespace MessageWriter

/-- The first four bytes are a placeholder for the length prefix. -/
def create (type : MessageType) (seq : UInt32) (flags : UInt16) : MessageWriter :=
  ⟨List.replicate 4 0 ++ pu16 type ++ pu16 flags ++ pu32 seq⟩

def push (w : MessageWriter) (bytes : List UInt8) : MessageWriter := ⟨w.buf ++ bytes⟩

def writeU8 (w : MessageWriter) (t : Tag) (v : UInt8) : MessageWriter := w.push (th t 1 ++ [v])

def writeU16 (w : MessageWriter) (t : Tag) (v : UInt16) : MessageWriter :=
  w.push (th t 2 ++ pu16 v)

def writeU32 (w : MessageWriter) (t : Tag) (v : UInt32) : MessageWriter :=
  w.push (th t 4 ++ pu32 v)

def writeU64 (w : MessageWriter) (t : Tag) (v : UInt64) : MessageWriter :=
  w.push (th t 8 ++ (pu32 v.toUInt32 ++ pu32 (v >>> 32).toUInt32))

def writeBytes (w : MessageWriter) (t : Tag) (d : List UInt8) (n : UInt16) : MessageWriter :=
  w.push (th t n ++ d.take n.toNat)

/-- The size of the string is cut to 16 bits. -/
def writeStr (w : MessageWriter) (t : Tag) (s : List UInt8) : MessageWriter :=
  w.writeBytes t s (UInt16.ofNat s.length)

/-- The buffer, with its length behind the prefix written over the placeholder. -/
def frame (w : MessageWriter) : List UInt8 :=
  pu32 (UInt32.ofNat w.buf.length - 4) ++ w.buf.drop 4

def udpPayload (w : MessageWriter) : List UInt8 := w.buf.drop 4

end MessageWriter

def gu16 : List UInt8 → UInt16
  | [b₀, b₁] => b₀.toUInt16 ||| (b₁.toUInt16 <<< 8)
  | _ => 0

def gu32 : List UInt8 → UInt32
  | [b₀, b₁, b₂, b₃] =>
    b₀.toUInt32 ||| (b₁.toUInt32 <<< 8) ||| (b₂.toUInt32 <<< 16) ||| (b₃.toUInt32 <<< 24)
  | _ => 0

def gu64 : List UInt8 → UInt64
  | [b₀, b₁, b₂, b₃, b₄, b₅, b₆, b₇] =>
    let lo := b₀.toUInt64 ||| (b₁.toUInt64 <<< 8) ||| (b₂.toUInt64 <<< 16) ||| (b₃.toUInt64 <<< 24)
    let hi := b₄.toUInt64 ||| (b₅.toUInt64 <<< 8) ||| (b₆.toUInt64 <<< 16) ||| (b₇.toUInt64 <<< 24)
    lo ||| (hi <<< 32)
  | _ => 0

structure MessageReader extends Cursor UInt8 where
  msgType : MessageType
  flags : UInt16
  seqNum : UInt32

/-- A payload without a whole header leaves the position and the header fields at zero. -/
def MessageReader.create (payload : List UInt8) : MessageReader :=
  if 8 ≤ payload.length then
    { buf := payload, pos := 8, msgType := gu16 (payload.take 2),
      flags := gu16 ((payload.drop 2).take 2), seqNum := gu32 ((payload.drop 4).take 4) }
  else { buf := payload, pos := 0, msgType := 0, flags := 0, seqNum := 0 }

def hasMore (c : Cursor UInt8) : Bool := c.pos < c.buf.length

/-- The tag and the declared length, when a whole TLV header is left. -/
def peek (c : Cursor UInt8) : Option (Tag × UInt16) :=
  (c.slice 0 4).map fun bytes => (gu16 (bytes.take 2), gu16 (bytes.drop 2))

/-- A read of a fixed width, which the declared length plays no part in. -/
def readFixed {α : Type} (width : Nat) (value : List UInt8 → α) : Reader UInt8 α := fun c =>
  (c.slice 4 width).map fun bytes => (value bytes, c.advance (4 + width))

def readU8 : Reader UInt8 UInt8 := readFixed 1 fun bytes => bytes.headD 0

def readU16 : Reader UInt8 UInt16 := readFixed 2 gu16

def readU32 : Reader UInt8 UInt32 := readFixed 4 gu32

def readU64 : Reader UInt8 UInt64 := readFixed 8 gu64

/-- Without a whole TLV header the source reads a length that was never set. -/
def readBytes : Reader UInt8 (List UInt8) := fun c =>
  (peek c).bind fun header =>
    (c.slice 4 header.2.toNat).map fun bytes => (bytes, c.advance (4 + header.2.toNat))

def readStr : Reader UInt8 (List UInt8) := readBytes

/-- Advances by the declared length, also behind the end. -/
def skip (c : Cursor UInt8) : Cursor UInt8 :=
  match peek c with
  | some header => c.advance (4 + header.2.toNat)
  | none => c

inductive Kind
  | u8 | u16 | u32 | u64 | bytes | str
deriving DecidableEq, Repr

def Kind.width : Kind → Option Nat
  | .u8 => some 1
  | .u16 => some 2
  | .u32 => some 4
  | .u64 => some 8
  | .bytes => none
  | .str => none

inductive Value
  | u8 (v : UInt8)
  | u16 (v : UInt16)
  | u32 (v : UInt32)
  | u64 (v : UInt64)
  | bytes (b : List UInt8)
  | str (s : List UInt8)
deriving DecidableEq, Repr

def Value.kind : Value → Kind
  | .u8 _ => .u8
  | .u16 _ => .u16
  | .u32 _ => .u32
  | .u64 _ => .u64
  | .bytes _ => .bytes
  | .str _ => .str

def Value.encode : Value → List UInt8
  | .u8 v => [v]
  | .u16 v => pu16 v
  | .u32 v => pu32 v
  | .u64 v => pu32 v.toUInt32 ++ pu32 (v >>> 32).toUInt32
  | .bytes b => b
  | .str s => s

/-- The read that the kind of a field calls for. -/
def readValue : Kind → Reader UInt8 Value
  | .u8, c => (readU8 c).map fun x => (.u8 x.1, x.2)
  | .u16, c => (readU16 c).map fun x => (.u16 x.1, x.2)
  | .u32, c => (readU32 c).map fun x => (.u32 x.1, x.2)
  | .u64, c => (readU64 c).map fun x => (.u64 x.1, x.2)
  | .bytes, c => (readBytes c).map fun x => (.bytes x.1, x.2)
  | .str, c => (readStr c).map fun x => (.str x.1, x.2)

/-- The tag that `peek` shows, with the value of the typed read. -/
def readField (kind : Kind) : Reader UInt8 (Tag × Value) := fun c =>
  (peek c).bind fun header => (readValue kind c).map fun x => ((header.1, x.1), x.2)

/-- A tagged value whose length fits in the 16 bits that its TLV header has for it. -/
structure Field where
  tag : Tag
  value : Value
  short : value.encode.length ≤ 65535

def MessageWriter.writeField (w : MessageWriter) (f : Field) : MessageWriter :=
  match f.value with
  | .u8 v => w.writeU8 f.tag v
  | .u16 v => w.writeU16 f.tag v
  | .u32 v => w.writeU32 f.tag v
  | .u64 v => w.writeU64 f.tag v
  | .bytes b => w.writeBytes f.tag b (UInt16.ofNat b.length)
  | .str s => w.writeStr f.tag s

def Field.encode (f : Field) : List UInt8 :=
  th f.tag (UInt16.ofNat f.value.encode.length) ++ f.value.encode

@[simp] theorem pu16_length (v : UInt16) : (pu16 v).length = 2 := rfl

@[simp] theorem pu32_length (v : UInt32) : (pu32 v).length = 4 := rfl

@[simp] theorem th_length (t : Tag) (n : UInt16) : (th t n).length = 4 := rfl

@[simp] theorem gu16_pu16 (v : UInt16) : gu16 (pu16 v) = v := by
  apply UInt16.toBitVec_inj.mp
  apply BitVec.eq_of_getLsbD_eq
  intro i hi
  simp [gu16, pu16, hi, -UInt16.toUInt16_toUInt8]
  grind

theorem pu16_gu16 (bytes : List UInt8) (h : bytes.length = 2) : pu16 (gu16 bytes) = bytes := by
  match bytes, h with
  | [b₀, b₁], _ =>
      have hlow : (b₀.toUInt16 ||| (b₁.toUInt16 <<< 8)).toUInt8 = b₀ := by
        apply UInt8.toBitVec_inj.mp
        apply BitVec.eq_of_getLsbD_eq
        intro i hi
        simp [hi]
      have hhigh : ((b₀.toUInt16 ||| (b₁.toUInt16 <<< 8)) >>> 8).toUInt8 = b₁ := by
        apply UInt8.toBitVec_inj.mp
        apply BitVec.eq_of_getLsbD_eq
        intro i hi
        have hhigh : 8 + i < 16 := by omega
        have hwide : i < 16 := by omega
        simp [hi, hhigh, hwide]
      simp only [gu16, pu16, hlow, hhigh]

@[simp] theorem gu32_pu32 (v : UInt32) : gu32 (pu32 v) = v := by
  apply UInt32.toBitVec_inj.mp
  apply BitVec.eq_of_getLsbD_eq
  intro i hi
  simp [gu32, pu32, hi, -UInt32.toUInt32_toUInt8]
  grind

theorem pu32_gu32 (bytes : List UInt8) (h : bytes.length = 4) : pu32 (gu32 bytes) = bytes := by
  match bytes, h with
  | [b₀, b₁, b₂, b₃], _ =>
      simp only [gu32, pu32, List.cons.injEq, and_true]
      refine ⟨?_, ?_, ?_, ?_⟩ <;> apply UInt8.toBitVec_inj.mp <;>
        apply BitVec.eq_of_getLsbD_eq <;> intro i hi <;> simp [hi] <;> grind

theorem gu64_pu32 (v : UInt64) : gu64 (pu32 v.toUInt32 ++ pu32 (v >>> 32).toUInt32) = v := by
  apply UInt64.toBitVec_inj.mp
  apply BitVec.eq_of_getLsbD_eq
  intro i hi
  simp [gu64, pu32, hi, -UInt64.toUInt64_toUInt8, -UInt32.toUInt64_toUInt8]
  grind

theorem toNat_ofNat_short (n : Nat) (h : n ≤ 65535) : (UInt16.ofNat n).toNat = n := by
  apply UInt16.toNat_ofNat_of_lt'
  show n < 65536
  omega

theorem peek_block (before bytes rest : List UInt8) (t : Tag) (n : UInt16) :
    peek ⟨before ++ (th t n ++ bytes ++ rest), before.length⟩ = some (t, n) := by
  have hslice := Cursor.slice_block before (th t n ++ bytes) rest 0 4 (by simp)
  rw [peek, hslice]
  show some (gu16 (pu16 t), gu16 (pu16 n)) = some (t, n)
  rw [gu16_pu16, gu16_pu16]

/-- A read of a fixed width takes a TLV of that width, whatever length it declares. -/
theorem takes_readFixed {α : Type} (value : List UInt8 → α) (t : Tag) (n : UInt16)
    (bytes : List UInt8) : Takes (readFixed bytes.length value) (th t n ++ bytes) (value bytes) := by
  intro before rest
  have hslice := Cursor.slice_block before (th t n ++ bytes) rest 4 bytes.length (by simp)
  have hdrop : (th t n ++ bytes).drop 4 = bytes := rfl
  rw [hdrop, List.take_length] at hslice
  rw [readFixed, hslice, Option.map_some, List.length_append, th_length]
  rfl

theorem takes_readBytes (t : Tag) (bytes : List UInt8) (h : bytes.length ≤ 65535) :
    Takes readBytes (th t (UInt16.ofNat bytes.length) ++ bytes) bytes := by
  intro before rest
  have hlength := toNat_ofNat_short bytes.length h
  have hread := takes_readFixed id t (UInt16.ofNat bytes.length) bytes before rest
  rw [readFixed] at hread
  rw [readBytes, peek_block, Option.bind_some, hlength]
  exact hread

theorem Field.takes (f : Field) :
    Takes (readField f.value.kind) f.encode (f.tag, f.value) := by
  intro before rest
  obtain ⟨tag, value, short⟩ := f
  have hvalue : Takes (readValue value.kind)
      (th tag (UInt16.ofNat value.encode.length) ++ value.encode) value := by
    intro before rest
    cases value with
    | u8 v =>
        have hread := takes_readFixed (fun bytes => bytes.headD 0) tag 1 [v] before rest
        exact congrArg (Option.map fun x => (Value.u8 x.1, x.2)) hread
    | u16 v =>
        have hread := takes_readFixed gu16 tag 2 (pu16 v) before rest
        rw [gu16_pu16] at hread
        exact congrArg (Option.map fun x => (Value.u16 x.1, x.2)) hread
    | u32 v =>
        have hread := takes_readFixed gu32 tag 4 (pu32 v) before rest
        rw [gu32_pu32] at hread
        exact congrArg (Option.map fun x => (Value.u32 x.1, x.2)) hread
    | u64 v =>
        have hread := takes_readFixed gu64 tag 8 (pu32 v.toUInt32 ++ pu32 (v >>> 32).toUInt32)
          before rest
        rw [gu64_pu32] at hread
        exact congrArg (Option.map fun x => (Value.u64 x.1, x.2)) hread
    | bytes b =>
        have hread := takes_readBytes tag b short before rest
        exact congrArg (Option.map fun x => (Value.bytes x.1, x.2)) hread
    | str s =>
        have hread := takes_readBytes tag s short before rest
        exact congrArg (Option.map fun x => (Value.str x.1, x.2)) hread
  rw [readField]
  simp only [Field.encode]
  rw [peek_block, Option.bind_some, hvalue before rest, Option.map_some]

theorem MessageWriter.writeField_buf (w : MessageWriter) (f : Field) :
    (w.writeField f).buf = w.buf ++ f.encode := by
  obtain ⟨tag, value, short⟩ := f
  have htake (bytes : List UInt8) (h : bytes.length ≤ 65535) :
      bytes.take (UInt16.ofNat bytes.length).toNat = bytes := by
    rw [toNat_ofNat_short _ h, List.take_length]
  cases value with
  | bytes b =>
      show w.buf ++ (th tag (UInt16.ofNat b.length) ++ b.take _) = _
      rw [htake b short]
      rfl
  | str s =>
      show w.buf ++ (th tag (UInt16.ofNat s.length) ++ s.take _) = _
      rw [htake s short]
      rfl
  | _ => rfl

def MessageWriter.writeFields (w : MessageWriter) (fields : List Field) : MessageWriter :=
  fields.foldl MessageWriter.writeField w

theorem MessageWriter.writeFields_buf (w : MessageWriter) (fields : List Field) :
    (w.writeFields fields).buf = w.buf ++ fields.flatMap Field.encode := by
  induction fields generalizing w with
  | nil => simp [writeFields]
  | cons f fields ih =>
      rw [writeFields, List.foldl_cons, ← writeFields, ih, writeField_buf, List.flatMap_cons,
        List.append_assoc]

/-- The length prefix is that of the payload, up to the 32 bits it has. -/
theorem MessageWriter.frame_prefix (w : MessageWriter) (h : 4 ≤ w.buf.length) :
    gu32 (w.frame.take 4) = UInt32.ofNat w.udpPayload.length := by
  have htaken : w.frame.take 4 = pu32 (UInt32.ofNat w.buf.length - 4) := rfl
  rw [htaken, gu32_pu32, udpPayload, List.length_drop, UInt32.ofNat_sub h]
  rfl

/-- A reader over the payload of a written message finds its header fields, and the reads that
the fields call for return their tags and values in order and leave nothing. -/
theorem frame_round_trip (type : MessageType) (flags : UInt16) (seq : UInt32)
    (fields : List Field) :
    let w := (MessageWriter.create type seq flags).writeFields fields
    let payload := w.frame.drop 4
    let reader := MessageReader.create payload
    gu32 (w.frame.take 4) = UInt32.ofNat payload.length ∧ w.udpPayload = payload ∧
      reader.msgType = type ∧ reader.flags = flags ∧ reader.seqNum = seq ∧
      ∃ last, readList (fields.map fun f => readField f.value.kind) reader.toCursor =
          some (fields.map fun f => (f.tag, f.value), last) ∧
        hasMore last = false ∧ peek last = none := by
  intro w payload reader
  have hbuf : w.buf = List.replicate 4 0 ++ pu16 type ++ pu16 flags ++ pu32 seq ++
      fields.flatMap Field.encode := MessageWriter.writeFields_buf _ fields
  have hudp : w.udpPayload = payload := rfl
  have hpayload : payload = (pu16 type ++ pu16 flags ++ pu32 seq) ++
      fields.flatMap Field.encode := by
    rw [← hudp, MessageWriter.udpPayload, hbuf]
    rfl
  have hreader : reader = { buf := payload, pos := 8, msgType := type, flags, seqNum := seq } := by
    have hlong : 8 ≤ payload.length := by
      rw [hpayload, List.length_append]
      exact Nat.le_add_right 8 _
    show MessageReader.create payload = _
    rw [MessageReader.create, if_pos hlong]
    congr
    · rw [hpayload]
      exact gu16_pu16 type
    · rw [hpayload]
      exact gu16_pu16 flags
    · rw [hpayload]
      exact gu32_pu32 seq
  refine ⟨?_, hudp, congrArg MessageReader.msgType hreader, congrArg MessageReader.flags hreader,
    congrArg MessageReader.seqNum hreader, ?_⟩
  · rw [← hudp]
    exact w.frame_prefix (by rw [hbuf]; simp)
  have hread := takes_readList fields (fun f _ => f.takes)
    (pu16 type ++ pu16 flags ++ pu32 seq) []
  have hend : (pu16 type ++ pu16 flags ++ pu32 seq).length +
      (fields.flatMap Field.encode).length = payload.length :=
    List.length_append.symm.trans (congrArg List.length hpayload.symm)
  rw [List.append_nil, ← hpayload, hend] at hread
  refine ⟨⟨payload, payload.length⟩, ?_, ?_, ?_⟩
  · rw [hreader]
    exact hread
  · simp [hasMore]
  · simp [peek, Cursor.slice]

end MobileCore.TlvMessages
