import MobileCore.PythonJson
import MobileCore.SimplifiedAka
import MobileCore.WireJson

/-!
# The events that the simulators log

An event is a line with one JSON object. Its strings are escaped, less the control characters that
have no short escape, so that Python loads from the line what was logged.
-/

namespace MobileCore.EventLog

open MobileCore.CppText
open MobileCore.PythonJson
open MobileCore.TextFiles
open MobileCore.WireJson (members num obj str)

section Writer

structure MsgMeta where
  beginnerText : Str := []
  interviewQ : Str := []
  interviewA : Str := []

/-- A call of `logEvent` with the time that it reads. -/
structure LogCall where
  nowMs : Int64
  fromNode : Str
  toNode : Str
  msg : Str
  interfaceName : Str
  port : Int32
  hexBytes : List UInt8 := []
  sim : Str

def escapeByte (c : UInt8) : Str :=
  if c = 34 then [92, 34]
  else if c = 92 then [92, 92]
  else if c = 10 then [92, 110]
  else if c = 13 then [92, 114]
  else if c = 9 then [92, 116]
  else if c < 0x20 then []
  else [c]

def jsonEsc (s : Str) : Str := s.flatMap escapeByte

/-- An exact match comes first. The others are in the order that the table happens to have. -/
def lookup (table : List (Str × MsgMeta)) (msg : Str) : Option MsgMeta :=
  match table.find? fun kv => kv.1 = msg with
  | some kv => some kv.2
  | none => (table.find? fun kv => (find kv.1 msg).isSome || (find msg kv.1).isSome).map (·.2)

def line (table : List (Str × MsgMeta)) (e : LogCall) : Str :=
  let info := (lookup table e.msg).getD {}
  obj [(lit "ts", num e.nowMs.toInt),
    (lit "from", str (jsonEsc e.fromNode)),
    (lit "to", str (jsonEsc e.toNode)),
    (lit "msg", str (jsonEsc e.msg)),
    (lit "interface", str (jsonEsc e.interfaceName)),
    (lit "port", num e.port.toInt),
    (lit "hex", str (SimplifiedAka.toHex e.hexBytes)),
    (lit "sim", str (jsonEsc e.sim)),
    (lit "beginner_text", str (jsonEsc info.beginnerText)),
    (lit "interview_q", str (jsonEsc info.interviewQ)),
    (lit "interview_a", str (jsonEsc info.interviewA))]

end Writer

section Strings

/-- What is left of a string that is logged. -/
def kept (s : Str) : Str := s.filter fun c => escapeByte c ≠ []

variable (charset : Charset)

theorem jsonEsc_kept (s : Str) : jsonEsc (kept s) = jsonEsc s := by
  induction s with
  | nil => rfl
  | cons c s ih =>
      rw [kept, List.filter_cons]
      by_cases hc : escapeByte c = []
      · rw [if_neg (by simpa using hc), jsonEsc, jsonEsc, List.flatMap_cons, hc]
        exact ih
      · rw [if_pos (by simpa using hc), jsonEsc, jsonEsc, List.flatMap_cons, List.flatMap_cons]
        exact congrArg (escapeByte c ++ ·) ih

theorem escapeByte_cases (c : UInt8) :
    escapeByte c = [] ∨
      (escapeByte c = [c] ∧ c.toNat ≠ 34 ∧ c.toNat ≠ 92 ∧ 32 ≤ c.toNat) ∨
      ∃ letter : UInt8, escapeByte c = [92, letter] ∧ 32 ≤ letter.toNat ∧ letter.toNat < 0x80 ∧
        shortEscapes.lookup letter.toNat = some c.toNat := by
  unfold escapeByte
  split_ifs with hquote hescape hnewline hreturn htab hcontrol
  · exact Or.inr (Or.inr ⟨34, rfl, by decide, by decide, by rw [hquote]; rfl⟩)
  · exact Or.inr (Or.inr ⟨92, rfl, by decide, by decide, by rw [hescape]; rfl⟩)
  · exact Or.inr (Or.inr ⟨110, rfl, by decide, by decide, by rw [hnewline]; rfl⟩)
  · exact Or.inr (Or.inr ⟨114, rfl, by decide, by decide, by rw [hreturn]; rfl⟩)
  · exact Or.inr (Or.inr ⟨116, rfl, by decide, by decide, by rw [htab]; rfl⟩)
  · exact Or.inl rfl
  · refine Or.inr (Or.inl ⟨rfl, ?_, ?_, ?_⟩)
    · exact fun h => hquote (UInt8.toNat_inj.mp h)
    · exact fun h => hescape (UInt8.toNat_inj.mp h)
    · exact UInt8.le_iff_toNat_le.mp (UInt8.not_lt.mp hcontrol)

theorem jsonEsc_cons (c : UInt8) (s : Str) : jsonEsc (c :: s) = escapeByte c ++ jsonEsc s :=
  List.flatMap_cons

theorem jsonEsc_append (s t : Str) : jsonEsc (s ++ t) = jsonEsc s ++ jsonEsc t :=
  List.flatMap_append

theorem jsonEsc_printable (s : Str) : ∀ b ∈ jsonEsc s, 32 ≤ b.toNat := by
  induction s with
  | nil => exact fun b hb => absurd hb List.not_mem_nil
  | cons c s ih =>
      intro b hb
      rw [jsonEsc_cons, List.mem_append] at hb
      rcases hb with hb | hb
      · rcases escapeByte_cases c with hdropped | ⟨hkept, -, -, hc⟩ | ⟨letter, hescape, hletter, -⟩
        · rw [hdropped] at hb
          cases hb
        · rw [hkept] at hb
          rwa [List.mem_singleton.mp hb]
        · rw [hescape] at hb
          rcases List.mem_cons.mp hb with rfl | hb
          · decide
          · rwa [List.mem_singleton.mp hb]
      · exact ih b hb

theorem jsonEsc_high {s : Str} (hs : ∀ b ∈ s, 0x80 ≤ b.toNat) : jsonEsc s = s := by
  induction s with
  | nil => rfl
  | cons c s ih =>
      obtain ⟨hc, hrest⟩ := List.forall_mem_cons.mp hs
      have hother : ∀ d : UInt8, d.toNat < 0x80 → c ≠ d := by
        rintro d hd rfl
        omega
      have hcontrol : ¬c < 0x20 := by
        intro hlow
        have hlow : c.toNat < 0x20 := UInt8.lt_iff_toNat_lt.mp hlow
        omega
      have hkept : escapeByte c = [c] := by
        rw [escapeByte, if_neg (hother 34 (by decide)), if_neg (hother 92 (by decide)),
          if_neg (hother 10 (by decide)), if_neg (hother 13 (by decide)),
          if_neg (hother 9 (by decide)), if_neg hcontrol]
      rw [jsonEsc_cons, hkept, ih hrest, List.singleton_append]

/-- Python reads from an escaped string what of it has been kept. The induction goes from one ASCII
character to the next. -/
theorem spells_jsonEsc {s : Str} (hs : ∀ c ∈ s, escapeByte c ≠ []) :
    Spells (charset.decode (jsonEsc s)) (charset.decode s) := by
  induction s using ascii_induction with
  | high s hhigh =>
      rw [jsonEsc_high hhigh]
      refine Spells.of_forall fun c hc => ?_
      have hc := charset.decode_high s hhigh c hc
      omega
  | ascii front back c hc hfront hback =>
      obtain ⟨hfront', hback'⟩ := List.forall_mem_append.mp hs
      obtain ⟨hkept, hback'⟩ := List.forall_mem_cons.mp hback'
      rw [jsonEsc_append, jsonEsc_cons, charset.decode_ascii front back c hc]
      rcases escapeByte_cases c with hdropped | ⟨hplain, hquote, hescape, hcontrol⟩ |
        ⟨letter, hescape, -, hletter, hlookup⟩
      · exact absurd hdropped hkept
      · rw [hplain, List.singleton_append, charset.decode_ascii _ _ c hc]
        exact (hfront hfront').append ((Spells.plain hquote hescape hcontrol).append (hback hback'))
      · rw [hescape, List.cons_append, List.singleton_append,
          charset.decode_ascii _ _ 92 (by decide), charset.decode_cons hletter]
        exact (hfront hfront').append ((Spells.escape hlookup).append (hback hback'))

theorem spells_logged (s : Str) :
    Spells (charset.decode (jsonEsc s)) (charset.decode (kept s)) := by
  rw [← jsonEsc_kept]
  refine spells_jsonEsc charset fun c hc => ?_
  simpa [kept] using List.of_mem_filter hc

end Strings

section Integers

theorem digit_toNat {d : Nat} (hd : d < 10) : (UInt8.ofNat (48 + d)).toNat = 48 + d :=
  UInt8.toNat_ofNat_of_lt' (by show _ < 256; omega)

theorem decimal_natText (n : Nat) : decimal ((natText n).map UInt8.toNat) = n := by
  induction n using Nat.strongRecOn with
  | ind n ih =>
      rcases Nat.lt_or_ge n 10 with hn | hn
      · rw [natText_of_lt hn, List.map_singleton, digit_toNat hn]
        show 0 * 10 + (48 + n - 48) = n
        omega
      · have hlast := digit_toNat (Nat.mod_lt n (by decide : 0 < 10))
        have hfront := ih (n / 10) (by omega)
        rw [decimal] at hfront
        rw [natText_of_le hn, List.map_append, decimal, List.foldl_append, hfront,
          List.map_singleton, hlast]
        show n / 10 * 10 + (48 + n % 10 - 48) = n
        omega

theorem natText_decimal {n : Nat} (h : n < 10 ^ 20) : Decimal ((natText n).map UInt8.toNat) where
  digit := by
    intro d hd
    obtain ⟨c, hc, rfl⟩ := List.mem_map.mp hd
    obtain ⟨hlow, hhigh⟩ := natText_digits n c hc
    have hlow := UInt8.le_iff_toNat_le.mp hlow
    have hhigh := UInt8.le_iff_toNat_le.mp hhigh
    simp only [isDigit, Bool.and_eq_true, decide_eq_true_eq]
    exact ⟨hlow, hhigh⟩
  nonempty := by
    rw [ne_eq, List.map_eq_nil_iff]
    exact natText_ne_nil n
  zero := by
    intro hzero
    rw [List.head?_map] at hzero
    obtain ⟨c, hc, hvalue⟩ := Option.map_eq_some_iff.mp hzero
    obtain rfl : c = 48 := UInt8.toNat_inj.mp hvalue
    rw [natText_zero hc]
    rfl
  short := by
    rw [List.length_map]
    exact Nat.le_trans (length_natText_le (by decide) h) (by decide)

variable (charset : Charset)

theorem decode_ascii_digits (n : Nat) :
    charset.decode (natText n) = (natText n).map UInt8.toNat := by
  have hascii : ∀ b ∈ natText n, b.toNat < 0x80 := by
    intro b hb
    have hhigh := UInt8.le_iff_toNat_le.mp (natText_digits n b hb).2
    exact Nat.lt_of_le_of_lt hhigh (by decide)
  have happend := charset.decode_append hascii []
  rwa [List.append_nil, charset.decode_nil, List.append_nil] at happend

theorem scans_num {n : Int} (h : n.natAbs < 10 ^ 20) (nested : Option (Scanner Json)) :
    Scans (scanValue nested) (charset.decode (num n)) (.int n) := by
  cases n with
  | ofNat n =>
      have hscans := scans_int (natText_decimal h) false nested
      rw [decimal_natText] at hscans
      show Scans (scanValue nested) (charset.decode (natText n)) (.int n)
      rw [decode_ascii_digits]
      exact hscans
  | negSucc n =>
      have hscans := scans_int (natText_decimal h) true nested
      rw [decimal_natText] at hscans
      show Scans (scanValue nested) (charset.decode (45 :: natText (n + 1))) (.int (.negSucc n))
      rw [charset.decode_cons (by decide), decode_ascii_digits]
      exact hscans

end Integers

section Lines

variable (charset : Charset)

/-- A member of an object that is written: its key, how its value is written, and what Python makes
of the value. -/
def member (f : Str × Str × Json) : Member :=
  { key := f.1.map UInt8.toNat, spelled := charset.decode f.2.1, value := f.2.2 }

theorem decode_str (s : Str) : charset.decode (str s) = 34 :: (charset.decode s ++ [34]) := by
  show charset.decode (34 :: (s ++ [34])) = _
  rw [charset.decode_cons (by decide), charset.decode_concat s (by decide)]
  rfl

theorem decode_member {key : Str} (hkey : ∀ b ∈ key, b.toNat < 0x80) (value : Str) :
    charset.decode (34 :: (key ++ 34 :: 58 :: value)) =
      34 :: (key.map UInt8.toNat ++ 34 :: 58 :: charset.decode value) := by
  rw [charset.decode_cons (by decide), charset.decode_append hkey, charset.decode_cons (by decide),
    charset.decode_cons (by decide)]
  rfl

theorem members_eq (key value : Str) (rest : List (Str × Str)) :
    members ((key, value) :: rest) =
      34 :: (key ++ 34 :: 58 :: (value ++ if rest = [] then [] else 44 :: members rest)) := by
  cases rest with
  | nil => simp [members, lit]
  | cons kv rest => simp [members, lit]

theorem decode_members {fs : List (Str × Str × Json)}
    (hkeys : ∀ f ∈ fs, ∀ b ∈ f.1, b.toNat < 0x80) :
    charset.decode (members (fs.map fun f => (f.1, f.2.1))) =
      membersText (fs.map (member charset)) := by
  induction fs with
  | nil => exact charset.decode_nil
  | cons f fs ih =>
      obtain ⟨hkey, hrest⟩ := List.forall_mem_cons.mp hkeys
      rw [List.map_cons, members_eq, decode_member charset hkey]
      cases fs with
      | nil =>
          rw [List.map_nil, if_pos rfl, List.append_nil]
          rfl
      | cons f' fs =>
          have hmore : (f' :: fs).map (fun f => (f.1, f.2.1)) ≠ [] := List.cons_ne_nil _ _
          rw [if_neg hmore, charset.decode_ascii _ _ 44 (by decide), ih hrest]
          rfl

theorem decode_obj {fs : List (Str × Str × Json)} (hkeys : ∀ f ∈ fs, ∀ b ∈ f.1, b.toNat < 0x80) :
    charset.decode (obj (fs.map fun f => (f.1, f.2.1))) = objectText (fs.map (member charset)) := by
  show charset.decode (123 :: (members (fs.map fun f => (f.1, f.2.1)) ++ [125])) = _
  rw [charset.decode_cons (by decide), charset.decode_concat _ (by decide),
    decode_members charset hkeys]
  rfl

/-- Letters that stand for themselves in a string. -/
def Plain (s : Str) : Prop := ∀ b ∈ s, b.toNat < 0x80 ∧ b.toNat ≠ 34 ∧ b.toNat ≠ 92 ∧ 32 ≤ b.toNat

instance (s : Str) : Decidable (Plain s) := List.decidableBAll _ _

theorem Plain.spells {s : Str} (h : Plain s) : Spells (s.map UInt8.toNat) (s.map UInt8.toNat) := by
  refine Spells.of_forall fun c hc => ?_
  obtain ⟨b, hb, rfl⟩ := List.mem_map.mp hc
  exact (h b hb).2

theorem plain_toHex (v : List UInt8) : Plain (SimplifiedAka.toHex v) := by
  have hdigit : ∀ n < 16, Plain [SimplifiedAka.hexDigit n] := by decide
  intro c hc
  obtain ⟨b, -, hc⟩ := List.mem_flatMap.mp hc
  have hb := UInt8.toNat_lt b
  rcases List.mem_cons.mp hc with rfl | hc
  · exact hdigit (b.toNat / 16) (by omega) _ List.mem_cons_self
  · rw [List.mem_singleton.mp hc]
    exact hdigit (b.toNat % 16) (Nat.mod_lt _ (by decide)) _ List.mem_cons_self

variable (table : List (Str × MsgMeta)) (e : LogCall)

/-- What Python loads of an event. -/
def eventDict : Json :=
  let info := (lookup table e.msg).getD {}
  .dict [(text "ts", .int e.nowMs.toInt),
    (text "from", .str (charset.decode (kept e.fromNode))),
    (text "to", .str (charset.decode (kept e.toNode))),
    (text "msg", .str (charset.decode (kept e.msg))),
    (text "interface", .str (charset.decode (kept e.interfaceName))),
    (text "port", .int e.port.toInt),
    (text "hex", .str (charset.decode (SimplifiedAka.toHex e.hexBytes))),
    (text "sim", .str (charset.decode (kept e.sim))),
    (text "beginner_text", .str (charset.decode (kept info.beginnerText))),
    (text "interview_q", .str (charset.decode (kept info.interviewQ))),
    (text "interview_a", .str (charset.decode (kept info.interviewA)))]

def strField (key : String) (s : Str) : Str × Str × Json :=
  (lit key, str (jsonEsc s), .str (charset.decode (kept s)))

def fields : List (Str × Str × Json) :=
  let info := (lookup table e.msg).getD {}
  [(lit "ts", num e.nowMs.toInt, .int e.nowMs.toInt),
    strField charset "from" e.fromNode,
    strField charset "to" e.toNode,
    strField charset "msg" e.msg,
    strField charset "interface" e.interfaceName,
    (lit "port", num e.port.toInt, .int e.port.toInt),
    (lit "hex", str (SimplifiedAka.toHex e.hexBytes),
      .str (charset.decode (SimplifiedAka.toHex e.hexBytes))),
    strField charset "sim" e.sim,
    strField charset "beginner_text" info.beginnerText,
    strField charset "interview_q" info.interviewQ,
    strField charset "interview_a" info.interviewA]

theorem line_eq : line table e = obj ((fields charset table e).map fun f => (f.1, f.2.1)) := rfl

theorem eventDict_eq :
    .dict (setItems ((fields charset table e).map (member charset)) []) =
      eventDict charset table e := rfl

theorem forall_fields {P : Str × Str × Json → Prop}
    (hint : ∀ key (n : Int), Plain (lit key) → n.natAbs < 10 ^ 20 → P (lit key, num n, .int n))
    (hstr : ∀ key s, Plain (lit key) → P (strField charset key s))
    (hplain : ∀ key s, Plain (lit key) → Plain s → P (lit key, str s, .str (charset.decode s))) :
    ∀ f ∈ fields charset table e, P f := by
  have hts : e.nowMs.toInt.natAbs < 10 ^ 20 := by
    have hlow := Int64.le_toInt e.nowMs
    have hhigh := Int64.toInt_lt e.nowMs
    omega
  have hport : e.port.toInt.natAbs < 10 ^ 20 := by
    have hlow := Int32.le_toInt e.port
    have hhigh := Int32.toInt_lt e.port
    omega
  simp only [fields, List.forall_mem_cons]
  exact ⟨hint _ _ (by decide) hts, hstr _ _ (by decide), hstr _ _ (by decide), hstr _ _ (by decide),
    hstr _ _ (by decide), hint _ _ (by decide) hport, hplain _ _ (by decide) (plain_toHex _),
    hstr _ _ (by decide), hstr _ _ (by decide), hstr _ _ (by decide), hstr _ _ (by decide),
    fun _ h => absurd h List.not_mem_nil⟩

theorem decode_plain {s : Str} (h : Plain s) : charset.decode s = s.map UInt8.toNat := by
  have happend := charset.decode_append (fun b hb => (h b hb).1) []
  rwa [List.append_nil, charset.decode_nil, List.append_nil] at happend

theorem fields_scan (nested : Option (Scanner Json)) :
    ∀ f ∈ fields charset table e, (member charset f).Scans (scanValue nested) := by
  apply forall_fields
  · intro key n hkey hn
    exact ⟨hkey.spells, scans_num charset hn nested⟩
  · intro key s hkey
    refine ⟨hkey.spells, ?_⟩
    show Scans _ (charset.decode (str (jsonEsc s))) _
    rw [decode_str]
    exact scans_str (spells_logged charset s) nested
  · intro key s hkey hs
    refine ⟨hkey.spells, ?_⟩
    show Scans _ (charset.decode (str s)) _
    rw [decode_str, decode_plain charset hs]
    exact scans_str hs.spells nested

theorem fields_ascii : ∀ f ∈ fields charset table e, ∀ b ∈ f.1, b.toNat < 0x80 := by
  apply forall_fields
  · exact fun key n hkey _ b hb => (hkey b hb).1
  · exact fun key s hkey b hb => (hkey b hb).1
  · exact fun key s hkey _ b hb => (hkey b hb).1

theorem decode_line : charset.decode (line table e) =
    objectText ((fields charset table e).map (member charset)) := by
  rw [line_eq charset]
  exact decode_obj charset (fields_ascii charset table e)

theorem loads_line (depth : Nat) :
    loads (depth + 1) (charset.decode (line table e)) = .ok (eventDict charset table e) := by
  have hmembers : ∀ m ∈ (fields charset table e).map (member charset),
      m.Scans (scanOnce depth) := by
    intro m hm
    obtain ⟨f, hf, rfl⟩ := List.mem_map.mp hm
    cases depth with
    | zero => exact fields_scan charset table e none f hf
    | succ depth => exact fields_scan charset table e (some (scanOnce depth)) f hf
  have hne : (fields charset table e).map (member charset) ≠ [] := List.cons_ne_nil _ _
  rw [decode_line, loads_objectText depth hne hmembers, eventDict_eq]

section Characters

def Printable (s : Str) : Prop := ∀ b ∈ s, 32 ≤ b.toNat

theorem Plain.printable {s : Str} (h : Plain s) : Printable s := fun b hb => (h b hb).2.2.2

theorem Printable.append {s t : Str} (hs : Printable s) (ht : Printable t) : Printable (s ++ t) :=
  List.forall_mem_append.mpr ⟨hs, ht⟩

theorem Printable.cons {b : UInt8} {s : Str} (hb : 32 ≤ b.toNat) (hs : Printable s) :
    Printable (b :: s) :=
  List.forall_mem_cons.mpr ⟨hb, hs⟩

theorem printable_nil : Printable [] := fun _ hb => absurd hb List.not_mem_nil

theorem printable_str {s : Str} (h : Printable s) : Printable (str s) :=
  Printable.cons (by decide) (h.append (Printable.cons (by decide) printable_nil))

theorem printable_num (n : Int) : Printable (num n) := by
  intro b hb
  by_contra hlow
  refine not_mem_intText n b (Or.inl ?_) hb
  rw [UInt8.lt_iff_toNat_lt]
  exact Nat.lt_of_lt_of_le (Nat.not_le.mp hlow) (by decide)

theorem printable_members {kv : List (Str × Str)} (h : ∀ m ∈ kv, Printable m.1 ∧ Printable m.2) :
    Printable (members kv) := by
  induction kv with
  | nil => exact printable_nil
  | cons m kv ih =>
      obtain ⟨⟨hkey, hvalue⟩, hrest⟩ := List.forall_mem_cons.mp h
      rw [members_eq]
      refine Printable.cons (by decide) (hkey.append (Printable.cons (by decide)
        (Printable.cons (by decide) (hvalue.append ?_))))
      split
      · exact printable_nil
      · exact Printable.cons (by decide) (ih hrest)

theorem printable_line : Printable (line table e) := by
  have hfields : ∀ f ∈ fields utf8 table e, Printable f.1 ∧ Printable f.2.1 := by
    apply forall_fields
    · exact fun key n hkey _ => ⟨hkey.printable, printable_num n⟩
    · exact fun key s hkey => ⟨hkey.printable, printable_str (jsonEsc_printable s)⟩
    · exact fun key s hkey hs => ⟨hkey.printable, printable_str hs.printable⟩
  rw [line_eq utf8]
  refine Printable.cons (by decide) ((printable_members ?_).append
    (Printable.cons (by decide) printable_nil))
  intro m hm
  obtain ⟨f, hf, rfl⟩ := List.mem_map.mp hm
  exact hfields f hf

end Characters

section Decoding

/-- The control characters that have no short escape. -/
def isDropped (c : UInt8) : Bool := decide (c < 0x20) && c != 10 && c != 13 && c != 9

theorem escapeByte_eq_nil_iff (c : UInt8) : escapeByte c = [] ↔ isDropped c = true := by
  unfold escapeByte isDropped
  split_ifs with hquote hescape hnewline hreturn htab hcontrol
  · simp [hquote]
  · simp [hescape]
  · simp [hnewline]
  · simp [hreturn]
  · simp [htab]
  · simp [hcontrol, hnewline, hreturn, htab]
  · simp [hcontrol]

theorem kept_eq (s : Str) : kept s = s.filter fun c => !isDropped c := by
  unfold kept
  apply List.filter_congr
  intro c _
  have hiff := escapeByte_eq_nil_iff c
  cases hdropped : isDropped c with
  | false => simpa [hdropped] using hiff
  | true => simpa [hdropped] using hiff

/-- What is written for an event is one line, and one object with the strings that were logged, less
their control characters, and with the bytes that were logged. -/
theorem event_decodes (depth : Nat) :
    (∀ b ∈ line table e, 32 ≤ b.toNat) ∧
    ∃ items, loads (depth + 1) (latin1.decode (line table e)) = .ok (.dict items) ∧
      (∀ field ∈ [("from", e.fromNode), ("to", e.toNode), ("msg", e.msg),
          ("interface", e.interfaceName), ("sim", e.sim)],
        items.lookup (text field.1) =
          some (.str (latin1.decode (field.2.filter fun c => !isDropped c)))) ∧
      items.lookup (text "port") = some (.int e.port.toInt) ∧
      ∃ hex, items.lookup (text "hex") = some (.str (latin1.decode hex)) ∧
        SimplifiedAka.fromHex hex = some e.hexBytes := by
  refine ⟨printable_line table e, _, loads_line latin1 table e depth, ?_, rfl,
    SimplifiedAka.toHex e.hexBytes, rfl, SimplifiedAka.fromHex_toHex e.hexBytes⟩
  simp only [List.forall_mem_cons, ← kept_eq]
  exact ⟨rfl, rfl, rfl, rfl, rfl, fun _ h => absurd h List.not_mem_nil⟩

end Decoding

end Lines

end MobileCore.EventLog
