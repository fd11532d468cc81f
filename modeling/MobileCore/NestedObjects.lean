import MobileCore.FlatObjects

/-!
# Looking up the members of a nested object

The messages between the domain proxy and the spectrum access system are built with the same three
functions as the flat objects of the 5G network functions, but their values can be objects. The
getter takes the first occurrence of the quoted key, at whatever depth.
-/

namespace MobileCore.NestedObjects

open MobileCore.CppText
open MobileCore.FlatObjects
open MobileCore.WireJson (str num members obj)

/-- The value at the front of a text: a quoted string, which has to end, or a bare token. -/
def fieldValue : Str → Str
  | 34 :: value =>
      match find [34] value with
      | none => []
      | some n => value.take n
  | value => value.takeWhile fun c => c != 44 && c != 125

def get (text key : Str) : Str :=
  let needle := lit "\"" ++ key ++ lit "\":"
  match find needle text with
  | none => []
  | some p => fieldValue (text.drop (p + needle.length))

/-- What a caller builds: strings, numbers, and objects of them. -/
inductive Tree where
  | str (s : Str)
  | num (n : Int)
  | obj (members : List (Str × Tree))

mutual

def Tree.text : Tree → Str
  | .str s => WireJson.str s
  | .num n => WireJson.num n
  | .obj kv => WireJson.obj (rendered kv)

def rendered : List (Str × Tree) → List (Str × Str)
  | [] => []
  | (key, value) :: kv => (key, value.text) :: rendered kv

end

mutual

def Tree.keys : Tree → List Str
  | .str _ | .num _ => []
  | .obj kv => keysOf kv

def keysOf : List (Str × Tree) → List Str
  | [] => []
  | (key, value) :: kv => key :: (value.keys ++ keysOf kv)

end

mutual

def Tree.quoted : Tree → List Str
  | .str s => [s]
  | .num _ => []
  | .obj kv => quotedOf kv

def quotedOf : List (Str × Tree) → List Str
  | [] => []
  | (key, value) :: kv => key :: (value.quoted ++ quotedOf kv)

end

/-- What a reader should get for a scalar. -/
def Tree.content : Tree → Option Str
  | .str s => some s
  | .num n => some (WireJson.num n)
  | .obj _ => none

mutual

/-- The scalar members of the whole tree. -/
def Tree.scalars : Tree → List (Str × Str)
  | .str _ | .num _ => []
  | .obj kv => scalarsOf kv

def scalarsOf : List (Str × Tree) → List (Str × Str)
  | [] => []
  | (key, value) :: kv =>
      value.content.toList.map (key, ·) ++ (value.scalars ++ scalarsOf kv)

end

theorem get_eq (text key : Str) :
    get text key = ((behind (needle key) text).map fieldValue).getD [] := by
  have hneedle : lit "\"" ++ key ++ lit "\":" = needle key := rfl
  simp only [get, hneedle, behind]
  cases find (needle key) text with
  | none => rfl
  | some p => rfl

def close (post : Str) : Str := 125 :: post

def inside (kv : List (Str × Tree)) (post : Str) : Str := members (rendered kv) ++ close post

def after (kv : List (Str × Tree)) (post : Str) : Str :=
  match kv with
  | [] => close post
  | m :: kv => 44 :: inside (m :: kv) post

theorem inside_cons (key : Str) (value : Tree) (kv : List (Str × Tree)) (post : Str) :
    inside ((key, value) :: kv) post =
      34 :: (key ++ 34 :: 58 :: (value.text ++ after kv post)) := by
  have hcolon : lit "\":" = [34, 58] := rfl
  have hquote : lit "\"" = [34] := rfl
  have hcomma : lit "," = [44] := rfl
  cases kv with
  | nil => simp [inside, after, rendered, members, hcolon, hquote]
  | cons m kv => simp [inside, after, rendered, members, hcolon, hquote, hcomma]

theorem text_str (s post : Str) : (Tree.str s).text ++ post = 34 :: (s ++ 34 :: post) := by
  show ([34] ++ s ++ [34]) ++ post = _
  simp

theorem text_obj (kv : List (Str × Tree)) (post : Str) :
    (Tree.obj kv).text ++ post = 123 :: inside kv post := by
  show ([123] ++ members (rendered kv) ++ [125]) ++ post = _
  simp [inside, close]

/-- A key that cannot start right behind the quote that ends a key or a string. -/
def Apart (k : Str) : Prop := k.head? ≠ some 58 ∧ k.head? ≠ some 44 ∧ k.head? ≠ some 125

instance (k : Str) : Decidable (Apart k) :=
  inferInstanceAs (Decidable (k.head? ≠ some 58 ∧ k.head? ≠ some 44 ∧ k.head? ≠ some 125))

def Colonless (s : Str) : Prop := s.head? ≠ some 58

instance (s : Str) : Decidable (Colonless s) := inferInstanceAs (Decidable (s.head? ≠ some 58))

/-- The first quote of the text, if it has one, is not followed by a colon. -/
def Quiet (text : Str) : Prop := ∀ gap tail, Quoteless gap → text ≠ gap ++ 34 :: 58 :: tail

/-- A text that can stand behind a value. -/
def Stops (post : Str) : Prop := post.head? = some 44 ∨ post.head? = some 125

theorem quiet_nil : Quiet [] := by
  intro gap tail _ heq
  simp at heq

theorem Quiet.cons {text : Str} {c : UInt8} (hc : c ≠ 34) (h : Quiet text) :
    Quiet (c :: text) := by
  intro gap tail hgap heq
  cases gap with
  | nil => exact hc (List.cons.inj heq).1
  | cons d gap =>
      exact h gap tail (fun hmem => hgap (List.mem_cons_of_mem d hmem)) (List.cons.inj heq).2

theorem Quiet.append {text piece : Str} (hpiece : Quoteless piece) (h : Quiet text) :
    Quiet (piece ++ text) := by
  induction piece with
  | nil => exact h
  | cons c piece ih =>
      have hc : c ≠ 34 := fun heq => hpiece (heq ▸ List.mem_cons_self)
      exact (ih fun hmem => hpiece (List.mem_cons_of_mem c hmem)).cons hc

theorem quiet_quoted {s : Str} (post : Str) (h : Colonless s) : Quiet (34 :: (s ++ 34 :: post)) := by
  intro gap tail hgap heq
  cases gap with
  | nil =>
      have hback : s ++ 34 :: post = 58 :: tail := (List.cons.inj heq).2
      cases s with
      | nil => exact absurd (List.cons.inj hback).1 (by decide)
      | cons c s => exact h (congrArg some (List.cons.inj hback).1)
  | cons d gap => exact hgap ((List.cons.inj heq).1 ▸ List.mem_cons_self)

theorem Quiet.not_needle {k text : Str} (hk : Quoteless k) (h : Quiet text) :
    ¬needle k <+: 34 :: text := by
  intro hfront
  obtain ⟨tail, htail⟩ := (List.cons_prefix_cons.mp hfront).2
  refine h k tail hk ?_
  rw [← htail]
  simp

theorem Apart.not_needle {k text : Str} {c : UInt8} (hk : Apart k)
    (hc : c = 58 ∨ c = 44 ∨ c = 125) : ¬needle k <+: 34 :: c :: text := by
  intro hfront
  have hback := (List.cons_prefix_cons.mp hfront).2
  cases k with
  | nil =>
      have hquote := (List.cons_prefix_cons.mp hback).1
      rw [← hquote] at hc
      exact absurd hc (by decide)
  | cons d k =>
      obtain rfl := (List.cons_prefix_cons.mp hback).1
      rcases hc with rfl | rfl | rfl
      · exact hk.1 rfl
      · exact hk.2.1 rfl
      · exact hk.2.2 rfl

theorem not_needle_closing {k text : Str} {c : UInt8} (hk : Quoteless k)
    (hc : c = 58 ∨ c = 44 ∨ c = 125) (h : Apart k ∨ Quiet text) :
    ¬needle k <+: 34 :: c :: text := by
  rcases h with h | h
  · exact h.not_needle hc
  · refine (h.cons ?_).not_needle hk
    rcases hc with rfl | rfl | rfl <;> decide

theorem stops_after (kv : List (Str × Tree)) (post : Str) : Stops (after kv post) := by
  cases kv with
  | nil => exact .inr rfl
  | cons m kv => exact .inl rfl

theorem quiet_inside (kv : List (Str × Tree)) {post : Str}
    (h : ∀ s ∈ quotedOf kv, Colonless s) (hpost : Quiet post) : Quiet (inside kv post) := by
  cases kv with
  | nil => exact hpost.cons (by decide)
  | cons m kv =>
      obtain ⟨key, value⟩ := m
      rw [inside_cons]
      exact quiet_quoted _ (h key (by simp [quotedOf]))

theorem quiet_text (t : Tree) {post : Str} (h : ∀ s ∈ t.quoted, Colonless s)
    (hpost : Quiet post) : Quiet (t.text ++ post) := by
  cases t with
  | str s =>
      rw [text_str]
      exact quiet_quoted post (h s (by simp [Tree.quoted]))
  | num n => exact hpost.append (not_mem_intText n 34 (.inl (by decide)))
  | obj kv =>
      rw [text_obj]
      exact (quiet_inside kv h hpost).cons (by decide)

theorem quiet_after (kv : List (Str × Tree)) {post : Str}
    (h : ∀ s ∈ quotedOf kv, Colonless s) (hpost : Quiet post) : Quiet (after kv post) := by
  cases kv with
  | nil => exact hpost.cons (by decide)
  | cons m kv => exact (quiet_inside (m :: kv) h hpost).cons (by decide)

/-- A key whose lookup is not misled by the keys and strings that are written. -/
structure Fits (k : Str) (written : List Str) : Prop where
  key : Quoteless k
  quoteless : ∀ s ∈ written, Quoteless s
  apart : Apart k ∨ ∀ s ∈ written, Colonless s

theorem Fits.mono {k : Str} {written part : List Str} (h : Fits k written)
    (hpart : part ⊆ written) : Fits k part :=
  ⟨h.key, fun s hs => h.quoteless s (hpart hs), h.apart.imp_right fun hall s hs => hall s (hpart hs)⟩

theorem Fits.head {k key : Str} {value : Tree} {kv : List (Str × Tree)}
    (h : Fits k (quotedOf ((key, value) :: kv))) : Quoteless key :=
  h.quoteless key (by simp [quotedOf])

theorem Fits.value {k key : Str} {value : Tree} {kv : List (Str × Tree)}
    (h : Fits k (quotedOf ((key, value) :: kv))) : Fits k value.quoted := by
  apply h.mono
  intro s hs
  simp [quotedOf, hs]

theorem Fits.tail {k key : Str} {value : Tree} {kv : List (Str × Tree)}
    (h : Fits k (quotedOf ((key, value) :: kv))) : Fits k (quotedOf kv) := by
  apply h.mono
  intro s hs
  simp [quotedOf, hs]

theorem Fits.quiet_after {k : Str} {kv : List (Str × Tree)} {post : Str}
    (h : Fits k (quotedOf kv)) (hpost : Apart k ∨ Quiet post) : Apart k ∨ Quiet (after kv post) := by
  rcases h.apart with hk | hall
  · exact .inl hk
  · exact hpost.imp_right (NestedObjects.quiet_after kv hall)

theorem Fits.quiet_text {k : Str} {t : Tree} {post : Str}
    (h : Fits k t.quoted) (hpost : Apart k ∨ Quiet post) : Apart k ∨ Quiet (t.text ++ post) := by
  rcases h.apart with hk | hall
  · exact .inl hk
  · exact hpost.imp_right (NestedObjects.quiet_text t hall)

theorem behind_after (k : Str) (kv : List (Str × Tree)) (post : Str) :
    behind (needle k) (after kv post) = behind (needle k) (inside kv post) := by
  cases kv with
  | nil => rfl
  | cons m kv => exact behind_quoteless (k ++ [34, 58]) [44] _ (by decide)

theorem behind_member {k key : Str} {value : Tree} {kv : List (Str × Tree)} {post : Str}
    (hfits : Fits k (quotedOf ((key, value) :: kv))) (hne : key ≠ k)
    (hpost : Apart k ∨ Quiet post) :
    behind (needle k) (inside ((key, value) :: kv) post) =
      behind (needle k) (value.text ++ after kv post) := by
  have hopen : ¬needle k <+: 34 :: (key ++ 34 :: 58 :: (value.text ++ after kv post)) := by
    intro hfront
    have hkeys := (List.cons_prefix_cons.mp hfront).2
    exact hne ((quoteless_split hfits.key hfits.head).mp hkeys).1.symm
  have hquiet : Apart k ∨ Quiet (value.text ++ after kv post) :=
    hfits.value.quiet_text (hfits.tail.quiet_after hpost)
  have hclose : ¬needle k <+: 34 :: 58 :: (value.text ++ after kv post) :=
    not_needle_closing hfits.key (.inl rfl) hquiet
  have hcolon : behind (needle k) (58 :: (value.text ++ after kv post)) =
      behind (needle k) (value.text ++ after kv post) := behind_quoteless _ [58] _ (by decide)
  rw [inside_cons, behind_cons_of_not _ _ _ hopen, needle, behind_quoteless _ key _ hfits.head,
    ← needle, behind_cons_of_not _ _ _ hclose, hcolon]

theorem behind_string {k s post : Str} (hfits : Fits k [s]) (hstop : Stops post)
    (hpost : Apart k ∨ Quiet post) :
    behind (needle k) ((Tree.str s).text ++ post) = behind (needle k) post := by
  have hs : Quoteless s := hfits.quoteless s List.mem_cons_self
  obtain ⟨c, tail, rfl⟩ : ∃ c tail, post = c :: tail := by
    cases post with
    | nil => rcases hstop with h | h <;> cases h
    | cons c tail => exact ⟨c, tail, rfl⟩
  have hc : c = 44 ∨ c = 125 := hstop.imp Option.some.inj Option.some.inj
  have hopen : ¬needle k <+: 34 :: (s ++ 34 :: c :: tail) := by
    intro hfront
    have hstring := (List.cons_prefix_cons.mp hfront).2
    have hcolon := ((quoteless_split hfits.key hs).mp hstring).2
    rw [← (List.cons_prefix_cons.mp hcolon).1] at hc
    exact absurd hc (by decide)
  have hquiet : ¬needle k <+: 34 :: c :: tail := by
    rcases hpost with hk | hq
    · exact hk.not_needle (.inr hc)
    · exact hq.not_needle hfits.key
  rw [text_str, behind_cons_of_not _ _ _ hopen, needle, behind_quoteless _ s _ hs, ← needle,
    behind_cons_of_not _ _ _ hquiet]

theorem behind_open (k : Str) (kv : List (Str × Tree)) (post : Str) :
    behind (needle k) ((Tree.obj kv).text ++ post) = behind (needle k) (inside kv post) := by
  rw [text_obj]
  exact behind_quoteless (k ++ [34, 58]) [123] _ (by decide)

mutual

theorem behind_text {k : Str} (t : Tree) (post : Str) (hfits : Fits k t.quoted)
    (hkeys : k ∉ t.keys) (hstop : Stops post) (hpost : Apart k ∨ Quiet post) :
    behind (needle k) (t.text ++ post) = behind (needle k) post := by
  match t with
  | .str s => exact behind_string hfits hstop hpost
  | .num n => exact behind_quoteless _ _ _ (not_mem_intText n 34 (.inl (by decide)))
  | .obj kv => exact (behind_open k kv post).trans (behind_inside kv post hfits hkeys hpost)

theorem behind_inside {k : Str} (kv : List (Str × Tree)) (post : Str)
    (hfits : Fits k (quotedOf kv)) (hkeys : k ∉ keysOf kv) (hpost : Apart k ∨ Quiet post) :
    behind (needle k) (inside kv post) = behind (needle k) post := by
  match kv with
  | [] => exact behind_quoteless (k ++ [34, 58]) [125] post (by decide)
  | (key, value) :: kv =>
      obtain ⟨hne, hvalue, htail⟩ : k ≠ key ∧ k ∉ value.keys ∧ k ∉ keysOf kv := by
        simpa [keysOf] using hkeys
      rw [behind_member hfits hne.symm hpost,
        behind_text value (after kv post) hfits.value hvalue (stops_after kv post)
          (hfits.tail.quiet_after hpost),
        behind_after, behind_inside kv post hfits.tail htail hpost]

end

theorem fieldValue_quoted {s : Str} (post : Str) (hs : Quoteless s) :
    fieldValue (34 :: (s ++ 34 :: post)) = s := by
  have hfirst : ¬[34] <:+: (s ++ [34]).dropLast := by
    intro hinfix
    have hmem : (34 : UInt8) ∈ (s ++ [34]).dropLast := hinfix.subset List.mem_cons_self
    rw [List.dropLast_concat] at hmem
    exact hs hmem
  have hfind : find [34] (s ++ 34 :: post) = some s.length :=
    find_first post (List.cons_ne_nil 34 []) hfirst
  rw [fieldValue, hfind]
  exact List.take_left

theorem fieldValue_bare {s post : Str} (hquote : 34 ∉ s) (hcomma : 44 ∉ s) (hbrace : 125 ∉ s)
    (hstop : Stops post) : fieldValue (s ++ post) = s := by
  have hall : ∀ c ∈ s, (c != 44 && c != 125) = true := by
    intro c hc
    have hne : c ≠ 44 := fun heq => hcomma (heq ▸ hc)
    have hne' : c ≠ 125 := fun heq => hbrace (heq ▸ hc)
    simp [hne, hne']
  obtain ⟨c, tail, rfl⟩ : ∃ c tail, post = c :: tail := by
    cases post with
    | nil => rcases hstop with h | h <;> cases h
    | cons c tail => exact ⟨c, tail, rfl⟩
  have hc : c = 44 ∨ c = 125 := hstop.imp Option.some.inj Option.some.inj
  have hend : (c :: tail).takeWhile (fun c => c != 44 && c != 125) = [] := by
    rcases hc with rfl | rfl <;> rfl
  have hbare : fieldValue (s ++ c :: tail) =
      (s ++ c :: tail).takeWhile fun c => c != 44 && c != 125 := by
    cases s with
    | nil => rcases hc with rfl | rfl <;> rfl
    | cons d s =>
        have hd : d ≠ 34 := fun heq => hquote (heq ▸ List.mem_cons_self)
        rw [List.cons_append, fieldValue]
        simpa using hd
  rw [hbare, List.takeWhile_append_of_pos hall, hend, List.append_nil]

theorem fieldValue_text {t : Tree} {content post : Str} (h : t.content = some content)
    (hquoted : ∀ s ∈ t.quoted, Quoteless s) (hstop : Stops post) :
    fieldValue (t.text ++ post) = content := by
  cases t with
  | str s =>
      obtain rfl := Option.some.inj h
      rw [text_str]
      exact fieldValue_quoted post (hquoted s List.mem_cons_self)
  | num n =>
      obtain rfl := Option.some.inj h
      exact fieldValue_bare (not_mem_intText n 34 (.inl (by decide)))
        (not_mem_intText n 44 (.inl (by decide))) (not_mem_intText n 125 (.inr (by decide))) hstop
  | obj kv => cases h

section Members

def look (key : Str) (kv : List (Str × Str)) : Str :=
  ((behind (needle key) (members kv ++ [125])).map fieldValue).getD []

theorem get_obj (key : Str) (kv : List (Str × Str)) : get (obj kv) key = look key kv := by
  have hopen : ¬needle key <+: 123 :: (members kv ++ [125]) := by
    intro hfront
    exact absurd (List.cons_prefix_cons.mp hfront).1 (by decide)
  have hobj : obj kv = 123 :: (members kv ++ [125]) := rfl
  rw [get_eq, hobj, behind_cons_of_not _ _ _ hopen, look]

theorem look_nil (key : Str) : look key [] = [] := by
  rw [look]
  show ((behind (needle key) [125]).map fieldValue).getD [] = []
  rw [behind_closing]
  rfl

theorem fieldValue_flat {value content : Str} (h : Flat value content) (kv : List (Str × Str)) :
    fieldValue (value ++ rest kv) = content := by
  have hstop : Stops (rest kv) := by
    cases kv with
    | nil => exact .inr rfl
    | cons m kv => exact .inl rfl
  cases h with
  | quoted s h =>
      have htext : WireJson.str content ++ rest kv = 34 :: (content ++ 34 :: rest kv) := by
        show ([34] ++ content ++ [34]) ++ rest kv = _
        simp
      rw [htext]
      exact fieldValue_quoted (rest kv) h
  | bare s h hcomma hbrace => exact fieldValue_bare h hcomma hbrace hstop

theorem look_plain {k key value content : Str} (kv : List (Str × Str)) (hk : Plain k)
    (hkey : Quoteless key) (hflat : Flat value content) :
    look k ((key, value) :: kv) = if key = k then content else look k kv := by
  rw [look, behind_entry kv hk.1 hkey hflat (hk.not_colon _) (hk.not_rest kv)]
  split
  · rw [Option.map_some, Option.getD_some, fieldValue_flat hflat]
  · rfl

end Members

theorem scalarsOf_cons {k content key : Str} {value : Tree} {kv : List (Str × Tree)} :
    (k, content) ∈ scalarsOf ((key, value) :: kv) ↔
      (k = key ∧ value.content = some content) ∨ (k, content) ∈ value.scalars ∨
        (k, content) ∈ scalarsOf kv := by
  have hown : (k, content) ∈ value.content.toList.map (key, ·) ↔
      k = key ∧ value.content = some content := by
    rw [List.mem_map]
    constructor
    · rintro ⟨own, hown, heq⟩
      obtain ⟨rfl, rfl⟩ := Prod.mk.inj heq
      exact ⟨rfl, Option.mem_toList.mp hown⟩
    · rintro ⟨rfl, hcontent⟩
      exact ⟨content, Option.mem_toList.mpr hcontent, rfl⟩
  rw [scalarsOf, List.mem_append, List.mem_append, hown]

mutual

theorem mem_keys_of_scalar {k content : Str} (t : Tree) (h : (k, content) ∈ t.scalars) :
    k ∈ t.keys := by
  match t with
  | .str s => cases h
  | .num n => cases h
  | .obj kv => exact mem_keysOf_of_scalar kv h

theorem mem_keysOf_of_scalar {k content : Str} (kv : List (Str × Tree))
    (h : (k, content) ∈ scalarsOf kv) : k ∈ keysOf kv := by
  match kv with
  | [] => cases h
  | (key, value) :: kv =>
      rcases scalarsOf_cons.mp h with ⟨rfl, _⟩ | hvalue | htail
      · simp [keysOf]
      · simp [keysOf, mem_keys_of_scalar value hvalue]
      · simp [keysOf, mem_keysOf_of_scalar kv htail]

end

mutual

/-- A lookup ends at the scalar that has the key, wherever it is nested. -/
theorem found_text {k content : Str} (t : Tree) (post : Str) (hfits : Fits k t.quoted)
    (hkeys : t.keys.Nodup) (hpost : Apart k ∨ Quiet post) (h : (k, content) ∈ t.scalars) :
    (behind (needle k) (t.text ++ post)).map fieldValue = some content := by
  match t with
  | .str s => cases h
  | .num n => cases h
  | .obj kv =>
      rw [behind_open]
      exact found_inside kv post hfits hkeys hpost h

theorem found_inside {k content : Str} (kv : List (Str × Tree)) (post : Str)
    (hfits : Fits k (quotedOf kv)) (hkeys : (keysOf kv).Nodup) (hpost : Apart k ∨ Quiet post)
    (h : (k, content) ∈ scalarsOf kv) :
    (behind (needle k) (inside kv post)).map fieldValue = some content := by
  match kv with
  | [] => cases h
  | (key, value) :: kv =>
      rw [keysOf, List.nodup_cons, List.nodup_append, List.mem_append, not_or] at hkeys
      obtain ⟨⟨hinner, houter⟩, hvalue, htail, hdisjoint⟩ := hkeys
      have hafter := hfits.tail.quiet_after hpost
      rcases scalarsOf_cons.mp h with ⟨rfl, hcontent⟩ | hscalar | hscalar
      · have hsplit : inside ((k, value) :: kv) post = needle k ++ (value.text ++ after kv post) := by
          rw [inside_cons]
          simp [needle]
        rw [hsplit, needle, behind_front, Option.map_some,
          fieldValue_text hcontent hfits.value.quoteless (stops_after kv post)]
      · have hk : k ∈ value.keys := mem_keys_of_scalar value hscalar
        rw [behind_member hfits (fun heq => hinner (heq ▸ hk)) hpost]
        exact found_text value (after kv post) hfits.value hvalue hafter hscalar
      · have hk : k ∈ keysOf kv := mem_keysOf_of_scalar kv hscalar
        rw [behind_member hfits (fun heq => houter (heq ▸ hk)) hpost,
          behind_text value (after kv post) hfits.value (fun hmem => hdisjoint k hmem k hk rfl)
            (stops_after kv post) hafter,
          behind_after]
        exact found_inside kv post hfits.tail htail hpost hscalar

end

theorem get_rendered (kv : List (Str × Tree)) (k : Str) :
    get (obj (rendered kv)) k = ((behind (needle k) (inside kv [])).map fieldValue).getD [] := by
  have htext : obj (rendered kv) = (Tree.obj kv).text ++ [] := (List.append_nil _).symm
  rw [get_eq, htext, behind_open]

/-- Scalars are read back at any depth and other keys are not found, except that a key that starts
like what follows a quote needs a tree in which no key and no string has a leading colon. -/
theorem get_tree (kv : List (Str × Tree)) (k : Str) (hkeys : (keysOf kv).Nodup)
    (hquoted : ∀ s ∈ quotedOf kv, Quoteless s) (hk : Quoteless k)
    (hapart : Apart k ∨ ∀ s ∈ quotedOf kv, Colonless s) :
    (∀ content, (k, content) ∈ scalarsOf kv → get (obj (rendered kv)) k = content) ∧
      (k ∉ keysOf kv → get (obj (rendered kv)) k = []) := by
  have hfits : Fits k (quotedOf kv) := ⟨hk, hquoted, hapart⟩
  have hend : Apart k ∨ Quiet [] := .inr quiet_nil
  constructor
  · intro content h
    rw [get_rendered, found_inside kv [] hfits hkeys hend h]
    rfl
  · intro h
    rw [get_rendered, behind_inside kv [] hfits h hend]
    rfl

/-- The answer to a registration, read for the code in the nested object. -/
theorem response_code_read_back :
    get (obj (rendered [(lit "type", .str (lit "RegistrationResponse")),
      (lit "cbsdId", .str (lit "CBSD-\x7b0,1\x7d:")),
      (lit "response", .obj [(lit "responseCode", .num 0)])])) (lit "responseCode") = lit "0" :=
  (get_tree [(lit "type", .str (lit "RegistrationResponse")),
    (lit "cbsdId", .str (lit "CBSD-\x7b0,1\x7d:")),
    (lit "response", .obj [(lit "responseCode", .num 0)])] (lit "responseCode")
    (by decide) (by decide) (by decide) (.inl (by decide))).1 (lit "0") (by decide)

/-- A colon between two quotes, and the text between two quotes, pass for keys. -/
theorem other_keys_found :
    (¬∀ (kv : List (Str × Tree)) (k : Str), (keysOf kv).Nodup → (∀ s ∈ quotedOf kv, Quoteless s) →
        Quoteless k → k ∉ keysOf kv → get (obj (rendered kv)) k = []) ∧
      ¬∀ (kv : List (Str × Tree)) (k : Str), (keysOf kv).Nodup →
        (∀ s ∈ quotedOf kv, Quoteless s ∧ Colonless s) → k ∉ keysOf kv →
          get (obj (rendered kv)) k = [] := by
  constructor
  · intro h
    have hcolon := h [(lit "a", .str (lit ":b"))] (lit ":") (by decide) (by decide) (by decide)
      (by decide)
    exact absurd hcolon (by decide)
  · intro h
    have hmembers := h [(lit "a", .str (lit "b")), (lit "c", .num 1)] (lit "a\":\"b\",\"c")
      (by decide) (by decide) (by decide)
    exact absurd hmembers (by decide)

end MobileCore.NestedObjects
