import MachineBundle.Proofs.Text.Records
import MachineBundle.Tree.Basic

/-!
# Line ends

Content with its line feeds spelled in another way is the same text. If it was no text it still is none.
-/

namespace MachineBundle

/-! ## Replacing -/

section Replaced

variable {α : Type} [DecidableEq α] {a b : α} {as bs l : List α}

/-- A list with another list wherever `a` stands. -/
def replaced (a : α) (as l : List α) : List α :=
  l.flatMap fun b => if b = a then as else [b]

theorem replaced_cons_self (a : α) (as l : List α) : replaced a as (a :: l) = as ++ replaced a as l := by
  simp [replaced]

theorem replaced_cons_of_ne (h : b ≠ a) (as l : List α) : replaced a as (b :: l) = b :: replaced a as l := by
  simp [replaced, h]

theorem replaced_append (a : α) (as l l' : List α) : replaced a as (l ++ l') = replaced a as l ++ replaced a as l' :=
  List.flatMap_append

theorem replaced_of_not_mem (h : a ∉ l) : replaced a as l = l := by
  induction l with
  | nil => rfl
  | cons b l ih =>
    obtain ⟨hb, hl⟩ := List.ne_and_not_mem_of_not_mem_cons h
    rw [replaced_cons_of_ne hb.symm, ih hl]

theorem not_mem_replaced (h : a ∉ as) (l : List α) : a ∉ replaced a as l := by
  intro hmem
  obtain ⟨b, -, hb⟩ := List.mem_flatMap.mp hmem
  split at hb
  · exact h hb
  · rename_i hne
    exact hne (List.mem_singleton.mp hb).symm

theorem replaced_self (a : α) (l : List α) : replaced a [a] l = l := by
  induction l with
  | nil => rfl
  | cons b l ih =>
    by_cases hb : b = a
    · rw [hb, replaced_cons_self, ih, List.singleton_append]
    · rw [replaced_cons_of_ne hb, ih]

/-- What has been put in the place of `a` leads back to it. -/
theorem replaced_back (h : b ∉ l) (hback : replaced b bs as = [a]) : replaced b bs (replaced a as l) = l := by
  induction l with
  | nil => rfl
  | cons c l ih =>
    obtain ⟨hc, hl⟩ := List.ne_and_not_mem_of_not_mem_cons h
    by_cases hca : c = a
    · rw [hca, replaced_cons_self, replaced_append, hback, ih hl, List.singleton_append]
    · rw [replaced_cons_of_ne hca, replaced_cons_of_ne hc.symm, ih hl]

end Replaced

namespace Text

/-! ## Characters of one byte -/

theorem utf8EncodeChar_inj {c d : Char} (h : String.utf8EncodeChar c = String.utf8EncodeChar d) : c = d := by
  have hencode : [c].utf8Encode = [d].utf8Encode := by
    rw [List.utf8Encode_singleton, List.utf8Encode_singleton, h]
  rw [← String.toByteArray_ofList, ← String.toByteArray_ofList, String.toByteArray_inj, String.ofList_inj] at hencode
  exact List.singleton_inj.mp hencode

theorem le_or_right (x y : UInt8) : y ≤ x ||| y := by
  rw [UInt8.le_iff_toNat_le, UInt8.toNat_or]
  exact Nat.right_le_or

/-- A byte that spells a character alone is part of no other one. -/
theorem not_mem_utf8EncodeChar {c d : Char} {b : UInt8} (hc : String.utf8EncodeChar c = [b]) (hb : b < 0x80)
    (h : d ≠ c) : b ∉ String.utf8EncodeChar d := by
  -- all bytes of a character with more than one have their highest bit set
  have hlarge : ∀ x y : UInt8, 0x80 ≤ y → b ≠ x ||| y := by
    rintro x y hy rfl
    exact absurd (UInt8.le_trans hy (le_or_right x y)) (UInt8.not_le.mpr hb)
  intro hmem
  rcases d.utf8Size_eq with hd | hd | hd | hd
  · rw [String.utf8EncodeChar_eq_singleton hd, List.mem_singleton] at hmem
    exact h (utf8EncodeChar_inj (by rw [hc, String.utf8EncodeChar_eq_singleton hd, hmem]))
  · simp [String.utf8EncodeChar_eq_cons_cons hd, hlarge] at hmem
  · simp [String.utf8EncodeChar_eq_cons_cons_cons hd, hlarge] at hmem
  · simp [String.utf8EncodeChar_eq_cons_cons_cons_cons hd, hlarge] at hmem

theorem replaced_flatMap_utf8EncodeChar {c : Char} {b : UInt8} (hc : String.utf8EncodeChar c = [b]) (hb : b < 0x80)
    (cs ds : List Char) :
    replaced b (cs.flatMap String.utf8EncodeChar) (ds.flatMap String.utf8EncodeChar) =
      (replaced c cs ds).flatMap String.utf8EncodeChar := by
  induction ds with
  | nil => rfl
  | cons d ds ih =>
    rw [List.flatMap_cons, replaced_append, ih]
    by_cases hd : d = c
    · rw [hd, hc, replaced_cons_self, replaced_cons_self, List.flatMap_append]
      simp [replaced]
    · rw [replaced_of_not_mem (not_mem_utf8EncodeChar hc hb hd), replaced_cons_of_ne hd, List.flatMap_cons]

/-- Content with a byte replaced that spells a character alone. -/
def replacedBytes (b : UInt8) (bs : List UInt8) (content : ByteArray) : ByteArray :=
  (replaced b bs content.data.toList).toByteArray

theorem replacedBytes_utf8Encode {c : Char} {b : UInt8} (hc : String.utf8EncodeChar c = [b]) (hb : b < 0x80)
    (cs ds : List Char) :
    replacedBytes b (cs.flatMap String.utf8EncodeChar) ds.utf8Encode = (replaced c cs ds).utf8Encode := by
  rw [replacedBytes, List.utf8Encode, List.toList_data_toByteArray, replaced_flatMap_utf8EncodeChar hc hb, List.utf8Encode]

/-! ## Spellings of line ends -/

inductive LineEnd where
  | lf
  | crlf
  | cr
  deriving DecidableEq, Repr

namespace LineEnd

def chars : LineEnd → List Char
  | lf => ['\n']
  | crlf => ['\r', '\n']
  | cr => ['\r']

def bytes (e : LineEnd) : List UInt8 :=
  e.chars.flatMap String.utf8EncodeChar

end LineEnd

/-- Content with its line feeds spelled in some way. -/
def respelled (e : LineEnd) (content : ByteArray) : ByteArray :=
  replacedBytes 0x0A e.bytes content

theorem replacedBytes_self (b : UInt8) (content : ByteArray) : replacedBytes b [b] content = content := by
  rw [replacedBytes, replaced_self]
  exact ByteArray.ext (by simp)

theorem respelled_lf (content : ByteArray) : respelled .lf content = content :=
  replacedBytes_self 0x0A content

theorem respelled_utf8Encode (e : LineEnd) (cs : List Char) :
    respelled e cs.utf8Encode = (replaced '\n' e.chars cs).utf8Encode :=
  replacedBytes_utf8Encode (by decide) (by decide) e.chars cs

/-- Where there was no carriage return, the carriage returns lead back. -/
theorem exists_respelled_back {e : LineEnd} {content : ByteArray} (h : e ≠ .lf → 0x0D ∉ content.data.toList) :
    ∃ cs : List Char, replacedBytes 0x0D (cs.flatMap String.utf8EncodeChar) (respelled e content) = content := by
  have hback : ∀ bs, 0x0D ∉ content.data.toList → replaced 0x0D bs e.bytes = [0x0A] →
      replacedBytes 0x0D bs (respelled e content) = content := by
    intro bs hreturn hbytes
    rw [replacedBytes, respelled, replacedBytes, List.toList_data_toByteArray, replaced_back hreturn hbytes]
    exact ByteArray.ext (by simp)
  cases e with
  | lf => exact ⟨['\r'], by rw [respelled_lf]; exact replacedBytes_self 0x0D content⟩
  | crlf => exact ⟨[], hback _ (h (by decide)) (by decide)⟩
  | cr => exact ⟨['\n'], hback _ (h (by decide)) (by decide)⟩

theorem isValidUTF8_respelled_iff {e : LineEnd} {content : ByteArray} (h : e ≠ .lf → 0x0D ∉ content.data.toList) :
    (respelled e content).IsValidUTF8 ↔ content.IsValidUTF8 := by
  constructor
  · -- replacing carriage returns in a text makes a text, and here it makes the content
    rintro ⟨ds, hds⟩
    obtain ⟨cs, hback⟩ := exists_respelled_back h
    refine ⟨replaced '\r' cs ds, ?_⟩
    rw [← hback, hds]
    exact replacedBytes_utf8Encode (by decide) (by decide) cs ds
  · rintro ⟨ds, rfl⟩
    exact ⟨_, respelled_utf8Encode e ds⟩

theorem unifyBreaks_cons {c : Char} (hc : c ≠ '\r') (cs : List Char) : unifyBreaks (c :: cs) = c :: unifyBreaks cs := by
  rw [unifyBreaks]
  · rintro _ rfl
    exact absurd rfl hc
  · exact hc

theorem unifyBreaks_return {cs : List Char} (h : '\n' ∉ cs) : unifyBreaks ('\r' :: cs) = '\n' :: unifyBreaks cs := by
  rw [unifyBreaks]
  rintro _ rfl
  exact h List.mem_cons_self

theorem unifyBreaks_replaced (e : LineEnd) {cs : List Char} (h : '\r' ∉ cs) :
    unifyBreaks (replaced '\n' e.chars cs) = cs := by
  induction cs with
  | nil => rfl
  | cons c cs ih =>
    obtain ⟨hc, hcs⟩ := List.ne_and_not_mem_of_not_mem_cons h
    by_cases hbreak : c = '\n'
    · rw [hbreak, replaced_cons_self]
      cases e with
      | lf => exact congrArg _ (ih hcs)
      | crlf => exact congrArg _ (ih hcs)
      -- a lone return is one only if no line feed comes next, and none is left
      | cr => exact (unifyBreaks_return (not_mem_replaced (by decide) cs)).trans (congrArg _ (ih hcs))
    · rw [replaced_cons_of_ne hbreak, unifyBreaks_cons hc.symm, ih hcs]

theorem textOf_utf8Encode (cs : List Char) : Tree.textOf cs.utf8Encode = .ok (String.ofList (unifyBreaks cs)) := by
  have hdecode : decode cs.utf8Encode = .ok (String.ofList cs) := by
    rw [← decode_encode (String.ofList cs), encode, String.toUTF8_eq_toByteArray, String.toByteArray_ofList]
  simp [Tree.textOf, hdecode]

theorem textOf_of_not_isValidUTF8 {content : ByteArray} (h : ¬content.IsValidUTF8) :
    ∃ m, Tree.textOf content = .error (.malformed m) := by
  simp [Tree.textOf, decode, String.fromUTF8?, h]

/-- Text that has been spelled with other line ends is read as the same text; what is no text still is none. -/
theorem textOf_respelled {e : LineEnd} {content : ByteArray} (h : e ≠ .lf → 0x0D ∉ content.data.toList) :
    Tree.textOf (respelled e content) = Tree.textOf content ∨
      ∃ m m', Tree.textOf content = .error (.malformed m) ∧
        Tree.textOf (respelled e content) = .error (.malformed m') := by
  by_cases hvalid : content.IsValidUTF8
  · left
    obtain ⟨cs, rfl⟩ := hvalid
    by_cases he : e = .lf
    · rw [he, respelled_lf]
    · have hreturn : '\r' ∉ cs := by
        intro hmem
        refine h he ?_
        rw [List.utf8Encode, List.toList_data_toByteArray]
        exact List.mem_flatMap.mpr ⟨'\r', hmem, by decide⟩
      rw [respelled_utf8Encode, textOf_utf8Encode, textOf_utf8Encode, unifyBreaks_replaced e hreturn,
        unifyBreaks_of_not_mem hreturn]
  · obtain ⟨m, hm⟩ := textOf_of_not_isValidUTF8 hvalid
    obtain ⟨m', hm'⟩ := textOf_of_not_isValidUTF8 (mt (isValidUTF8_respelled_iff h).mp hvalid)
    exact .inr ⟨m, m', hm, hm'⟩

end Text

end MachineBundle
