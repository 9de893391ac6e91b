import Mathlib.Algebra.Group.Nat.Defs
import MachineBundle.Source.Plan
import MachineBundle.Text.LetterCase

/-!
# Plain names

Names of ASCII letters, digits and low lines pass through sources and files unchanged: they hold no blank, no
separator and no line end, and they stay plain in upper and lower case.
-/

namespace MachineBundle.Text

/-! ## Deciding

Whether all characters of a text are of some kind is decided by going through the text, also where there is a way
through all characters. -/

instance (priority := 2000) decidableForallMem {α : Type} (p : α → Prop) [DecidablePred p] (l : List α) :
    Decidable (∀ a ∈ l, p a) :=
  List.decidableBAll p l

instance (priority := 2000) decidableForallMemOption {α : Type} (p : α → Prop) [DecidablePred p] (o : Option α) :
    Decidable (∀ a ∈ o, p a) :=
  Option.decidableForallMem o

/-! ## Plain characters -/

/-- An ASCII letter or digit, or the low line. -/
def isPlain (c : Char) : Bool :=
  c.isAlphanum || c == '_'

/-- A text that can be a part of identifiers in sources. -/
def PlainText (s : String) : Prop :=
  ∀ c ∈ s.toList, isPlain c = true

instance (s : String) : Decidable (PlainText s) :=
  inferInstanceAs (Decidable (∀ c ∈ s.toList, isPlain c = true))

theorem isPlain_lt {c : Char} (h : isPlain c = true) : c.toNat < 128 := by
  have hc : (decide (c.val ≥ 65 ∧ c.val ≤ 90) || (decide (c.val ≥ 97) && decide (c.val ≤ 122)) ||
      (decide (c.val ≥ 48) && decide (c.val ≤ 57)) || c == '_') = true := h
  simp only [Bool.or_eq_true, Bool.and_eq_true, decide_eq_true_eq, beq_iff_eq, ge_iff_le,
    UInt32.le_iff_toNat_le] at hc
  change (((65 ≤ c.toNat ∧ c.toNat ≤ 90) ∨ 97 ≤ c.toNat ∧ c.toNat ≤ 122) ∨
    48 ≤ c.toNat ∧ c.toNat ≤ 57) ∨ c = '_' at hc
  rcases hc with hc | rfl
  · omega
  · decide

/-- What holds of the plain characters among the first 128 holds of all of them. -/
theorem of_isPlain {P : Char → Bool}
    (hP : (List.range 128).all (fun n => !isPlain (Char.ofNat n) || P (Char.ofNat n)) = true) {c : Char}
    (h : isPlain c = true) : P c = true := by
  have hc : Char.ofNat c.toNat = c := Char.ofNat_toNat c
  have hn := List.all_eq_true.mp hP c.toNat (List.mem_range.mpr (isPlain_lt h))
  simpa [hc, h] using hn

theorem isBlank_of_isPlain {c : Char} (h : isPlain c = true) : isBlank c = false := by
  have hb : (!isBlank c) = true := of_isPlain (P := fun c => !isBlank c) (by decide) h
  simpa using hb

theorem isLineBoundary_of_isPlain {c : Char} (h : isPlain c = true) : isLineBoundary c = false := by
  have hb : (!isLineBoundary c) = true := of_isPlain (P := fun c => !isLineBoundary c) (by decide) h
  simpa using hb

theorem isWordChar_of_isPlain {c : Char} (h : isPlain c = true) : isWordChar c = true :=
  of_isPlain (P := isWordChar) (by decide) h

theorem isPlain_of_isDigit {c : Char} (h : c.isDigit = true) : isPlain c = true := by
  simp [isPlain, Char.isAlphanum, h]

/-! ## Letter case -/

theorem isPlain_mapCase_upper {c : Char} (h : isPlain c = true) :
    (mapCase upperRuns upperExpansions c).all isPlain = true :=
  of_isPlain (P := fun c => (mapCase upperRuns upperExpansions c).all isPlain) (by decide +kernel) h

theorem isPlain_mapCase_lower {c : Char} (h : isPlain c = true) :
    (mapCase lowerRuns lowerExpansions c).all isPlain = true :=
  of_isPlain (P := fun c => (mapCase lowerRuns lowerExpansions c).all isPlain) (by decide +kernel) h

theorem isPlain_lowerAfter {cs : List Char} (h : ∀ c ∈ cs, isPlain c = true) (before : List Char) :
    ∀ c ∈ lowerAfter before cs, isPlain c = true := by
  induction cs generalizing before with
  | nil => simp [lowerAfter]
  | cons c r ih =>
    have hc := h c List.mem_cons_self
    have hs : c ≠ 'Σ' := by
      rintro rfl
      exact absurd hc (by decide)
    intro d hd
    simp only [lowerAfter, if_neg hs, List.mem_append] at hd
    rcases hd with hd | hd
    · exact List.all_eq_true.mp (isPlain_mapCase_lower hc) d hd
    · exact ih (fun e he => h e (List.mem_cons_of_mem c he)) _ d hd

namespace PlainText

variable {s : String}

theorem not_mem (h : PlainText s) {c : Char} (hc : isPlain c = false) : c ∉ s.toList := by
  intro hm
  rw [h c hm] at hc
  cases hc

theorem append {t : String} (hs : PlainText s) (ht : PlainText t) : PlainText (s ++ t) := by
  intro c hc
  rw [String.toList_append, List.mem_append] at hc
  exact hc.elim (hs c) (ht c)

theorem isBlank (h : PlainText s) : ∀ c ∈ s.toList, Text.isBlank c = false :=
  fun c hc => isBlank_of_isPlain (h c hc)

theorem lower (h : PlainText s) : PlainText (Text.lower s) := by
  intro c hc
  rw [Text.lower, String.toList_ofList] at hc
  exact isPlain_lowerAfter h [] c hc

theorem upper (h : PlainText s) : PlainText (Text.upper s) := by
  intro c hc
  rw [Text.upper, String.toList_ofList] at hc
  obtain ⟨d, hd, hc⟩ := List.mem_flatMap.mp hc
  exact List.all_eq_true.mp (isPlain_mapCase_upper (h d hd)) c hc

theorem constantName (h : PlainText s) : PlainText (Source.constantName s) := by
  refine upper fun c hc => ?_
  rw [String.toList_ofList] at hc
  obtain ⟨d, hd, rfl⟩ := List.mem_map.mp hc
  split
  · exact h d hd
  · rfl

end PlainText

/-! ## Numbers -/

theorem toList_toString (n : Nat) : (toString n).toList = Nat.toDigits 10 n :=
  Nat.toList_repr

theorem toString_natCast (n : Nat) : toString (n : Int) = toString n := rfl

theorem isDigit_of_mem_toString {n : Nat} {c : Char} (h : c ∈ (toString n).toList) : c.isDigit = true := by
  rw [toList_toString] at h
  exact Nat.isDigit_of_mem_toDigits (by decide) (by decide) h

theorem toString_ne_nil (n : Nat) : (toString n).toList ≠ [] := by
  rw [toList_toString]
  exact Nat.toDigits_ne_nil

theorem PlainText.ofNat (n : Nat) : PlainText (toString n) :=
  fun _ hc => isPlain_of_isDigit (isDigit_of_mem_toString hc)

theorem toString_injective {m n : Nat} (h : (toString m).toList = (toString n).toList) : m = n := by
  rw [toList_toString, toList_toString] at h
  rw [← Nat.ofDigitChars_ten_toDigits (n := m), h, Nat.ofDigitChars_ten_toDigits]

theorem length_toString_le {n k : Nat} (hk : 0 < k) : (toString n).toList.length ≤ k ↔ n < 10 ^ k := by
  rw [toList_toString]
  exact Nat.length_toDigits_le_iff (by decide) hk

end MachineBundle.Text
