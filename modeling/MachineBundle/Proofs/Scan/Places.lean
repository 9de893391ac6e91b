import Mathlib.Data.Nat.SuccPred
import MachineBundle.Proofs.Scan.Match

/-!
# Where patterns match

Places of a text are counted from its beginning. A search stops at the first place where a match begins. A match that
may pass over the rest of a line goes on from the last place of the line where its other parts match.
-/

namespace MachineBundle.Scan

variable {held ds text word : List Char} {ps : Pattern} {p q : Nat}

/-- The number of the line of a place: how many line ends come before it. -/
def lineOf (text : List Char) (p : Nat) : Nat :=
  (text.take p).count '\n'

/-- A word begins at a place. -/
def WordAt (word text : List Char) (p : Nat) : Prop :=
  word <+: text.drop p

/-! ## Lines -/

theorem lineOf_eq_iff (h : p ≤ q) : lineOf text q = lineOf text p ↔ '\n' ∉ (text.drop p).take (q - p) := by
  have hq : text.take q = text.take p ++ (text.drop p).take (q - p) := by
    rw [← List.take_add, Nat.add_sub_cancel' h]
  rw [lineOf, lineOf, hq, List.count_append, Nat.add_eq_left, List.count_eq_zero]

/-- A stretch without a line end stays on its line. -/
theorem lineOf_add_length {x y : List Char} (h : text.drop p = x ++ y) (hx : '\n' ∉ x) :
    lineOf text (p + x.length) = lineOf text p := by
  rw [lineOf_eq_iff (Nat.le_add_right _ _), h]
  simpa using hx

theorem drop_add_length {x y : List Char} (h : text.drop p = x ++ y) : text.drop (p + x.length) = y := by
  rw [← List.drop_drop, h, List.drop_left]

/-- Two places of a line are a stretch without a line end apart. -/
theorem exists_stretch (h : p ≤ q) (hl : lineOf text q = lineOf text p) :
    ∃ x, text.drop p = x ++ text.drop q ∧ '\n' ∉ x := by
  refine ⟨(text.drop p).take (q - p), ?_, (lineOf_eq_iff h).mp hl⟩
  have hq : text.drop q = (text.drop p).drop (q - p) := by rw [List.drop_drop, Nat.add_sub_cancel' h]
  rw [hq, List.take_append_drop]

/-! ## The rest of a line -/

/-- The places on the rest of the line from which some parts match. -/
def restMatches (held : List Char) (ps : Pattern) (text : List Char) (p : Nat) : Set Nat :=
  {q | p ≤ q ∧ lineOf text q = lineOf text p ∧ (matchHere held ps (text.drop q)).isSome = true}

theorem matchHere_restOfLine_of_isGreatest (hq : IsGreatest (restMatches held ps text p) q)
    (h : matchHere held ps (text.drop q) = some ds) :
    matchHere held (.restOfLine :: ps) (text.drop p) = some ds := by
  obtain ⟨⟨hpq, hline, _⟩, hlast⟩ := hq
  obtain ⟨x, hx, hsame⟩ := exists_stretch hpq hline
  rw [hx]
  refine matchHere_restOfLine hsame h fun v w hvw hv hvline => ?_
  cases hm : matchHere held ps w with
  | none => rfl
  | some ds' =>
    -- the match would begin further on in the line
    have hlater : q + v.length ∈ restMatches held ps text p := by
      refine ⟨by omega, ?_, ?_⟩
      · rw [lineOf_add_length hvw hvline, hline]
      · rw [drop_add_length hvw, hm]
        rfl
    have hle := hlast hlater
    exact absurd (List.length_eq_zero_iff.mp (by omega)) hv

theorem exists_restMatches (h : matchHere held (.restOfLine :: ps) (text.drop p) = some ds) :
    ∃ q ∈ restMatches held ps text p, matchHere held ps (text.drop q) = some ds := by
  obtain ⟨x, y, hxy, hx, hy⟩ := many_eq_some h
  have hline : '\n' ∉ x := fun hm => by simpa using hx _ hm
  rw [← drop_add_length hxy] at hy
  exact ⟨p + x.length, ⟨Nat.le_add_right _ _, lineOf_add_length hxy hline, by rw [hy]; rfl⟩, hy⟩

theorem bddAbove_restMatches (hn : matchHere held ps [] = none) : BddAbove (restMatches held ps text p) := by
  refine ⟨text.length, fun q hq => ?_⟩
  by_contra hlt
  obtain ⟨_, _, hm⟩ := hq
  rw [List.drop_eq_nil_of_le (by omega), hn] at hm
  cases hm

/-- The last place of the line counts from which the parts match. -/
theorem matchHere_restOfLine_eq_some_iff (hn : matchHere held ps [] = none) :
    matchHere held (.restOfLine :: ps) (text.drop p) = some ds ↔
      ∃ q, IsGreatest (restMatches held ps text p) q ∧ matchHere held ps (text.drop q) = some ds := by
  refine ⟨fun h => ?_, fun ⟨q, hq, hm⟩ => matchHere_restOfLine_of_isGreatest hq hm⟩
  obtain ⟨q₀, hq₀, _⟩ := exists_restMatches h
  obtain ⟨q, hq⟩ := (bddAbove_restMatches hn).exists_isGreatest_of_nonempty ⟨q₀, hq₀⟩
  obtain ⟨ds', hm⟩ := Option.isSome_iff_exists.mp hq.1.2.2
  have h' := matchHere_restOfLine_of_isGreatest hq hm
  rw [h, Option.some.injEq] at h'
  exact ⟨q, hq, by rw [hm, h']⟩

theorem matchHere_restOfLine_isSome_iff (hn : matchHere held ps [] = none) :
    (matchHere held (.restOfLine :: ps) (text.drop p)).isSome = true ↔ (restMatches held ps text p).Nonempty := by
  rw [Option.isSome_iff_exists]
  constructor
  · rintro ⟨ds, h⟩
    obtain ⟨q, hq, _⟩ := exists_restMatches h
    exact ⟨q, hq⟩
  · intro hne
    obtain ⟨q, hq⟩ := (bddAbove_restMatches hn).exists_isGreatest_of_nonempty hne
    obtain ⟨ds, hm⟩ := Option.isSome_iff_exists.mp hq.1.2.2
    exact ⟨ds, matchHere_restOfLine_of_isGreatest hq hm⟩

/-! ## Words -/

theorem matchHere_literal_eq_some_iff :
    matchHere held (.literal word :: ps) (text.drop p) = some ds ↔
      WordAt word text p ∧ matchHere held ps (text.drop (p + word.length)) = some ds := by
  constructor
  · intro h
    obtain ⟨rest, hr, hm⟩ := matchHere_literal_eq_some h
    exact ⟨⟨rest, hr.symm⟩, by rwa [drop_add_length hr]⟩
  · rintro ⟨⟨rest, hr⟩, hm⟩
    rw [drop_add_length hr.symm] at hm
    rwa [← hr, matchHere_literal]

theorem matchHere_wordEnd_eq_some_iff :
    matchHere held (.wordEnd :: ps) (text.drop p) = some ds ↔
      (∀ c ∈ text[p]?, Text.isWordChar c = false) ∧ matchHere held ps (text.drop p) = some ds := by
  rw [matchHere, List.head?_drop]
  cases text[p]? with
  | none => simp
  | some c => cases hc : Text.isWordChar c <;> simp [hc]

/-! ## The first match -/

theorem search_of_isLeast (hp : IsLeast {p | (matchHere [] ps (text.drop p)).isSome = true} p)
    (h : matchHere [] ps (text.drop p) = some ds) : search ps text = some ds.reverse := by
  obtain ⟨_, hfirst⟩ := hp
  have hskip := search_append (p := ps) (u := text.take p) (v := text.drop p) fun x y hxy hy => by
    have hdrop : y ++ text.drop p = text.drop x.length := by
      conv_rhs => rw [← List.take_append_drop p text, hxy, List.append_assoc, List.drop_left]
    rw [hdrop]
    by_contra hm
    rw [← ne_eq, ← Option.isSome_iff_ne_none] at hm
    have hlen : x.length + y.length ≤ p := by
      rw [← List.length_append, ← hxy]
      exact List.length_take_le p text
    have hle := hfirst hm
    exact hy (List.length_eq_zero_iff.mp (by omega))
  rw [List.take_append_drop] at hskip
  rw [hskip, search_of_matchHere h]

theorem search_eq_none_of_forall (h : ∀ p, matchHere [] ps (text.drop p) = none) : search ps text = none := by
  refine search_eq_none fun x y hxy => ?_
  have hy := h x.length
  rwa [hxy, List.drop_left] at hy

end MachineBundle.Scan
