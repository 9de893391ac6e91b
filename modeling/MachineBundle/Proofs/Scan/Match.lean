import Mathlib.Data.List.Infix
import Mathlib.Data.List.TakeWhile
import MachineBundle.Proofs.Text.Plain
import MachineBundle.Scan.Pattern

/-!
# What patterns match

A match splits the input into stretches that the parts accept. Where the choice of the parts is forced, the match is
computed.
-/

namespace MachineBundle.Scan

/-- The stretches that a part can pass over. -/
def Part.Accepts : Part → List Char → Prop
  | .literal cs, s => s = cs
  | .blanks, s => ∀ c ∈ s, Text.isBlank c = true
  | .someBlanks, s => s ≠ [] ∧ ∀ c ∈ s, Text.isBlank c = true
  | .restOfLine, s => '\n' ∉ s
  | .wordEnd, s => s = []
  | .digits, s => s ≠ [] ∧ ∀ c ∈ s, isDigit c = true

/-- The stretches that a sequence of parts can pass over. -/
def Accepts : Pattern → List Char → Prop
  | [], s => s = []
  | part :: ps, s => ∃ a b, s = a ++ b ∧ part.Accepts a ∧ Accepts ps b

/-! ## Literals and runs -/

theorem afterLiteral?_append (cs rest : List Char) : afterLiteral? cs (cs ++ rest) = some rest := by
  induction cs with
  | nil => rfl
  | cons c cs ih => simp [afterLiteral?, ih]

theorem afterLiteral?_eq_some {cs input rest : List Char} (h : afterLiteral? cs input = some rest) :
    input = cs ++ rest := by
  induction cs generalizing input with
  | nil =>
    cases h
    rfl
  | cons c cs ih =>
    cases input with
    | nil => cases h
    | cons d input =>
      simp only [afterLiteral?] at h
      split at h
      · rename_i hc
        rw [hc, ih h, List.cons_append]
      · cases h

theorem takeRun_append {p : Char → Bool} {run : List Char} (hr : ∀ c ∈ run, p c = true) (passed after : List Char) :
    takeRun p passed (run ++ after) = takeRun p (run.reverse ++ passed) after := by
  induction run generalizing passed with
  | nil => rfl
  | cons c run ih =>
    rw [List.cons_append, takeRun, if_pos (hr c List.mem_cons_self), ih fun d hd => hr d (List.mem_cons_of_mem c hd)]
    simp

theorem takeRun_stop {p : Char → Bool} {after : List Char} (ha : ∀ c ∈ after.head?, p c = false)
    (passed : List Char) : takeRun p passed after = (passed, after) := by
  cases after with
  | nil => rfl
  | cons c after => simp [takeRun, ha c rfl]

/-- Every input is a run of a class and something that does not go on with it. -/
theorem exists_run (p : Char → Bool) (input : List Char) :
    ∃ run after, input = run ++ after ∧ (∀ c ∈ run, p c = true) ∧ ∀ c ∈ after.head?, p c = false := by
  refine ⟨input.takeWhile p, input.dropWhile p, List.takeWhile_append_dropWhile.symm, fun c hc => ?_, fun c hc => ?_⟩
  · exact List.mem_takeWhile_imp hc
  · have h := List.head?_dropWhile_not p input
    rwa [Option.mem_def.mp hc] at h

theorem giveBack_eq_some {α : Type} {rest : List Char → Option α} {passed input : List Char} {a : α}
    (h : giveBack rest passed input = some a) :
    ∃ given kept, passed = given ++ kept ∧ rest (given.reverse ++ input) = some a := by
  induction passed generalizing input with
  | nil => exact ⟨[], [], rfl, h⟩
  | cons c passed ih =>
    simp only [giveBack] at h
    split at h
    · rename_i hr
      cases h
      exact ⟨[], c :: passed, rfl, hr⟩
    · obtain ⟨given, kept, rfl, hr⟩ := ih h
      exact ⟨c :: given, kept, rfl, by simpa using hr⟩

theorem giveBack_of_some {α : Type} {rest : List Char → Option α} {input : List Char} {a : α}
    (h : rest input = some a) (passed : List Char) : giveBack rest passed input = some a := by
  cases passed with
  | nil => exact h
  | cons c passed => simp [giveBack, h]

/-- Characters are given back as long as nothing matches after them. -/
theorem giveBack_append {α : Type} {rest : List Char → Option α} {run input : List Char}
    (h : ∀ x y, run = x ++ y → x ≠ [] → rest (y ++ input) = none) (passed : List Char) :
    giveBack rest (run.reverse ++ passed) input = giveBack rest passed (run ++ input) := by
  induction run using List.reverseRecOn generalizing input with
  | nil => rfl
  | append_singleton run c ih =>
    have hn : rest input = none := h (run ++ [c]) [] (by simp) (by simp)
    rw [List.reverse_concat, List.cons_append, giveBack, hn]
    simp only
    rw [ih fun x y hxy hx => ?_, List.append_assoc, List.singleton_append]
    have := h x (y ++ [c]) (by rw [hxy, List.append_assoc]) hx
    rwa [List.append_assoc] at this

theorem many_eq_some {α : Type} {p : Char → Bool} {rest : List Char → Option α} {input : List Char} {a : α}
    (h : many p rest input = some a) : ∃ x y, input = x ++ y ∧ (∀ c ∈ x, p c = true) ∧ rest y = some a := by
  obtain ⟨run, after, rfl, hr, ha⟩ := exists_run p input
  rw [many, takeRun_append hr, takeRun_stop ha, List.append_nil] at h
  obtain ⟨given, kept, hg, hs⟩ := giveBack_eq_some h
  have hrun : run = kept.reverse ++ given.reverse := by
    rw [← List.reverse_append, ← hg, List.reverse_reverse]
  refine ⟨kept.reverse, given.reverse ++ after, by rw [hrun, List.append_assoc], fun c hc => ?_, hs⟩
  exact hr c (by rw [hrun]; exact List.mem_append_left _ hc)

/-- The longest stretch counts after which the rest matches. -/
theorem many_of_longest {α : Type} {p : Char → Bool} {rest : List Char → Option α} {x y : List Char} {a : α}
    (hx : ∀ c ∈ x, p c = true) (hy : rest y = some a)
    (hn : ∀ v w, y = v ++ w → v ≠ [] → (∀ c ∈ v, p c = true) → rest w = none) : many p rest (x ++ y) = some a := by
  obtain ⟨run, after, rfl, hr, ha⟩ := exists_run p y
  rw [many, takeRun_append hx, List.append_nil, takeRun_append hr, takeRun_stop ha]
  dsimp only
  rw [giveBack_append fun v w hvw hv => ?_, giveBack_of_some hy]
  refine hn v (w ++ after) (by rw [hvw, List.append_assoc]) hv fun c hc => ?_
  exact hr c (by rw [hvw]; exact List.mem_append_left _ hc)

theorem giveBackTo1_eq_some {α : Type} {rest : List Char → List Char → Option α} {passed input : List Char} {a : α}
    (h : giveBackTo1 rest passed input = some a) :
    ∃ given kept, passed = given ++ kept ∧ kept ≠ [] ∧ rest kept (given.reverse ++ input) = some a := by
  induction passed generalizing input with
  | nil => cases h
  | cons c passed ih =>
    simp only [giveBackTo1] at h
    split at h
    · rename_i hr
      cases h
      exact ⟨[], c :: passed, rfl, by simp, hr⟩
    · obtain ⟨given, kept, rfl, hk, hr⟩ := ih h
      exact ⟨c :: given, kept, rfl, hk, by simpa using hr⟩

theorem capture_eq_some {α : Type} {rest : List Char → List Char → Option α} {input : List Char} {a : α}
    (h : capture rest input = some a) :
    ∃ x y, input = x ++ y ∧ x ≠ [] ∧ (∀ c ∈ x, isDigit c = true) ∧ rest x.reverse y = some a := by
  obtain ⟨run, after, rfl, hr, ha⟩ := exists_run isDigit input
  rw [capture, takeRun_append hr, takeRun_stop ha, List.append_nil] at h
  obtain ⟨given, kept, hg, hk, hs⟩ := giveBackTo1_eq_some h
  have hrun : run = kept.reverse ++ given.reverse := by
    rw [← List.reverse_append, ← hg, List.reverse_reverse]
  refine ⟨kept.reverse, given.reverse ++ after, by rw [hrun, List.append_assoc], by simpa using hk, fun c hc => ?_, ?_⟩
  · exact hr c (by rw [hrun]; exact List.mem_append_left _ hc)
  · rwa [List.reverse_reverse]

/-! ## Matches -/

/-- A match of a part and others is a stretch for the part and a match of the others. -/
theorem matchHere_cons {part : Part} {q : Pattern} {held input ds : List Char}
    (h : matchHere held (part :: q) input = some ds) :
    ∃ a rest held', input = a ++ rest ∧ part.Accepts a ∧ matchHere held' q rest = some ds := by
  cases part with
  | literal cs =>
    simp only [matchHere] at h
    split at h
    · rename_i rest hr
      exact ⟨cs, rest, held, afterLiteral?_eq_some hr, rfl, h⟩
    · cases h
  | blanks =>
    obtain ⟨x, y, hxy, hx, hy⟩ := many_eq_some h
    exact ⟨x, y, held, hxy, hx, hy⟩
  | someBlanks =>
    cases input with
    | nil => cases h
    | cons c cs =>
      simp only [matchHere, many1] at h
      split at h
      · rename_i hc
        obtain ⟨x, y, rfl, hx, hy⟩ := many_eq_some h
        refine ⟨c :: x, y, held, rfl, ⟨by simp, ?_⟩, hy⟩
        simpa [hc] using hx
      · cases h
  | restOfLine =>
    obtain ⟨x, y, hxy, hx, hy⟩ := many_eq_some h
    refine ⟨x, y, held, hxy, fun hm => ?_, hy⟩
    simpa using hx _ hm
  | wordEnd =>
    simp only [matchHere] at h
    split at h
    · cases h
    · exact ⟨[], input, held, rfl, rfl, h⟩
  | digits =>
    obtain ⟨x, y, hxy, hx, hd, hy⟩ := capture_eq_some h
    exact ⟨x, y, x.reverse, hxy, ⟨hx, hd⟩, hy⟩

/-- A match of some parts and others is a stretch for the former and a match of the latter. -/
theorem matchHere_append {p q : Pattern} {held input ds : List Char} (h : matchHere held (p ++ q) input = some ds) :
    ∃ a rest held', input = a ++ rest ∧ Accepts p a ∧ matchHere held' q rest = some ds := by
  induction p generalizing held input with
  | nil => exact ⟨[], input, held, rfl, rfl, h⟩
  | cons part p ih =>
    obtain ⟨a, rest, held', rfl, ha, hr⟩ := matchHere_cons h
    obtain ⟨b, rest', held'', rfl, hb, hr'⟩ := ih hr
    exact ⟨a ++ b, rest', held'', by rw [List.append_assoc], ⟨a, b, rfl, ha, hb⟩, hr'⟩

/-- Where nothing is left, digits are missing. -/
theorem matchHere_nil {held : List Char} {ps : Pattern} (h : .digits ∈ ps) : matchHere held ps [] = none := by
  induction ps with
  | nil => cases h
  | cons part ps ih =>
    cases part with
    | digits => rfl
    | literal cs =>
      cases cs with
      | nil => exact ih (by simpa using h)
      | cons c cs => rfl
    | blanks => exact ih (by simpa using h)
    | someBlanks => rfl
    | restOfLine => exact ih (by simpa using h)
    | wordEnd => exact ih (by simpa using h)

theorem matchHere_literal (held cs : List Char) (ps : Pattern) (rest : List Char) :
    matchHere held (.literal cs :: ps) (cs ++ rest) = matchHere held ps rest := by
  simp [matchHere, afterLiteral?_append]

theorem matchHere_literal_eq_some {held cs input ds : List Char} {ps : Pattern}
    (h : matchHere held (.literal cs :: ps) input = some ds) :
    ∃ rest, input = cs ++ rest ∧ matchHere held ps rest = some ds := by
  simp only [matchHere] at h
  split at h
  · rename_i rest hr
    exact ⟨rest, afterLiteral?_eq_some hr, h⟩
  · cases h

theorem matchHere_blanks {held b rest ds : List Char} {ps : Pattern} (hb : ∀ c ∈ b, Text.isBlank c = true)
    (hr : ∀ c ∈ rest.head?, Text.isBlank c = false) (h : matchHere held ps rest = some ds) :
    matchHere held (.blanks :: ps) (b ++ rest) = some ds := by
  refine many_of_longest hb h fun v w hvw hv hall => ?_
  cases v with
  | nil => exact absurd rfl hv
  | cons c v =>
    have hc := hall c List.mem_cons_self
    rw [hr c (by rw [hvw]; rfl)] at hc
    cases hc

theorem matchHere_someBlanks {held bs rest ds : List Char} {ps : Pattern} {b : Char}
    (hb : ∀ c ∈ b :: bs, Text.isBlank c = true) (hr : ∀ c ∈ rest.head?, Text.isBlank c = false)
    (h : matchHere held ps rest = some ds) : matchHere held (.someBlanks :: ps) (b :: bs ++ rest) = some ds := by
  rw [List.cons_append, matchHere, many1, if_pos (hb b List.mem_cons_self)]
  exact matchHere_blanks (fun c hc => hb c (List.mem_cons_of_mem b hc)) hr h

theorem matchHere_digits {held n rest ds : List Char} {ps : Pattern} (hn : n ≠ []) (hd : ∀ c ∈ n, isDigit c = true)
    (hr : ∀ c ∈ rest.head?, isDigit c = false) (h : matchHere n.reverse ps rest = some ds) :
    matchHere held (.digits :: ps) (n ++ rest) = some ds := by
  rw [matchHere, capture, takeRun_append hd, takeRun_stop hr, List.append_nil]
  cases hl : n.reverse with
  | nil => exact absurd (List.reverse_eq_nil_iff.mp hl) hn
  | cons c r =>
    rw [hl] at h
    simp [giveBackTo1, h]

/-- The longest stretch of the line counts after which the parts match. -/
theorem matchHere_restOfLine {held x y ds : List Char} {ps : Pattern} (hx : '\n' ∉ x)
    (h : matchHere held ps y = some ds)
    (hn : ∀ v w, y = v ++ w → v ≠ [] → '\n' ∉ v → matchHere held ps w = none) :
    matchHere held (.restOfLine :: ps) (x ++ y) = some ds := by
  refine many_of_longest (fun c hc => ?_) h fun v w hvw hv hall => hn v w hvw hv fun hm => ?_
  · simp only [bne_iff_ne, ne_eq]
    rintro rfl
    exact hx hc
  · simpa using hall _ hm

/-! ## Searching -/

theorem search_of_matchHere {p : Pattern} {input ds : List Char} (h : matchHere [] p input = some ds) :
    search p input = some ds.reverse := by
  cases input with
  | nil => simp [search, h]
  | cons c cs => simp [search, h]

/-- A part of the input where no match begins is passed over. -/
theorem search_append {p : Pattern} {u v : List Char}
    (h : ∀ x y, u = x ++ y → y ≠ [] → matchHere [] p (y ++ v) = none) : search p (u ++ v) = search p v := by
  induction u with
  | nil => rfl
  | cons c u ih =>
    have hc := h [] (c :: u) rfl (by simp)
    rw [List.cons_append] at hc ⊢
    rw [search, hc]
    exact ih fun x y hxy hy => h (c :: x) y (by rw [hxy, List.cons_append]) hy

theorem search_eq_none {p : Pattern} {input : List Char}
    (h : ∀ x y, input = x ++ y → matchHere [] p y = none) : search p input = none := by
  have := search_append (p := p) (u := input) (v := []) fun x y hxy _ => by simpa using h x y hxy
  rw [List.append_nil] at this
  rw [this, search, h input [] (by simp)]
  rfl

theorem isDigit_toString {n : Nat} {c : Char} (h : c ∈ (toString n).toList) : isDigit c = true :=
  Text.isDigit_of_mem_toString h

theorem notBlank_head_of_digits {n : List Char} (hn : n ≠ []) (hd : ∀ c ∈ n, isDigit c = true) (rest : List Char) :
    ∀ c ∈ (n ++ rest).head?, Text.isBlank c = false := by
  rw [List.head?_append_of_ne_nil _ hn]
  exact fun c hc => Text.isBlank_of_isPlain (Text.isPlain_of_isDigit (hd c (List.mem_of_mem_head? hc)))

/-- Digits after blanks are all taken. -/
theorem matchHere_number {b n rest ds : List Char} {ps : Pattern} (hb : ∀ c ∈ b, Text.isBlank c = true) (hn : n ≠ [])
    (hd : ∀ c ∈ n, isDigit c = true) (hr : ∀ c ∈ rest.head?, isDigit c = false)
    (h : matchHere n.reverse ps rest = some ds) : matchHere [] (.blanks :: .digits :: ps) (b ++ (n ++ rest)) = some ds :=
  matchHere_blanks hb (notBlank_head_of_digits hn hd rest) (matchHere_digits hn hd hr h)

/-- A subscript is taken up to its bracket. -/
theorem matchHere_subscript (i : Nat) (rest : List Char) :
    matchHere [] [.blanks, .digits, .blanks, .literal [']']] ((toString i).toList ++ ']' :: rest) =
      some (toString i).toList.reverse := by
  have hbracket : matchHere (toString i).toList.reverse [.blanks, .literal [']']] (']' :: rest) =
      some (toString i).toList.reverse :=
    matchHere_blanks (b := []) (by simp) (by simp; decide) (matchHere_literal _ [']'] [] rest)
  exact matchHere_number (b := []) (by simp) (Text.toString_ne_nil i) (fun _ hc => isDigit_toString hc)
    (by simp; decide) hbracket

/-- Two runs of a class in front of something else are told apart. -/
theorem run_append_inj {p : Char → Bool} {x y a b : List Char} (hx : ∀ c ∈ x, p c = true) (hy : ∀ c ∈ y, p c = true)
    (ha : ∀ c ∈ a.head?, p c = false) (hb : ∀ c ∈ b.head?, p c = false) (h : x ++ a = y ++ b) : x = y ∧ a = b := by
  have hrun : ∀ {x a : List Char}, (∀ c ∈ x, p c = true) → (∀ c ∈ a.head?, p c = false) →
      (x ++ a).takeWhile p = x := by
    intro x a hx ha
    rw [List.takeWhile_append_of_pos hx]
    cases a with
    | nil => simp
    | cons c a => simp [ha c rfl]
  have hxy := congrArg (List.takeWhile p) h
  rw [hrun hx ha, hrun hy hb] at hxy
  subst hxy
  exact ⟨rfl, List.append_cancel_left h⟩

/-- Two numbers in front of something else than a digit are told apart. -/
theorem toString_append_inj {m n : Nat} {a b : List Char} (ha : ∀ c ∈ a.head?, isDigit c = false)
    (hb : ∀ c ∈ b.head?, isDigit c = false) (h : (toString m).toList ++ a = (toString n).toList ++ b) : m = n :=
  Text.toString_injective
    (run_append_inj (fun _ hc => isDigit_toString hc) (fun _ hc => isDigit_toString hc) ha hb h).1

/-- Blanks at the end come after the same text. -/
theorem append_blanks_inj {a b s t : List Char} (ha : ∀ c ∈ a.getLast?, Text.isBlank c = false)
    (hb : ∀ c ∈ b.getLast?, Text.isBlank c = false) (hs : ∀ c ∈ s, Text.isBlank c = true)
    (ht : ∀ c ∈ t, Text.isBlank c = true) (h : a ++ s = b ++ t) : a = b ∧ s = t := by
  have hr : s.reverse ++ a.reverse = t.reverse ++ b.reverse := by
    rw [← List.reverse_append, ← List.reverse_append, h]
  obtain ⟨hst, hab⟩ := run_append_inj (p := Text.isBlank) (fun c hc => hs c (List.mem_reverse.mp hc))
    (fun c hc => ht c (List.mem_reverse.mp hc)) (by simpa using ha) (by simpa using hb) hr
  exact ⟨List.reverse_injective hab, List.reverse_injective hst⟩

theorem numberOf_toString (n : Nat) : numberOf (toString n).toList = n := by
  rw [Text.toList_toString]
  exact Nat.ofDigitChars_ten_toDigits

theorem firstNumber_of_search {p : Pattern} {text : String} {n : Nat} (h : search p text.toList = some (toString n).toList)
    (hn : n < 10 ^ digitLimit) : firstNumber p text = .ok (some n) := by
  have hl : (toString n).toList.length ≤ digitLimit := (Text.length_toString_le (by decide)).mpr hn
  have hne := Text.toString_ne_nil n
  have hv := numberOf_toString n
  rw [firstNumber, h]
  revert hl hne hv
  cases (toString n).toList with
  | nil => exact fun _ hne => absurd rfl hne
  | cons d ds =>
    intro hl _ hv
    dsimp only
    rw [if_neg (Nat.not_lt.mpr hl), hv]

theorem firstNumber_of_search_none {p : Pattern} {text : String} (h : search p text.toList = none) :
    firstNumber p text = .ok none := by
  rw [firstNumber, h]

end MachineBundle.Scan
