import MachineBundle.Proofs.Source.Tame

/-!
# Reading sources

What sources say is read off line by line. A reader knows one form of a line, with fixed parts around numbers and names,
and passes over all other lines.
-/

namespace MachineBundle.Source

open Scan

/-- What a line says, if it has a certain form. -/
abbrev LineReader (α : Type) := List Char → Option α

/-- What the lines of a text say. -/
def readText {α : Type} (reader : LineReader α) (text : String) : List α :=
  (Text.entries text.toList).filterMap reader

/-- What some lines say. -/
def readLines {α : Type} (reader : LineReader α) (lines : List String) : List α :=
  lines.filterMap fun l => reader l.toList

/-! ## Parts of lines -/

/-- A number, and what follows it. -/
def number? (l : List Char) : Option (Nat × List Char) :=
  if (l.takeWhile isDigit).isEmpty then none else some (numberOf (l.takeWhile isDigit), l.dropWhile isDigit)

/-- What comes before the end of a line. -/
def before? (tail l : List Char) : Option String :=
  if tail.isSuffixOf l then some (String.ofList (l.take (l.length - tail.length))) else none

/-- What stands between the head and the end of a line. -/
def between? (head tail : String) (l : List Char) : Option String := do
  before? tail.toList (← afterLiteral? head.toList l)

/-- The number that stands between the head and the end of a line. -/
def numberBetween? (head tail : String) (l : List Char) : Option Nat := do
  let (n, rest) ← number? (← afterLiteral? head.toList l)
  if rest = tail.toList then some n else none

theorem number?_append (n : Nat) {rest : List Char} (h : ∀ c ∈ rest.head?, isDigit c = false) :
    number? ((toString n).toList ++ rest) = some (n, rest) := by
  have hdigits : ∀ c ∈ (toString n).toList, isDigit c = true := fun _ hc => isDigit_toString hc
  have hstop : rest.takeWhile isDigit = [] ∧ rest.dropWhile isDigit = rest := by
    cases rest with
    | nil => exact ⟨rfl, rfl⟩
    | cons c r => simp [h c rfl]
  unfold number?
  rw [List.takeWhile_append_of_pos hdigits, List.dropWhile_append_of_pos hdigits, hstop.1, hstop.2, List.append_nil,
    numberOf_toString, if_neg (by simp)]

theorem before?_append (x : String) (tail : List Char) : before? tail (x.toList ++ tail) = some x := by
  have hsuffix : tail.isSuffixOf (x.toList ++ tail) = true :=
    List.isSuffixOf_iff_suffix.mpr (List.suffix_append _ _)
  have hlength : (x.toList ++ tail).length - tail.length = x.toList.length := by simp
  rw [before?, if_pos hsuffix, hlength, List.take_left, String.ofList_toList]

theorem between?_append (head x tail : String) : between? head tail (head ++ x ++ tail).toList = some x := by
  rw [between?, String.toList_append, String.toList_append, List.append_assoc, afterLiteral?_append]
  exact before?_append x tail.toList

theorem numberBetween?_append (head tail : String) (n : Nat) (h : ∀ c ∈ tail.toList.head?, isDigit c = false) :
    numberBetween? head tail (head ++ toString n ++ tail).toList = some n := by
  rw [numberBetween?, String.toList_append, String.toList_append, List.append_assoc, afterLiteral?_append]
  simp only [Option.bind_eq_bind, Option.bind_some, number?_append n h, if_true]

/-- What comes after a number is the end of what there is. -/
theorem suffix_of_number? {l rest : List Char} {n : Nat} (h : number? l = some (n, rest)) : rest <:+ l := by
  unfold number? at h
  split at h
  · cases h
  · cases h
    exact List.dropWhile_suffix _

theorem suffix_of_numberBetween? {head tail : String} {l : List Char} {n : Nat} (h : numberBetween? head tail l = some n) :
    tail.toList <:+ l := by
  obtain ⟨more, hmore, h⟩ := Option.bind_eq_some_iff.mp h
  obtain ⟨⟨k, rest⟩, hnumber, h⟩ := Option.bind_eq_some_iff.mp h
  dsimp only at h
  split at h
  · rename_i htail
    rw [afterLiteral?_eq_some hmore, ← htail]
    exact (suffix_of_number? hnumber).trans (List.suffix_append _ _)
  · cases h

/-! ## Lines that are passed over -/

/-- Whether two texts differ before one of them ends. -/
def differ (a b : List Char) : Bool :=
  (a.zip b).any fun (c, d) => c ≠ d

/-- A line begins otherwise than with one of some heads, however it goes on. -/
def Departs (heads : List String) (l : String) : Prop :=
  ∀ h ∈ heads, ∀ rest, afterLiteral? h.toList (l.toList ++ rest) = none

/-- A line has none of some heads. -/
def Headless (heads : List String) (l : String) : Prop :=
  ∀ h ∈ heads, afterLiteral? h.toList l.toList = none

theorem afterLiteral?_of_differ {a b : List Char} (h : differ a b = true) (rest : List Char) :
    afterLiteral? a (b ++ rest) = none := by
  induction a generalizing b with
  | nil => simp [differ] at h
  | cons c a ih =>
    cases b with
    | nil => simp [differ] at h
    | cons d b =>
      rw [List.cons_append, afterLiteral?]
      split
      · rename_i hc
        refine ih ?_
        simpa [differ, hc] using h
      · rfl

theorem departs_ofList {heads : List String} (cs : List Char) (h : heads.all (fun head => differ head.toList cs) = true) :
    Departs heads (String.ofList cs) := by
  intro head hhead rest
  rw [String.toList_ofList]
  exact afterLiteral?_of_differ (List.all_eq_true.mp h head hhead) rest

theorem Departs.append {heads : List String} {a : String} (h : Departs heads a) (b : String) : Departs heads (a ++ b) := by
  intro head hhead rest
  rw [String.toList_append, List.append_assoc]
  exact h head hhead _

theorem Departs.headless {heads : List String} {l : String} (h : Departs heads l) : Headless heads l := by
  intro head hhead
  have hl := h head hhead []
  rwa [List.append_nil] at hl

/-- A line that begins with a fixed part needs to be looked at no further. -/
theorem headless_append {heads : List String} (cs : List Char) (rest : String)
    (h : heads.all (fun head => differ head.toList cs) = true) : Headless heads (String.ofList cs ++ rest) :=
  ((departs_ofList cs h).append rest).headless

theorem headless_ofList {heads : List String} (cs : List Char)
    (h : heads.all (fun head => (afterLiteral? head.toList cs).isNone) = true) : Headless heads (String.ofList cs) := by
  intro head hhead
  rw [String.toList_ofList]
  exact Option.isNone_iff_eq_none.mp (List.all_eq_true.mp h head hhead)

theorem Headless.mono {heads fewer : List String} {l : String} (h : Headless heads l) (hfewer : fewer ⊆ heads) :
    Headless fewer l :=
  fun head hhead => h head (hfewer hhead)

/-- A line without some heads has none that goes on from one of them. -/
theorem Headless.longer {heads longer : List String} {l : String} (h : Headless heads l)
    (hlonger : longer.all (fun long => heads.any fun head => head.toList.isPrefixOf long.toList) = true) :
    Headless longer l := by
  intro long hlong
  obtain ⟨head, hhead, hp⟩ := List.any_eq_true.mp (List.all_eq_true.mp hlonger long hlong)
  obtain ⟨more, hmore⟩ := List.isPrefixOf_iff_prefix.mp hp
  cases ha : afterLiteral? long.toList l.toList with
  | none => rfl
  | some rest =>
    have hnone := h head hhead
    rw [afterLiteral?_eq_some ha, ← hmore, List.append_assoc, afterLiteral?_append] at hnone
    cases hnone

theorem Headless.append {head l : String} (h : Headless [head] l) (more : String) : Headless [head ++ more] l := by
  intro long hlong
  rw [List.mem_singleton.mp hlong, String.toList_append]
  cases ha : afterLiteral? (head.toList ++ more.toList) l.toList with
  | none => rfl
  | some rest =>
    have hnone := h head List.mem_cons_self
    rw [afterLiteral?_eq_some ha, List.append_assoc, afterLiteral?_append] at hnone
    cases hnone

theorem between?_eq_none {head l : String} (h : Headless [head] l) (tail : String) : between? head tail l.toList = none := by
  rw [between?, h head List.mem_cons_self]
  rfl

theorem numberBetween?_eq_none {head l : String} (h : Headless [head] l) (tail : String) :
    numberBetween? head tail l.toList = none := by
  rw [numberBetween?, h head List.mem_cons_self]
  rfl

/-- A line that is no statement: it has none of some heads, or it ends as the heads of definitions do. -/
def Passed (heads : List String) (l : String) : Prop :=
  l.toList.getLast? = some ')' ∨ Headless heads l

theorem passed_of_parenthesis {heads : List String} (a : String) (cs : List Char) (h : cs.getLast? = some ')') :
    Passed heads (a ++ String.ofList cs) := by
  refine Or.inl ?_
  rw [String.toList_append, String.toList_ofList, List.getLast?_append, h]
  rfl

theorem Headless.passed {heads : List String} {l : String} (h : Headless heads l) : Passed heads l :=
  Or.inr h

theorem Passed.longer {heads longer : List String} {l : String} (h : Passed heads l)
    (hlonger : longer.all (fun long => heads.any fun head => head.toList.isPrefixOf long.toList) = true) :
    Passed longer l :=
  h.imp_right fun hl => hl.longer hlonger

theorem getLast?_append_ofList (a : String) {cs : List Char} {c : Char} (h : cs.getLast? = some c) :
    (a ++ String.ofList cs).toList.getLast? = some c := by
  rw [String.toList_append, String.toList_ofList, List.getLast?_append, h]
  rfl

/-! ## Reading line by line -/

section

variable {α : Type} {reader : LineReader α}

theorem mem_readLines {x : α} {ls : List String} : x ∈ readLines reader ls ↔ ∃ l ∈ ls, reader l.toList = some x :=
  List.mem_filterMap

theorem readLines_append (a b : List String) : readLines reader (a ++ b) = readLines reader a ++ readLines reader b :=
  List.filterMap_append

theorem readLines_cons_some {l : String} {x : α} (h : reader l.toList = some x) (r : List String) :
    readLines reader (l :: r) = x :: readLines reader r :=
  List.filterMap_cons_some h

theorem readLines_cons_none {l : String} (h : reader l.toList = none) (r : List String) :
    readLines reader (l :: r) = readLines reader r :=
  List.filterMap_cons_none h

theorem readLines_eq_nil {ls : List String} (h : ∀ l ∈ ls, reader l.toList = none) : readLines reader ls = [] :=
  List.filterMap_eq_nil_iff.mpr h

/-- Lines that are made of the members of a list, each of which says something. -/
theorem readLines_map {β : Type} {f : β → String} {g : β → α} {as : List β}
    (h : ∀ a ∈ as, reader (f a).toList = some (g a)) : readLines reader (as.map f) = as.map g := by
  induction as with
  | nil => rfl
  | cons a r ih =>
    rw [List.map_cons, List.map_cons, readLines_cons_some (h a List.mem_cons_self),
      ih fun b hb => h b (List.mem_cons_of_mem a hb)]

/-- Lines that are made of some members of a list. -/
theorem readLines_filterMap {β : Type} {f : β → Option String} {g : β → Option α} {as : List β}
    (h : ∀ a ∈ as, (f a).bind (fun l => reader l.toList) = g a) : readLines reader (as.filterMap f) = as.filterMap g := by
  unfold readLines
  rw [List.filterMap_filterMap]
  exact List.filterMap_congr h

/-- Lines that are made of the members of a list and their positions. -/
theorem readLines_mapIdx {β : Type} {f : Nat → β → String} {g : Nat → β → α} {as : List β}
    (h : ∀ (i : Nat) (hi : i < as.length), reader (f i as[i]).toList = some (g i as[i])) :
    readLines reader (as.mapIdx f) = as.mapIdx g := by
  induction as generalizing f g with
  | nil => rfl
  | cons a r ih =>
    have hfirst : reader (f 0 a).toList = some (g 0 a) := h 0 (Nat.zero_lt_succ _)
    rw [List.mapIdx_cons, List.mapIdx_cons, readLines_cons_some hfirst,
      ih fun i hi => h (i + 1) (Nat.succ_lt_succ hi)]

/-- Lines that are made of the members of a list and say the positions of these. -/
theorem readLines_mapIdx_index {reader : LineReader Nat} {β : Type} {f : Nat → β → String} {as : List β}
    (h : ∀ i a, reader (f i a).toList = some i) : readLines reader (as.mapIdx f) = List.range as.length := by
  rw [readLines_mapIdx (g := fun i _ => i) fun i _ => h i _]
  exact List.ext_getElem (by simp) fun i _ _ => by simp

theorem readLines_onlyIf (c : Bool) (ls : List String) :
    readLines reader (onlyIf c ls) = if c then readLines reader ls else [] := by
  cases c <;> rfl

theorem readLines_flatMap {β : Type} {f : β → List String} {g : β → List α} {as : List β}
    (h : ∀ a ∈ as, readLines reader (f a) = g a) : readLines reader (as.flatMap f) = as.flatMap g := by
  induction as with
  | nil => rfl
  | cons a r ih =>
    rw [List.flatMap_cons, List.flatMap_cons, readLines_append, h a List.mem_cons_self,
      ih fun b hb => h b (List.mem_cons_of_mem a hb)]

/-- A text says what its lines say. -/
theorem readText_unlines {ls : List String} (h : ∀ l ∈ ls, '\n' ∉ l.toList) (hnil : reader [] = none) :
    readText reader (unlines ls) = readLines reader ls := by
  rw [readText, Text.entries_unlines h, List.filterMap_append, List.filterMap_map]
  simp [readLines, hnil]

end

/-! ## Forms of lines -/

/-- A number after a head, and what a reader makes of the rest. -/
def numbered {α : Type} (head : String) (reader : LineReader α) : LineReader (Nat × α) := fun l => do
  let (i, rest) ← number? (← afterLiteral? head.toList l)
  return (i, ← reader rest)

section

variable {α : Type} {reader : LineReader α} {heads : List String} {c : Char}

theorem numbered_append (head : String) (i : Nat) {rest : List Char} {x : α} (hrest : ∀ c ∈ rest.head?, isDigit c = false)
    (h : reader rest = some x) : numbered head reader (head.toList ++ ((toString i).toList ++ rest)) = some (i, x) := by
  rw [numbered, afterLiteral?_append]
  simp only [Option.bind_eq_bind, Option.bind_some, number?_append i hrest, h]
  rfl

theorem numbered_eq_none {head l : String} (h : Headless [head] l) (reader : LineReader α) :
    numbered head reader l.toList = none := by
  rw [numbered, h head List.mem_cons_self]
  rfl

/-- What a reader says only after one of some heads is not said by other lines. -/
def Needs (heads : List String) (reader : LineReader α) : Prop :=
  ∀ l : String, Headless heads l → reader l.toList = none

theorem needs_numbered (head : String) (reader : LineReader α) : Needs [head] (numbered head reader) :=
  fun _ h => numbered_eq_none h reader

theorem needs_between (head tail : String) : Needs [head] (between? head tail) :=
  fun _ h => between?_eq_none h tail

theorem needs_numberBetween (head tail : String) : Needs [head] (numberBetween? head tail) :=
  fun _ h => numberBetween?_eq_none h tail

theorem Needs.of_longer {longer : List String} (h : Needs longer reader)
    (hlonger : longer.all (fun long => heads.any fun head => head.toList.isPrefixOf long.toList) = true) :
    Needs heads reader :=
  fun l hl => h l (hl.longer hlonger)

theorem Needs.readLines (h : Needs heads reader) {ls : List String}
    (hls : ∀ l ∈ ls, Headless heads l) : readLines reader ls = [] :=
  readLines_eq_nil fun l hl => h l (hls l hl)

/-- What is between lines that say nothing is all that is said. -/
theorem Needs.readLines_middle (h : Needs heads reader) {top rest : List String} (htop : ∀ l ∈ top, Headless heads l)
    (hrest : ∀ l ∈ rest, Headless heads l) (middle : List String) :
    Source.readLines reader (top ++ (middle ++ rest)) = Source.readLines reader middle := by
  rw [readLines_append, readLines_append, h.readLines htop, h.readLines hrest, List.nil_append, List.append_nil]

/-- A reader that makes something of a line only if it ends in a certain way. -/
def Ends (c : Char) (reader : LineReader α) : Prop :=
  ∀ l x, reader l = some x → l.getLast? = some c

theorem ends_between (head : String) {tail : String} (h : tail.toList.getLast? = some c) : Ends c (between? head tail) := by
  intro l x hread
  obtain ⟨more, hmore, hbefore⟩ := Option.bind_eq_some_iff.mp hread
  unfold before? at hbefore
  split at hbefore
  · rename_i hsuffix
    rw [afterLiteral?_eq_some hmore, List.getLast?_append,
      getLast?_of_suffix (List.isSuffixOf_iff_suffix.mp hsuffix) h]
    rfl
  · cases hbefore

theorem ends_numberBetween (head : String) {tail : String} (h : tail.toList.getLast? = some c) :
    Ends c (numberBetween? head tail) :=
  fun _ _ hread => getLast?_of_suffix (suffix_of_numberBetween? hread) h

theorem ends_numbered (head : String) (h : Ends c reader) : Ends c (numbered head reader) := by
  intro l x hread
  obtain ⟨more, hmore, hread⟩ := Option.bind_eq_some_iff.mp hread
  obtain ⟨⟨i, rest⟩, hnumber, hread⟩ := Option.bind_eq_some_iff.mp hread
  obtain ⟨y, hy, -⟩ := Option.bind_eq_some_iff.mp hread
  obtain ⟨digits, hdigits⟩ := suffix_of_number? hnumber
  rw [afterLiteral?_eq_some hmore, ← hdigits, List.getLast?_append, List.getLast?_append, h rest y hy]
  rfl

theorem Ends.eq_none {d : Char} (h : Ends c reader) {l : List Char} (hl : l.getLast? = some d) (hd : d ≠ c) :
    reader l = none := by
  cases hread : reader l with
  | none => rfl
  | some x =>
    rw [h l x hread] at hl
    exact absurd (Option.some.inj hl).symm hd

/-- What a reader of statements says is not said by other lines. -/
def Skips (heads : List String) (reader : LineReader α) : Prop :=
  ∀ l : String, Passed heads l → reader l.toList = none

theorem Needs.skips (h : Needs heads reader) (hends : Ends c reader) (hc : ')' ≠ c) : Skips heads reader := by
  intro l hl
  rcases hl with hlast | hnone
  · exact hends.eq_none hlast hc
  · exact h l hnone

theorem Skips.of_longer {longer : List String} (h : Skips longer reader)
    (hlonger : longer.all (fun long => heads.any fun head => head.toList.isPrefixOf long.toList) = true) :
    Skips heads reader :=
  fun l hl => h l (hl.longer hlonger)

theorem Skips.needs (h : Skips heads reader) : Needs heads reader :=
  fun l hl => h l hl.passed

theorem Skips.readLines (h : Skips heads reader) {ls : List String} (hls : ∀ l ∈ ls, Passed heads l) :
    Source.readLines reader ls = [] :=
  readLines_eq_nil fun l hl => h l (hls l hl)

end

end MachineBundle.Source
