import Mathlib.Data.List.Nodup
import Mathlib.Data.List.Perm.Subperm
import MachineBundle.Proofs.Scan.Match

/-!
# Names of bounded length

File names are of bounded length. So there are only so many of them, and the numbers in them are short enough to be
read.
-/

namespace MachineBundle.Text

theorem length_le_utf8ByteSize (s : String) : s.toList.length ≤ s.utf8ByteSize := by
  have h : ∀ cs : List Char, cs.length ≤ (String.ofList cs).utf8ByteSize := by
    intro cs
    induction cs with
    | nil => simp
    | cons c r ih =>
      have hc : String.ofList (c :: r) = String.singleton c ++ String.ofList r := by
        rw [← String.toList_inj]
        simp
      have hp := c.utf8Size_pos
      rw [hc, String.utf8ByteSize_append, String.utf8ByteSize_singleton, List.length_cons]
      omega
  have hs := h s.toList
  rwa [String.ofList_toList] at hs

/-! ## Counting names -/

/-- A number for a text of plain characters. -/
def code : List Char → Nat
  | [] => 0
  | c :: r => 1000 * code r + (c.toNat + 1)

theorem code_lt {cs : List Char} (h : ∀ c ∈ cs, isPlain c = true) : code cs < 1000 ^ cs.length := by
  induction cs with
  | nil => decide
  | cons c r ih =>
    have hc := isPlain_lt (h c List.mem_cons_self)
    have hr := ih fun d hd => h d (List.mem_cons_of_mem c hd)
    rw [code, List.length_cons, Nat.pow_succ]
    omega

theorem code_injective {cs ds : List Char} (hc : ∀ c ∈ cs, isPlain c = true) (hd : ∀ c ∈ ds, isPlain c = true)
    (h : code cs = code ds) : cs = ds := by
  induction cs generalizing ds with
  | nil =>
    cases ds with
    | nil => rfl
    | cons d ds => simp [code] at h
  | cons c cs ih =>
    cases ds with
    | nil => simp [code] at h
    | cons d ds =>
      have hcl := isPlain_lt (hc c List.mem_cons_self)
      have hdl := isPlain_lt (hd d List.mem_cons_self)
      simp only [code] at h
      have hcd : c = d := Char.toNat_inj.mp (by omega)
      rw [hcd, ih (fun e he => hc e (List.mem_cons_of_mem c he)) (fun e he => hd e (List.mem_cons_of_mem d he))
        (by omega)]

/-- There are no more different names than their length allows. -/
theorem length_le_of_nodup {names : List String} {k : Nat} (hn : names.Nodup) (hp : ∀ n ∈ names, PlainText n)
    (hk : ∀ n ∈ names, n.utf8ByteSize ≤ k) : names.length ≤ 10 ^ (3 * k) := by
  have hcodes : (names.map fun n => code n.toList).Nodup := by
    refine (List.nodup_map_iff_inj_on hn).mpr fun a ha b hb hab => ?_
    exact String.toList_inj.mp (code_injective (hp a ha) (hp b hb) hab)
  have hsub : (names.map fun n => code n.toList) ⊆ List.range (10 ^ (3 * k)) := by
    intro i hi
    obtain ⟨n, hm, rfl⟩ := List.mem_map.mp hi
    have hlen := (length_le_utf8ByteSize n).trans (hk n hm)
    have hpow : 10 ^ (3 * k) = 1000 ^ k := by rw [Nat.pow_mul]
    rw [List.mem_range, hpow]
    exact (code_lt (hp n hm)).trans_le (Nat.pow_le_pow_right (by decide) hlen)
  have h := (hcodes.subperm hsub).length_le
  rwa [List.length_map, List.length_range] at h

end MachineBundle.Text

namespace MachineBundle.Scan

theorem pow_lt_digitLimit {k : Nat} (hk : k < digitLimit) : 10 ^ k < 10 ^ digitLimit :=
  Nat.pow_lt_pow_right (by decide) hk

end MachineBundle.Scan
