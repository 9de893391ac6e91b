import Mathlib.Data.List.Nodup
import MachineBundle.Proofs.Source.Heads

/-!
# Guards of headers

A header begins with a guard, and where a guard is met a second time the header is passed over. In C the guards are made of
constants, and in these different names can be the same; in Objective-C++ names stand in guards as they are.
-/

namespace MachineBundle.Source

/-- The guard of a header. -/
def guard? : LineReader String :=
  between? "#ifndef " ""

/-- The headers that are read if some are included one after the other: those with a guard that is not known yet. -/
def readOnce (known : List String) : List (List String) → List (List String)
  | [] => []
  | header :: rest =>
    if (readLines guard? header).any known.contains then readOnce known rest
    else header :: readOnce (known ++ readLines guard? header) rest

/-- Names between fixed parts are as different as the names. -/
theorem surround_injective (head tail : String) : Function.Injective fun name => head ++ name ++ tail := by
  intro name name' h
  rw [← String.toList_inj] at h ⊢
  simpa using h

theorem needs_guard : Needs ["#ifndef "] guard? :=
  needs_between _ _

/-- A header tells its guard, if no line but the one below its comment begins as guards do. -/
theorem readLines_guard (file guard : String) {rest : List String} (hrest : ∀ l ∈ rest, Headless ["#ifndef "] l) :
    readLines guard? (banner file ++ ("#ifndef " ++ guard) :: rest) = [guard] := by
  have hbanner : ∀ l ∈ banner file, Headless ["#ifndef "] l := by
    unfold banner
    simp only [List.forall_mem_cons, List.not_mem_nil, false_implies, implies_true, and_true]
    and_intros
    all_goals with_reducible first
      | exact headless_ofList _ (by decide)
      | exact headless_append _ _ (by decide)
  have hguard : guard? ("#ifndef " ++ guard).toList = some guard := by
    have hread := between?_append "#ifndef " guard ""
    rwa [String.append_empty] at hread
  rw [readLines_append, needs_guard.readLines hbanner, readLines_cons_some hguard, needs_guard.readLines hrest]
  rfl

/-! ## Headers that are read -/

theorem readOnce_sublist (known : List String) (headers : List (List String)) :
    (readOnce known headers).Sublist headers := by
  induction headers generalizing known with
  | nil => exact .slnil
  | cons header rest ih =>
    rw [readOnce]
    split
    · exact (ih known).cons header
    · exact (ih _).cons_cons header

/-- All headers are read, if their guards differ from one another and from those that are known. -/
theorem readOnce_eq_self_iff {headers : List (List String)} (h : ∀ header ∈ headers, ∃ g, readLines guard? header = [g])
    (known : List String) : readOnce known headers = headers ↔
      (headers.flatMap (readLines guard?)).Nodup ∧ ∀ g ∈ headers.flatMap (readLines guard?), g ∉ known := by
  induction headers generalizing known with
  | nil => simp [readOnce]
  | cons header rest ih =>
    obtain ⟨g, hg⟩ := h header List.mem_cons_self
    rw [readOnce, hg, List.flatMap_cons, hg, List.singleton_append, List.nodup_cons, List.forall_mem_cons]
    by_cases hknown : g ∈ known
    · -- the header is passed over, so fewer are read than there are
      rw [if_pos (by simpa using hknown)]
      refine iff_of_false (fun he => ?_) fun hall => hall.2.1 hknown
      have hlength := (readOnce_sublist known rest).length_le
      rw [he, List.length_cons] at hlength
      omega
    · rw [if_neg (by simpa using hknown), List.cons_inj_right, ih fun other ho => h other (List.mem_cons_of_mem header ho)]
      simp only [List.mem_append, List.mem_singleton, not_or]
      constructor
      · rintro ⟨hnodup, hnone⟩
        exact ⟨⟨fun hm => (hnone _ hm).2 rfl, hnodup⟩, hknown, fun g hg => (hnone g hg).1⟩
      · rintro ⟨⟨hnew, hnodup⟩, -, hnone⟩
        exact ⟨hnodup, fun g hg => ⟨hnone g hg, fun he => hnew (he ▸ hg)⟩⟩

/-! ## Guards in C -/

namespace C

variable {m : MachinePlan} {s : StatePlan}

/-- `MACHINE`, any number of times, with low lines between. -/
inductive MachineOnly : String → Prop
  | once : MachineOnly "MACHINE"
  | again {rest : String} : MachineOnly rest → MachineOnly ("MACHINE_" ++ rest)

/-- The low line of the word is its last character. -/
theorem eq_of_split {x z : List Char} (h : "MACHINE_".toList = x ++ '_' :: z) : x = "MACHINE".toList ∧ z = [] := by
  have honly : ∀ i : Fin 8, "MACHINE_".toList[i]? = some '_' → i = 7 := by decide
  have hlength : x.length < 8 := by
    have hl := congrArg List.length h
    rw [List.length_append, List.length_cons] at hl
    have h8 : "MACHINE_".toList.length = 8 := rfl
    omega
  have hlast : x.length = 7 := by
    have hi := honly ⟨x.length, hlength⟩ (by rw [h]; simp)
    exact congrArg Fin.val hi
  have hsplit : "MACHINE".toList ++ ['_'] = x ++ '_' :: z := h
  obtain ⟨hx, hz⟩ := List.append_inj hsplit (by rw [hlast]; rfl)
  exact ⟨hx.symm, (List.cons.inj hz).2.symm⟩

/-- By induction on the length: a text that goes on in the same way after the word has the same property without it. -/
theorem machineOnly_of_swap (n : Nat) {x y : List Char} (hn : x.length ≤ n)
    (h : "MACHINE_".toList ++ x = x ++ '_' :: y) : MachineOnly (String.ofList x) ∧ y = "MACHINE".toList := by
  induction n generalizing x with
  | zero =>
    rw [List.eq_nil_of_length_eq_zero (Nat.le_zero.mp hn)] at h
    exact absurd (List.cons.inj h).1 (by decide)
  | succ n ih =>
    have hx : x <+: "MACHINE_".toList ++ x := h ▸ List.prefix_append x _
    rcases List.prefix_or_prefix_of_prefix hx (List.prefix_append _ _) with ⟨z, hz⟩ | ⟨x', rfl⟩
    · rw [← hz, List.append_assoc, List.append_cancel_left_eq] at h
      cases z with
      | nil =>
        rw [List.append_nil] at hz
        rw [hz] at h
        exact absurd (List.cons.inj h).1 (by decide)
      | cons c z =>
        obtain ⟨rfl, hy⟩ := List.cons.inj h
        obtain ⟨rfl, rfl⟩ := eq_of_split hz.symm
        exact ⟨.once, hy.symm⟩
    · rw [List.append_assoc, List.append_cancel_left_eq] at h
      have hlength : x'.length ≤ n := by
        rw [List.length_append] at hn
        have h8 : "MACHINE_".toList.length = 8 := rfl
        omega
      obtain ⟨hx', hy⟩ := ih hlength h
      refine ⟨?_, hy⟩
      have he : String.ofList ("MACHINE_".toList ++ x') = "MACHINE_" ++ String.ofList x' := by
        rw [← String.toList_inj]
        simp
      rw [he]
      exact hx'.again

theorem swap_of_machineOnly {c : String} (h : MachineOnly c) : "MACHINE_" ++ c = c ++ "_MACHINE" := by
  induction h with
  | once => rfl
  | again _ ih => rw [ih, ← String.append_assoc, ih, String.append_assoc]

def machineGuard (m : MachinePlan) : String :=
  "LLFSM_MACHINE_" ++ m.constant ++ "_H"

def stateGuard (m : MachinePlan) (s : StatePlan) : String :=
  "LLFSM_" ++ m.constant ++ "_" ++ s.constant ++ "_H"

theorem readLines_guard_machineHeader (m : MachinePlan) : readLines guard? (machineHeader m) = [machineGuard m] := by
  have hguard : "#ifndef LLFSM_MACHINE_" ++ m.constant ++ "_H" = "#ifndef " ++ machineGuard m := by
    rw [← String.toList_inj]
    simp [machineGuard]
  unfold machineHeader
  rw [hguard, List.append_assoc, List.append_assoc]
  refine readLines_guard _ _ ?_
  simp only [List.append_eq, List.forall_mem_append, List.forall_mem_cons, forall_mem_onlyIf, List.not_mem_nil, false_implies,
    implies_true, and_true, imp_and, String.append_assoc]
  and_intros
  all_goals try refine fun (_ : m.isSuspensible = true) => ?_
  all_goals with_reducible first
    | exact headless_ofList _ (by decide)
    | exact headless_append _ _ (by decide)

theorem readLines_guard_stateHeader (m : MachinePlan) (s : StatePlan) :
    readLines guard? (stateHeader m s) = [stateGuard m s] := by
  have hguard : "#ifndef LLFSM_" ++ m.constant ++ "_" ++ s.constant ++ "_H" = "#ifndef " ++ stateGuard m s := by
    rw [← String.toList_inj]
    simp [stateGuard]
  have hconstant : ∀ constant n, Headless ["#ifndef "] (numberLine m s constant n) := by
    intro constant n
    unfold numberLine constantStem
    simp only [String.append_assoc]
    with_reducible exact headless_append _ _ (by decide)
  have htargets : ∀ l ∈ s.transitions.filterMap (targetLine? m s), Headless ["#ifndef "] l := by
    intro l hl
    obtain ⟨t, _, ht⟩ := List.mem_filterMap.mp hl
    obtain ⟨n, _, rfl⟩ := Option.map_eq_some_iff.mp ht
    exact hconstant _ n
  unfold stateHeader stateHeaderTop stateStructure stateHeaderEnd
  rw [hguard]
  simp only [List.append_assoc]
  refine readLines_guard _ _ ?_
  simp only [List.append_eq, List.forall_mem_append, List.forall_mem_cons, forall_mem_onlyIf, List.not_mem_nil, false_implies,
    implies_true, and_true, imp_and, String.append_assoc]
  and_intros
  all_goals try refine fun (_ : m.isSuspensible = true) => ?_
  all_goals with_reducible first
    | exact htargets
    | exact hconstant _ _
    | exact headless_ofList _ (by decide)
    | exact headless_append _ _ (by decide)

theorem machineGuard_eq_stateGuard_iff :
    machineGuard m = stateGuard m s ↔ MachineOnly m.constant ∧ s.constant = "MACHINE" := by
  have hswap : machineGuard m = stateGuard m s ↔
      "MACHINE_".toList ++ m.constant.toList = m.constant.toList ++ '_' :: s.constant.toList := by
    have hmachine : (machineGuard m).toList = "LLFSM_".toList ++ ("MACHINE_".toList ++ m.constant.toList ++ "_H".toList) := by
      simp [machineGuard]
    have hstate : (stateGuard m s).toList =
        "LLFSM_".toList ++ (m.constant.toList ++ '_' :: s.constant.toList ++ "_H".toList) := by
      simp [stateGuard]
    rw [← String.toList_inj, hmachine, hstate, List.append_cancel_left_eq, List.append_cancel_right_eq]
  rw [hswap]
  constructor
  · intro h
    obtain ⟨hm, hs⟩ := machineOnly_of_swap _ le_rfl h
    rw [String.ofList_toList] at hm
    exact ⟨hm, String.toList_inj.mp hs⟩
  · rintro ⟨hm, hs⟩
    rw [hs, ← String.toList_append, swap_of_machineOnly hm, String.toList_append]
    rfl

/-- The guards in C differ, if the constants of the states do and none of these is a repetition of the machine's. -/
theorem nodup_guards_iff (m : MachinePlan) : (machineGuard m :: m.states.map (stateGuard m)).Nodup ↔
    (m.states.map StatePlan.constant).Nodup ∧ ¬(MachineOnly m.constant ∧ "MACHINE" ∈ m.states.map StatePlan.constant) := by
  have hstates : m.states.map (stateGuard m) =
      (m.states.map StatePlan.constant).map fun c => "LLFSM_" ++ m.constant ++ "_" ++ c ++ "_H" := by
    rw [List.map_map]
    rfl
  have hmachine : machineGuard m ∈ m.states.map (stateGuard m) ↔
      MachineOnly m.constant ∧ "MACHINE" ∈ m.states.map StatePlan.constant := by
    simp only [List.mem_map, eq_comm (b := machineGuard m), machineGuard_eq_stateGuard_iff]
    exact ⟨fun ⟨s, hs, hm, hc⟩ => ⟨hm, s, hs, hc⟩, fun ⟨hm, s, hs, hc⟩ => ⟨s, hs, hm, hc⟩⟩
  rw [List.nodup_cons, hmachine, hstates, List.nodup_map_iff (surround_injective _ _), and_comm]

end C

/-! ## Guards in Objective-C++ -/

namespace ObjectiveCpp

variable {m : MachinePlan} {s : StatePlan}

def machineGuard (m : MachinePlan) : String :=
  "clfsm_machine_" ++ m.name ++ "_"

def stateGuard (m : MachinePlan) (s : StatePlan) : String :=
  "clfsm_" ++ m.name ++ "_State_" ++ s.name ++ "_h"

theorem readLines_guard_machineHeader (m : MachinePlan) : readLines guard? (machineHeader m) = [machineGuard m] := by
  have hguard : "#ifndef clfsm_machine_" ++ m.name ++ "_" = "#ifndef " ++ machineGuard m := by
    rw [← String.toList_inj]
    simp [machineGuard]
  unfold machineHeader
  rw [hguard]
  refine readLines_guard _ _ ?_
  simp only [List.forall_mem_cons, List.not_mem_nil, false_implies, implies_true, and_true, String.append_assoc]
  and_intros
  all_goals with_reducible first
    | exact headless_ofList _ (by decide)
    | exact headless_append _ _ (by decide)

theorem readLines_guard_stateHeader (m : MachinePlan) (s : StatePlan) :
    readLines guard? (stateHeader m s) = [stateGuard m s] := by
  have hguard : "#ifndef clfsm_" ++ m.name ++ "_State_" ++ s.name ++ "_h" = "#ifndef " ++ stateGuard m s := by
    rw [← String.toList_inj]
    simp [stateGuard]
  have hactions : ∀ action, ∀ l ∈ actionClass action, Headless ["#ifndef "] l :=
    fun action l hl => (headless_actionClass action l hl).mono (by simp [outerHeads])
  have htransitions : ∀ t, ∀ l ∈ transitionClass t, Headless ["#ifndef "] l :=
    fun t l hl => (headless_transitionClass t l hl).mono (by simp [outerHeads])
  unfold stateHeader stateHeaderTop stateMethods countLine stateHeaderEnd
  rw [hguard]
  simp only [List.append_assoc]
  refine readLines_guard _ _ ?_
  simp only [List.append_eq, List.forall_mem_append, List.forall_mem_cons, List.forall_mem_flatMap, forall_mem_onlyIf,
    List.not_mem_nil, false_implies, implies_true, and_true, imp_and, String.append_assoc]
  and_intros
  all_goals try refine fun (_ : m.isSuspensible = true) => ?_
  all_goals with_reducible first
    | exact hactions _
    | exact fun t _ => htransitions t
    | exact headless_ofList _ (by decide)
    | exact headless_append _ _ (by decide)

/-- The guards in Objective-C++ differ, if the names of the states do. -/
theorem nodup_guards_iff (m : MachinePlan) : (machineGuard m :: m.states.map (stateGuard m)).Nodup ↔
    (m.states.map StatePlan.name).Nodup := by
  have hstates : m.states.map (stateGuard m) =
      (m.states.map StatePlan.name).map fun name => "clfsm_" ++ m.name ++ "_State_" ++ name ++ "_h" := by
    rw [List.map_map]
    rfl
  have hmachine : machineGuard m ∉ m.states.map (stateGuard m) := by
    intro hm
    obtain ⟨s, -, hs⟩ := List.mem_map.mp hm
    have hstate : (stateGuard m s).toList.getLast? = some 'h' :=
      getLast?_append_ofList _ (show ['_', 'h'].getLast? = some 'h' from rfl)
    have hend : (machineGuard m).toList.getLast? = some '_' :=
      getLast?_append_ofList _ (show ['_'].getLast? = some '_' from rfl)
    rw [hs, hend] at hstate
    cases hstate
  rw [List.nodup_cons, and_iff_right hmachine, hstates, List.nodup_map_iff (surround_injective _ _)]

end ObjectiveCpp

/-! ## Headers that are included -/

/-- The header that a line includes. -/
def included? : LineReader String :=
  between? "#include \"" "\""

theorem skips_included : Skips ["#include \""] included? :=
  (needs_between _ _).skips (ends_between _ rfl) (by decide)

/-- The lines below the comment of an implementation tell which headers it includes: that of the machine, and those of the
states in order. -/
theorem readLines_includes (m : MachinePlan) {rest : List String} (hrest : ∀ l ∈ rest, Passed ["#include \""] l) :
    readLines included? (banner m.implementationFile ++ (["#include \"" ++ m.headerFile ++ "\""] ++
        (m.states.map (fun s => "#include \"State_" ++ s.name ++ ".h\"") ++ rest))) =
      m.headerFile :: m.states.map fun s => Binding.stateHeaderFile s.name := by
  have hbanner : ∀ l ∈ banner m.implementationFile, Headless ["#include \""] l := by
    unfold banner
    simp only [List.forall_mem_cons, List.not_mem_nil, false_implies, implies_true, and_true]
    and_intros
    all_goals with_reducible first
      | exact headless_ofList _ (by decide)
      | exact headless_append _ _ (by decide)
  have hmachine : included? ("#include \"" ++ m.headerFile ++ "\"").toList = some m.headerFile := between?_append _ _ _
  have hstate : ∀ s : StatePlan, included? ("#include \"State_" ++ s.name ++ ".h\"").toList =
      some (Binding.stateHeaderFile s.name) := by
    intro s
    have hl : "#include \"State_" ++ s.name ++ ".h\"" = "#include \"" ++ Binding.stateHeaderFile s.name ++ "\"" := by
      rw [← String.toList_inj]
      simp [Binding.stateHeaderFile, Binding.stateStem]
    rw [hl]
    exact between?_append _ _ _
  rw [readLines_append, skips_included.needs.readLines hbanner, List.nil_append, readLines_append,
    readLines_cons_some hmachine, readLines_append, readLines_map fun s _ => hstate s, skips_included.readLines hrest,
    List.append_nil]
  rfl

theorem forall_mem_mapIdx {α β : Type} {f : Nat → α → β} {as : List α} {P : β → Prop} :
    (∀ b ∈ as.mapIdx f, P b) ↔ ∀ (i : Nat) (h : i < as.length), P (f i as[i]) := by
  simp only [List.mem_mapIdx]
  exact ⟨fun h i hi => h _ ⟨i, hi, rfl⟩, fun h b ⟨i, hi, hb⟩ => hb ▸ h i hi⟩

theorem C.readLines_included (m : MachinePlan) : readLines included? (C.machineImplementation m) =
    m.headerFile :: m.states.map fun s => Binding.stateHeaderFile s.name := by
  unfold machineImplementation implementationTop stateAssignments suspendLines assignment
  simp only [List.append_assoc]
  refine readLines_includes m ?_
  simp only [List.forall_mem_append, List.forall_mem_cons, forall_mem_onlyIf, forall_mem_mapIdx,
    List.not_mem_nil, false_implies, implies_true, and_true, imp_and, String.append_assoc]
  and_intros
  all_goals try refine fun (_ : m.isSuspensible = true) => ?_
  all_goals try refine fun i (_ : i < m.states.length) => ?_
  all_goals with_reducible
    refine Headless.passed ?_
    first
      | exact headless_ofList _ (by decide)
      | exact headless_append _ _ (by decide)

theorem ObjectiveCpp.readLines_included (m : MachinePlan) : readLines included? (ObjectiveCpp.machineImplementation m) =
    m.headerFile :: m.states.map fun s => Binding.stateHeaderFile s.name := by
  have hsuspend : ∀ i, Headless ["#include \""] (suspendLine i) := by
    intro i
    unfold suspendLine
    cases i
    all_goals
      simp only [String.append_assoc]
      with_reducible first
        | exact headless_ofList _ (by decide)
        | exact headless_append _ _ (by decide)
  unfold machineImplementation implementationTop stateCreations implementationEnd
  simp only [List.append_assoc]
  refine readLines_includes m ?_
  simp only [List.forall_mem_append, List.forall_mem_cons, forall_mem_onlyIf, forall_mem_mapIdx,
    List.not_mem_nil, false_implies, implies_true, and_true]
  and_intros
  all_goals try refine fun (_ : m.isSuspensible = true) => ?_
  all_goals try refine fun i (_ : i < m.states.length) => ?_
  all_goals with_reducible first
    | exact (hsuspend _).passed
    | exact passed_of_parenthesis _ _ (by decide)
    | refine Headless.passed ?_
      repeat rw [String.append_assoc]
      first
        | exact headless_ofList _ (by decide)
        | exact headless_append _ _ (by decide)

end MachineBundle.Source
