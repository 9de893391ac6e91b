import MachineBundle.Proofs.Tree.Locate

/-!
# Asking what stands at a path

A question about a path is answered unless the path or one of its components is too long. A path to a directory that is
there has none that is, and neither has a short name in it.
-/

namespace MachineBundle

/-! ## Names without slashes -/

namespace Path

/-- A text without slashes is a component, or it is dropped. -/
theorem ofText_of_not_mem {n : String} (h : '/' ∉ n.toList) :
    ofText n = ⟨.none, if isComponent n.toList then [n] else []⟩ := by
  have hhead : n.toList.head? ≠ some '/' := fun hh => h (List.mem_of_mem_head? (Option.mem_def.mpr hh))
  unfold ofText components
  rw [anchorOf_of_head hhead, pieces_of_not_mem h]
  cases hc : isComponent n.toList <;> simp [hc]

theorem join_of_not_mem (p : Path) {n : String} (h : '/' ∉ n.toList) :
    p.join n = ⟨p.anchor, p.parts ++ if isComponent n.toList then [n] else []⟩ := by
  rw [join, ofText_of_not_mem h]
  rfl

/-- What a text says after a name and a slash leads on from there, even if it has more slashes in front. -/
theorem ofText_below {d : String} (hd : IsName d) (s : String) :
    ofText (d ++ "/" ++ s) = ⟨.none, d :: (ofText s).parts⟩ := by
  have hl : (d ++ "/" ++ s).toList = d.toList ++ '/' :: s.toList := by simp
  have hh : (d.toList ++ '/' :: s.toList).head? ≠ some '/' := by
    have hs := hd.head
    cases he : d.toList with
    | nil =>
      have hc := hd.isComponent
      rw [he] at hc
      cases hc
    | cons c r =>
      rw [he] at hs
      exact hs
  unfold ofText components
  rw [hl, anchorOf_of_head hh, pieces_append hd.noSlash]
  simp [hd.isComponent]

/-- A path is not longer than one that leads on from it. -/
theorem text_lt_of_join {p : Path} {n : String} (h : IsName n) (hlimit : (p.join n).text.utf8ByteSize < Tree.pathLimit) :
    p.text.utf8ByteSize < Tree.pathLimit := by
  by_cases hp : p.parts = []
  · obtain ⟨anchor, parts⟩ := p
    obtain rfl : parts = [] := hp
    cases anchor <;> decide
  · rw [utf8ByteSize_text_join_of_ne hp h] at hlimit
    omega

end Path

namespace Tree

variable {t : Tree} {p : Path}

/-! ## Components that are too long -/

/-- Components that lead to a directory are not too long. -/
theorem reach_fits {ps : List String} {here d : Location} (h : t.reach here ps = some d) :
    ∀ part ∈ ps, part.utf8ByteSize ≤ nameLimit := by
  induction ps generalizing here with
  | nil => exact fun part hpart => absurd hpart List.not_mem_nil
  | cons name rest ih =>
    unfold reach at h
    split at h
    · cases h
    split at h
    · rename_i hdots
      refine List.forall_mem_cons.mpr ⟨?_, ih h⟩
      rw [hdots]
      decide
    split at h
    · cases h
    · rename_i hsize
      exact List.forall_mem_cons.mpr ⟨Nat.not_lt.mp hsize, ih h⟩

theorem follow_ne_tooLong {ps : List String} (h : ∀ part ∈ ps, part.utf8ByteSize ≤ nameLimit) (here : Location) :
    t.follow here ps ≠ .error .nameTooLong := by
  induction ps generalizing here with
  | nil =>
    unfold follow
    split <;> simp
  | cons name rest ih =>
    obtain ⟨hname, hrest⟩ := List.forall_mem_cons.mp h
    unfold follow
    split
    · simp
    · simp
    split
    · exact ih hrest _
    rw [if_neg (Nat.not_lt.mpr hname)]
    split
    · simp
    · exact ih hrest _

/-! ## Answers -/

/-- There is an answer if nothing is too long. -/
theorem look_of_fits (hlimit : p.text.utf8ByteSize < pathLimit) (h : ∀ part ∈ p.parts, part.utf8ByteSize ≤ nameLimit) :
    ∃ n?, t.look p = .ok n? := by
  unfold look
  split
  · exact ⟨none, rfl⟩
  rw [place_eq, if_neg (Nat.not_le.mpr hlimit)]
  split
  · exact ⟨_, rfl⟩
  · exact ⟨_, rfl⟩
  · rename_i hf
    exact absurd hf (follow_ne_tooLong h _)
  · exact ⟨_, rfl⟩

/-- A path that is too long leads nowhere, not even to the answer that nothing is there. -/
theorem look_too_long (hnull : hasNull p = false) (hlimit : pathLimit ≤ p.text.utf8ByteSize) :
    t.look p = .error (.refused .nameTooLong p.text) := by
  unfold look
  rw [hnull, place_eq, if_pos hlimit]
  rfl

/-- A name that is too long is not to be asked about in a directory that is there. -/
theorem look_long_name {d : Location} {name : String} (hname : Path.IsName name) (hd : t.directory? p = some d)
    (hnull : hasNull (p.join name) = false) (hlong : nameLimit < name.utf8ByteSize) :
    t.look (p.join name) = .error (.refused .nameTooLong (p.join name).text) := by
  have hfollow : t.follow (t.start (p.join name)) (p.join name).parts = .error .nameTooLong := by
    rw [Path.join_name p hname]
    exact follow_long_name hd hlong
  unfold look
  rw [hnull, place_eq, hfollow, ite_self]
  rfl

theorem isDirectory_of_fits (hnull : hasNull p = false) (hlimit : p.text.utf8ByteSize < pathLimit)
    (h : ∀ part ∈ p.parts, part.utf8ByteSize ≤ nameLimit) : t.isDirectory p = .ok (t.directory? p).isSome := by
  obtain ⟨n?, hlook⟩ := look_of_fits (t := t) hlimit h
  obtain ⟨isThere, hd⟩ : ∃ isThere, t.isDirectory p = .ok isThere := ⟨_, by rw [isDirectory, hlook]; rfl⟩
  rw [hd]
  cases isThere with
  | true => rw [(isDirectory_eq_true.mp hd).2.2]
  | false =>
    cases hsome : (t.directory? p).isSome with
    | false => rfl
    | true =>
      rw [isDirectory_eq_true.mpr ⟨hnull, hlimit, hsome⟩] at hd
      cases hd

theorem holds_directory (h : t.isDirectory p = .ok true) : t.holds p = .ok true := by
  unfold isDirectory at h
  unfold holds
  cases hlook : t.look p with
  | error f =>
    rw [hlook] at h
    cases h
  | ok n? =>
    cases n? with
    | none =>
      rw [hlook] at h
      cases h
    | some n => rfl

theorem directory?_below (t : Tree) (p : Path) (ps : List String) :
    t.directory? ⟨p.anchor, p.parts ++ ps⟩ = (t.directory? p).bind fun d => t.reach d ps :=
  reach_append t p.parts ps _

/-- From a directory, a name leads to a directory exactly if one stands where the path leads. -/
theorem isSome_directory?_join {d : Location} (hd : t.directory? p = some d) {n : String} (h : '/' ∉ n.toList)
    (hsize : n.utf8ByteSize ≤ nameLimit) : (t.directory? (p.join n)).isSome = t.hasDirectory (t.locate (p.join n)) := by
  have hhere := reach_hasDirectory hd
  have hlocate : t.locate p = d := (directory?_eq_locate hd).symm
  rw [Path.join_of_not_mem p h]
  cases Path.isComponent n.toList with
  | false =>
    simp only [Bool.false_eq_true, if_false, List.append_nil]
    rw [hd, hlocate, hhere]
    rfl
  | true =>
    simp only [if_true]
    have hreach : t.directory? ⟨p.anchor, p.parts ++ [n]⟩ = t.reach d [n] := by
      rw [directory?_below, hd]
      rfl
    have hclimb : t.locate ⟨p.anchor, p.parts ++ [n]⟩ = climb d [n] := by
      rw [← hlocate]
      exact climb_append _ _ _
    rw [hreach, hclimb]
    by_cases hdots : n = ".."
    · simp only [reach, climb, hhere, hdots, Bool.not_true, Bool.false_eq_true, if_false, if_true]
      cases t.hasDirectory d.dropLast <;> rfl
    · rw [reach_singleton hhere hdots hsize, climb, if_neg hdots, climb]
      cases t.hasDirectory (d ++ [n]) <;> rfl

end Tree

end MachineBundle
