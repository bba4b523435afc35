import HostTree.Path

/-!
Paths within a path. A joined name is one component more, and joined names stay apart: no path leads
into two directories that are next to each other.
-/

namespace HostTree

namespace Path

/-- Whether octets can be one component of a path. -/
def IsName (name : Octets) : Prop :=
  name ≠ [] ∧ Octets.slash ∉ name

instance : DecidablePred IsName := fun name =>
  inferInstanceAs (Decidable (name ≠ [] ∧ Octets.slash ∉ name))

/-- The paths that one gets to from a path by joining names to it. -/
inductive Within (path : Path) : Path → Prop where
  | here : Within path path
  | join {inner : Path} {name : Octets} (hInner : Within path inner) (hName : IsName name) :
      Within path (inner.join name)

theorem Within.trans {path inner innermost : Path} (hInner : path.Within inner)
    (hInnermost : inner.Within innermost) : path.Within innermost := by
  induction hInnermost with
  | here => exact hInner
  | join _ hName ih => exact ih.join hName

theorem Within.of_join {path inner : Path} {name : Octets} (hName : IsName name)
    (hInner : (path.join name).Within inner) : path.Within inner :=
  (Within.join .here hName).trans hInner

/-- A path to which a name has been joined does not end in a slash. -/
theorem exists_getLast?_join (path : Path) {name : Octets} (hName : IsName name) :
    ∃ last, (path.join name).octets.getLast? = some last ∧ last ≠ Octets.slash := by
  refine ⟨name.getLast hName.1, ?_, ?_⟩
  · rw [octets_join, ← List.append_assoc, List.getLast?_append,
      List.getLast?_eq_some_getLast hName.1, Option.some_or]
  · intro hEq
    exact hName.2 (hEq ▸ List.getLast_mem hName.1)

theorem endsInSlash_join (path : Path) {name : Octets} (hName : IsName name) :
    (path.join name).endsInSlash = false := by
  obtain ⟨last, hLast, hSlash⟩ := exists_getLast?_join path hName
  simp [endsInSlash, hLast, hSlash]

/-- Behind a name that has been joined there has to be a slash. -/
theorem separator_join (path : Path) {name : Octets} (hName : IsName name) :
    (path.join name).separator = [Octets.slash] := by
  obtain ⟨last, hLast, hSlash⟩ := exists_getLast?_join path hName
  simp [separator, hLast, hSlash]

/-- Joining a name makes a path longer. -/
theorem length_lt_join (path : Path) {name : Octets} (hName : IsName name) :
    path.octets.length < (path.join name).octets.length := by
  have hLength := List.length_pos_iff.2 hName.1
  rw [octets_join, List.length_append, List.length_append]
  omega

theorem Within.length_le {path inner : Path} (hInner : path.Within inner) :
    path.octets.length ≤ inner.octets.length := by
  induction hInner with
  | here => exact Nat.le_refl _
  | join _ hName ih => exact Nat.le_trans ih (Nat.le_of_lt (length_lt_join _ hName))

/-- A path is not within one that a name has been joined to it for. -/
theorem Within.ne_of_join {path inner : Path} {name : Octets} (hName : IsName name)
    (hInner : (path.join name).Within inner) : inner ≠ path := by
  rintro rfl
  have hLength := length_lt_join inner hName
  have hWithin := hInner.length_le
  omega

/-- Within a joined name, what follows the name begins with a slash. -/
theorem Within.exists_octets {path inner : Path} {name : Octets} (hName : IsName name)
    (hInner : (path.join name).Within inner) :
    inner.separator = [Octets.slash] ∧ ∃ rest, inner.octets = (path.join name).octets ++ rest ∧
      (rest = [] ∨ ∃ behind, rest = Octets.slash :: behind) := by
  induction hInner with
  | here => exact ⟨separator_join path hName, [], by simp⟩
  | @join inner other _ hOther ih =>
      obtain ⟨hSeparator, rest, hRest, hSlash⟩ := ih
      refine ⟨separator_join inner hOther, rest ++ (Octets.slash :: other), ?_, ?_⟩
      · rw [octets_join inner, hSeparator, hRest, List.append_assoc, List.singleton_append]
      · rcases hSlash with rfl | ⟨behind, rfl⟩
        · exact Or.inr ⟨other, rfl⟩
        · exact Or.inr ⟨behind ++ (Octets.slash :: other), rfl⟩

theorem takeWhile_name {name rest : Octets} (hName : IsName name)
    (hRest : rest = [] ∨ ∃ behind, rest = Octets.slash :: behind) :
    (name ++ rest).takeWhile (· ≠ Octets.slash) = name := by
  have hOther : ∀ octet ∈ name, decide (octet ≠ Octets.slash) = true := by
    intro octet hOctet
    exact decide_eq_true fun hEq => hName.2 (hEq ▸ hOctet)
  rw [List.takeWhile_append_of_pos hOther]
  rcases hRest with rfl | ⟨behind, rfl⟩
  · simp
  · simp

/-- No path is within two names of one directory. -/
theorem eq_of_within_join {path inner : Path} {name other : Octets} (hName : IsName name)
    (hOther : IsName other) (hInner : (path.join name).Within inner)
    (hInnerOther : (path.join other).Within inner) : name = other := by
  obtain ⟨-, rest, hOctets, hRest⟩ := hInner.exists_octets hName
  obtain ⟨-, otherRest, hOtherOctets, hOtherRest⟩ := hInnerOther.exists_octets hOther
  have hSame : name ++ rest = other ++ otherRest := by
    rw [hOctets, octets_join, octets_join] at hOtherOctets
    simpa using hOtherOctets
  rw [← takeWhile_name hName hRest, hSame, takeWhile_name hOther hOtherRest]

theorem within_foldl_join (path : Path) {names : List Octets}
    (hNames : ∀ name ∈ names, IsName name) : path.Within (names.foldl join path) := by
  induction names generalizing path with
  | nil => exact .here
  | cons name rest ih =>
      rw [List.forall_mem_cons] at hNames
      exact (ih (path.join name) hNames.2).of_join hNames.1

/-- A way down a tree can be read off the path it leads to. -/
theorem eq_of_foldl_join_eq (path : Path) {names others : List Octets}
    (hNames : ∀ name ∈ names, IsName name) (hOthers : ∀ name ∈ others, IsName name)
    (hSame : names.foldl join path = others.foldl join path) : names = others := by
  induction names generalizing path others with
  | nil =>
      cases others with
      | nil => rfl
      | cons other others =>
          rw [List.forall_mem_cons] at hOthers
          exact absurd hSame.symm ((within_foldl_join _ hOthers.2).ne_of_join hOthers.1)
  | cons name names ih =>
      rw [List.forall_mem_cons] at hNames
      have hWithin := within_foldl_join (path.join name) hNames.2
      cases others with
      | nil => exact absurd hSame (hWithin.ne_of_join hNames.1)
      | cons other others =>
          rw [List.forall_mem_cons] at hOthers
          rw [List.foldl_cons] at hSame
          have hOther := within_foldl_join (path.join other) hOthers.2
          rw [← List.foldl_cons, ← hSame] at hOther
          obtain rfl := eq_of_within_join hNames.1 hOthers.1 hWithin hOther
          rw [ih (path.join name) hNames.2 hOthers.2 hSame]

theorem components_name {name : Octets} (hName : IsName name) :
    (⟨name⟩ : Path).components = [name] := by
  simp [components, Octets.cut_of_notMem hName.2, hName.1]

theorem components_of_octets_eq {path : Path} {before behind : Octets}
    (hOctets : path.octets = before ++ Octets.slash :: behind) :
    path.components = (⟨before⟩ : Path).components ++ (⟨behind⟩ : Path).components := by
  rw [components, hOctets, Octets.cut_append, List.filter_append]
  rfl

/-- A joined name is one component more. -/
theorem components_join (path : Path) {name : Octets} (hName : IsName name) :
    (path.join name).components = path.components ++ [name] := by
  rw [← components_name hName]
  obtain ⟨octets⟩ := path
  rcases List.eq_nil_or_concat octets with rfl | ⟨before, last, rfl⟩
  · rfl
  · by_cases hSlash : last = Octets.slash
    · -- The slash at the end of the path serves as the one in front of the name.
      subst hSlash
      have hJoin : ((⟨before.concat Octets.slash⟩ : Path).join name).octets =
          before ++ Octets.slash :: name := by
        simp [join, separator]
      have hPath : (⟨before.concat Octets.slash⟩ : Path).octets = before ++ Octets.slash :: [] :=
        List.concat_eq_append
      rw [components_of_octets_eq hJoin, components_of_octets_eq hPath, List.append_assoc]
      rfl
    · refine components_of_octets_eq ?_
      simp [join, separator, hSlash]

theorem isAbsolute_join {path : Path} (hPath : path.octets ≠ []) (name : Octets) :
    (path.join name).isAbsolute = path.isAbsolute := by
  obtain ⟨octet, rest, hOctets⟩ := List.exists_cons_of_ne_nil hPath
  simp [isAbsolute, octets_join, hOctets]

/-- The name that was joined to a directory's path, if one was. -/
def nameIn (directory path : Path) : Octets :=
  path.octets.drop (directory.octets ++ directory.separator).length

theorem nameIn_join (directory : Path) (name : Octets) :
    directory.nameIn (directory.join name) = name := by
  rw [nameIn, octets_join, ← List.append_assoc, List.drop_left]

end Path

end HostTree
