import HostTree.Proofs.Entry.Arranged
import Mathlib.Data.List.Basic

/-!
What arranging promises, said without arranging. A list is sorted stably by a key if the keys ascend
and the elements of each key stand as they stood; no other list is that. To sort by name and to move
directories to the front are both of this kind, one after the other.
-/

namespace HostTree

/-- Whether a list is another one sorted by a key, with the elements of each key in the order that
they had. -/
structure StablySorted {α κ : Type} [LE κ] [DecidableEq κ] (key : α → κ) (list sorted : List α) :
    Prop where
  perm : sorted.Perm list
  ascends : sorted.Pairwise fun first second => key first ≤ key second
  stable : ∀ k, sorted.filter (key · = k) = list.filter (key · = k)

namespace StablySorted

variable {α κ : Type} {key : α → κ} {list sorted other : List α}

theorem mem_iff_of_filter_eq [DecidableEq κ]
    (hGroups : ∀ k, sorted.filter (key · = k) = other.filter (key · = k)) (a : α) :
    a ∈ sorted ↔ a ∈ other := by
  have hGroup := congrArg (a ∈ ·) (hGroups (key a))
  simpa using hGroup

variable [LE κ]

/-- The keys of a list that ascends are at least that of its head. -/
theorem head_le {a b : α} {rest : List α}
    (hAscends : (a :: rest).Pairwise fun first second => key first ≤ key second)
    (hMem : b ∈ a :: rest) : key b = key a ∨ key a ≤ key b := by
  rcases List.mem_cons.1 hMem with rfl | hRest
  · exact Or.inl rfl
  · exact Or.inr ((List.pairwise_cons.1 hAscends).1 b hRest)

variable [DecidableEq κ]

/-- A list that ascends is known from the elements of each key. -/
theorem eq_of_filter_eq (hAntisymm : ∀ k l : κ, k ≤ l → l ≤ k → k = l)
    (hSorted : sorted.Pairwise fun first second => key first ≤ key second)
    (hOther : other.Pairwise fun first second => key first ≤ key second)
    (hGroups : ∀ k, sorted.filter (key · = k) = other.filter (key · = k)) : sorted = other := by
  have hMem := mem_iff_of_filter_eq hGroups
  induction sorted generalizing other with
  | nil =>
      cases other with
      | nil => rfl
      | cons b _ => exact absurd ((hMem b).2 List.mem_cons_self) List.not_mem_nil
  | cons a sorted ih =>
      cases other with
      | nil => exact absurd ((hMem a).1 List.mem_cons_self) List.not_mem_nil
      | cons b other =>
          have hKey : key a = key b := by
            rcases head_le hOther ((hMem a).1 List.mem_cons_self) with hSame | hLe
            · exact hSame
            · rcases head_le hSorted ((hMem b).2 List.mem_cons_self) with hSame | hGe
              · exact hSame.symm
              · exact hAntisymm _ _ hGe hLe
          -- Both heads are the first of their group, and it is the same group.
          obtain rfl : a = b := by
            have hGroup := hGroups (key b)
            simp only [List.filter_cons, hKey, decide_true, ↓reduceIte, List.cons.injEq] at hGroup
            exact hGroup.1
          have hRest : ∀ k, sorted.filter (key · = k) = other.filter (key · = k) := by
            intro k
            have hGroup := hGroups k
            rw [List.filter_cons, List.filter_cons] at hGroup
            split at hGroup
            · exact (List.cons.inj hGroup).2
            · exact hGroup
          rw [ih (List.pairwise_cons.1 hSorted).2 (List.pairwise_cons.1 hOther).2 hRest
            (mem_iff_of_filter_eq hRest)]

theorem refl (hAscends : list.Pairwise fun first second => key first ≤ key second) :
    StablySorted key list list :=
  ⟨.refl list, hAscends, fun _ => rfl⟩

/-- What is left out of a sorted list may have been left out before. -/
theorem filter (hSorted : StablySorted key list sorted) (p : α → Bool) :
    StablySorted key (list.filter p) (sorted.filter p) where
  perm := hSorted.perm.filter p
  ascends := hSorted.ascends.filter p
  stable k := by rw [List.filter_comm, hSorted.stable, List.filter_comm]

/-- There is one way only to sort a list stably. -/
theorem unique (hAntisymm : ∀ k l : κ, k ≤ l → l ≤ k → k = l)
    (hSorted : StablySorted key list sorted) (hOther : StablySorted key list other) :
    sorted = other :=
  eq_of_filter_eq hAntisymm hSorted.ascends hOther.ascends fun k =>
    (hSorted.stable k).trans (hOther.stable k).symm

end StablySorted

namespace Entry

theorem stablySorted_sortByName (entries : List Entry) :
    StablySorted name entries (sortByName entries) where
  perm := List.mergeSort_perm _ _
  ascends := (List.pairwise_mergeSort name_le_trans name_le_total entries).imp of_decide_eq_true
  stable name := by
    have hGroup : (entries.filter (·.name = name)).Pairwise fun first second =>
        decide (first.name ≤ second.name) = true := by
      apply List.pairwise_of_forall_mem_list
      intro first hFirst second hSecond
      have hName := of_decide_eq_true (List.mem_filter.1 hFirst).2
      rw [hName, of_decide_eq_true (List.mem_filter.1 hSecond).2]
      exact decide_eq_true (List.le_refl name)
    -- Sorting keeps the order of what is in order, and a group is as long as it was.
    have hKept := (List.sublist_mergeSort name_le_trans name_le_total hGroup
      List.filter_sublist).filter (·.name = name)
    rw [List.filter_filter] at hKept
    simp only [Bool.and_self] at hKept
    exact (hKept.eq_of_length ((List.mergeSort_perm entries _).filter _).length_eq.symm).symm

theorem stablySorted_directoriesFirst (entries : List Entry) :
    StablySorted (!leadsToDirectory ·) entries (directoriesFirst entries) where
  perm := List.filter_append_perm _ _
  ascends := by
    refine List.pairwise_append.2 ⟨?_, ?_, ?_⟩
    · apply List.pairwise_of_forall_mem_list
      intro first hFirst second _
      simp [(List.mem_filter.1 hFirst).2]
    · apply List.pairwise_of_forall_mem_list
      intro first _ second hSecond
      rw [(List.mem_filter.1 hSecond).2]
      exact Bool.le_true _
    · intro first hFirst second _
      simp [(List.mem_filter.1 hFirst).2]
  stable k := by
    cases k with
    | false => simp [directoriesFirst, List.filter_filter]
    | true => simp [directoriesFirst, List.filter_filter]

theorem name_antisymm (first second : Octets) (hLe : first ≤ second) (hGe : second ≤ first) :
    first = second :=
  List.le_antisymm hLe hGe

/-- Sorting what is left of some entries is leaving the others out of the sorted ones. -/
theorem sortByName_filter (entries : List Entry) (p : Entry → Bool) :
    sortByName (entries.filter p) = (sortByName entries).filter p :=
  (stablySorted_sortByName _).unique name_antisymm ((stablySorted_sortByName entries).filter p)

/-- Names in their order stay where they are. -/
theorem sortByName_of_ascends {entries : List Entry}
    (hAscends : entries.Pairwise fun first second => first.name ≤ second.name) :
    sortByName entries = entries :=
  (stablySorted_sortByName entries).unique name_antisymm (.refl hAscends)

theorem filter_directoriesFirst (entries : List Entry) :
    (directoriesFirst entries).filter leadsToDirectory = entries.filter leadsToDirectory ∧
      (directoriesFirst entries).filter (!leadsToDirectory ·) =
        entries.filter (!leadsToDirectory ·) := by
  constructor
  · simp [directoriesFirst, List.filter_filter]
  · simp [directoriesFirst, List.filter_filter]

/-- What sorting promises: the listing's order, or that of the names, with equal names as listed. -/
def IsSorted : SortMode → List Entry → List Entry → Prop
  | .listing, entries, sorted => sorted = entries
  | .name, entries, sorted => StablySorted name entries sorted

/-- What arranging promises: with directories in front, all entries that lead to one precede all
others, and in both groups stands what stands in the sorted list, in its order; without, the sorted
list itself. -/
def IsArranged (sort : SortMode) (grouped : Bool) (entries arranged : List Entry) : Prop :=
  ∃ sorted, IsSorted sort entries sorted ∧
    if grouped then StablySorted (!leadsToDirectory ·) sorted arranged else arranged = sorted

/-- Sorting does what it promises, and nothing else does. -/
theorem isSorted_iff {sort : SortMode} {entries sorted : List Entry} :
    IsSorted sort entries sorted ↔ sorted = arrange sort false entries := by
  cases sort with
  | listing => exact Iff.rfl
  | name =>
      constructor
      · intro hSorted
        exact hSorted.unique name_antisymm (stablySorted_sortByName entries)
      · rintro rfl
        exact stablySorted_sortByName entries

theorem isArranged_iff {sort : SortMode} {grouped : Bool} {entries arranged : List Entry} :
    IsArranged sort grouped entries arranged ↔ arranged = arrange sort grouped entries := by
  simp only [IsArranged, isSorted_iff, exists_eq_left]
  cases grouped with
  | false => exact Iff.rfl
  | true =>
      constructor
      · intro hGrouped
        exact hGrouped.unique (fun _ _ => Bool.le_antisymm) (stablySorted_directoriesFirst _)
      · rintro rfl
        exact stablySorted_directoriesFirst _

theorem directoriesFirst_twice (entries : List Entry) :
    directoriesFirst (directoriesFirst entries) = directoriesFirst entries := by
  obtain ⟨hFront, hBack⟩ := filter_directoriesFirst entries
  rw [directoriesFirst, hFront, hBack, directoriesFirst]

theorem sortByName_twice (entries : List Entry) :
    sortByName (sortByName entries) = sortByName entries :=
  sortByName_of_ascends (stablySorted_sortByName entries).ascends

/-- To sort what has been sorted and grouped does not mix the groups up for good. -/
theorem directoriesFirst_sortByName_directoriesFirst {entries : List Entry}
    (hAscends : entries.Pairwise fun first second => first.name ≤ second.name) :
    directoriesFirst (sortByName (directoriesFirst entries)) = directoriesFirst entries := by
  obtain ⟨hFront, hBack⟩ := filter_directoriesFirst entries
  rw [directoriesFirst, ← sortByName_filter, ← sortByName_filter, hFront, hBack,
    sortByName_of_ascends (hAscends.filter _), sortByName_of_ascends (hAscends.filter _),
    directoriesFirst]

theorem arrange_twice (sort : SortMode) (grouped : Bool) (entries : List Entry) :
    arrange sort grouped (arrange sort grouped entries) = arrange sort grouped entries := by
  cases sort with
  | listing =>
      cases grouped with
      | false => rfl
      | true => exact directoriesFirst_twice entries
  | name =>
      cases grouped with
      | false => exact sortByName_twice entries
      | true =>
          exact directoriesFirst_sortByName_directoriesFirst
            (stablySorted_sortByName entries).ascends

/-- Arranging does what it promises, and nothing else does: no entry is lost or repeated; entries
are in the order of the listing or of their names, equal names as they are listed; and directories
are moved to the front without another change. What has been arranged stays as it is. -/
theorem arrange_stable (sort : SortMode) (grouped : Bool) (entries : List Entry) :
    (arrange sort grouped entries).Perm entries ∧
      (∀ arranged, IsArranged sort grouped entries arranged ↔
        arranged = arrange sort grouped entries) ∧
      arrange sort grouped (arrange sort grouped entries) = arrange sort grouped entries :=
  ⟨arrange_perm sort grouped entries, fun _ => isArranged_iff, arrange_twice sort grouped entries⟩

end Entry

end HostTree
