import HostTree.Tree.Entry
import Mathlib.Data.List.Pairwise

/-!
The order in which the entries of one directory stand when they are sorted by name: octet by octet,
and with directories in front if they are grouped. Names that differ leave no choice.
-/

namespace HostTree

/-- One step of a way down a tree: the name that is gone into, and whether it led to a directory
when the directory around it was listed. -/
structure Component where
  leadsToDirectory : Bool
  name : Octets
deriving DecidableEq

namespace Component

/-- Whether a component stands in front of another one of the same directory. -/
def Before (grouped : Bool) (first second : Component) : Prop :=
  (grouped = true ∧ first.leadsToDirectory = true ∧ second.leadsToDirectory = false) ∨
    ((grouped = true → first.leadsToDirectory = second.leadsToDirectory) ∧
      first.name < second.name)

theorem Before.irrefl (grouped : Bool) (component : Component) :
    ¬ Before grouped component component := by
  rintro (⟨-, hTrue, hFalse⟩ | ⟨-, hLess⟩)
  · simp [hTrue] at hFalse
  · exact List.lt_irrefl _ hLess

theorem Before.trans {grouped : Bool} {first second third : Component}
    (hFirst : Before grouped first second) (hSecond : Before grouped second third) :
    Before grouped first third := by
  rcases hFirst with ⟨hGrouped, hLeads, hNot⟩ | ⟨hSame, hLess⟩
  · rcases hSecond with ⟨-, hOther, -⟩ | ⟨hOther, -⟩
    · simp [hNot] at hOther
    · exact Or.inl ⟨hGrouped, hLeads, (hOther hGrouped).symm.trans hNot⟩
  · rcases hSecond with ⟨hGrouped, hLeads, hNot⟩ | ⟨hOther, hMore⟩
    · exact Or.inl ⟨hGrouped, (hSame hGrouped).trans hLeads, hNot⟩
    · exact Or.inr ⟨fun hGrouped => (hSame hGrouped).trans (hOther hGrouped),
        List.lt_trans hLess hMore⟩

end Component

namespace Entry

/-- The component that an entry is. -/
def component (entry : Entry) : Component :=
  ⟨entry.leadsToDirectory, entry.name⟩

theorem name_le_trans (a b c : Entry) (hab : decide (a.name ≤ b.name) = true)
    (hbc : decide (b.name ≤ c.name) = true) : decide (a.name ≤ c.name) = true := by
  rw [decide_eq_true_iff] at *
  exact List.le_trans hab hbc

theorem name_le_total (a b : Entry) :
    (decide (a.name ≤ b.name) || decide (b.name ≤ a.name)) = true := by
  simpa using List.le_total a.name b.name

/-- Names that differ are sorted strictly. -/
theorem pairwise_sortByName {entries : List Entry} (hNames : (entries.map (·.name)).Nodup) :
    (sortByName entries).Pairwise fun first second => first.name < second.name := by
  have hSorted : (sortByName entries).Pairwise fun first second =>
      decide (first.name ≤ second.name) = true :=
    List.pairwise_mergeSort name_le_trans name_le_total entries
  have hDiffer : (sortByName entries).Pairwise fun first second => first.name ≠ second.name := by
    rw [← ((List.mergeSort_perm _ _).map _).nodup_iff] at hNames
    exact List.pairwise_map.1 hNames
  refine (hSorted.and hDiffer).imp ?_
  rintro first second ⟨hLe, hNe⟩
  exact (List.le_iff_lt_or_eq.1 (of_decide_eq_true hLe)).resolve_right hNe

/-- Entries that are arranged by name stand in the order of their components. -/
theorem pairwise_arrange {entries : List Entry} (hNames : (entries.map (·.name)).Nodup)
    (grouped : Bool) :
    (arrange .name grouped entries).Pairwise fun first second =>
      Component.Before grouped first.component second.component := by
  have hSorted := pairwise_sortByName hNames
  cases grouped with
  | false => exact hSorted.imp fun hLess => Or.inr ⟨by simp, hLess⟩
  | true =>
      refine List.pairwise_append.2 ⟨?_, ?_, ?_⟩
      · refine (hSorted.filter _).imp_of_mem fun hFirst hSecond hLess => ?_
        have hSame := (List.mem_filter.1 hFirst).2.trans (List.mem_filter.1 hSecond).2.symm
        exact Or.inr ⟨fun _ => hSame, hLess⟩
      · refine (hSorted.filter _).imp_of_mem fun hFirst hSecond hLess => ?_
        have hSame := (List.mem_filter.1 hFirst).2.trans (List.mem_filter.1 hSecond).2.symm
        exact Or.inr ⟨fun _ => Bool.not_inj hSame, hLess⟩
      · intro first hFirst second hSecond
        have hLeads := (List.mem_filter.1 hFirst).2
        have hNot := (List.mem_filter.1 hSecond).2
        rw [Bool.not_eq_true'] at hNot
        exact Or.inl ⟨rfl, hLeads, hNot⟩

/-- Names that differ are arranged the same, in whatever order they are listed. -/
theorem arrange_eq_of_perm {entries others : List Entry} (hNames : (entries.map (·.name)).Nodup)
    (hPerm : others.Perm entries) (grouped : Bool) :
    arrange .name grouped others = arrange .name grouped entries := by
  have hOthers : (others.map (·.name)).Nodup := (hPerm.map _).nodup_iff.2 hNames
  have hArranged : (arrange .name grouped others).Perm (arrange .name grouped entries) :=
    (arrange_perm _ _ _).trans (hPerm.trans (arrange_perm _ _ _).symm)
  refine hArranged.eq_of_pairwise ?_ (pairwise_arrange hOthers grouped)
    (pairwise_arrange hNames grouped)
  intro first second _ _ hBefore hBehind
  exact absurd (hBefore.trans hBehind) (Component.Before.irrefl _ _)

/-- Names that differ have one order only. -/
theorem arrange_of_ascends {entries sorted : List Entry} (hPerm : sorted.Perm entries)
    (hAscends : sorted.Pairwise fun first second => first.name < second.name) :
    arrange .name false entries = sorted := by
  have hSorted : (sortByName sorted).Perm sorted := List.mergeSort_perm _ _
  have hNames : (sorted.map (·.name)).Nodup := by
    rw [List.Nodup, List.pairwise_map]
    refine hAscends.imp ?_
    intro first second hLess hSame
    rw [hSame] at hLess
    exact List.lt_irrefl _ hLess
  rw [← arrange_eq_of_perm ((hPerm.map _).nodup_iff.1 hNames) hPerm]
  refine hSorted.eq_of_pairwise ?_ (pairwise_sortByName hNames) hAscends
  intro first second _ _ hLess hMore
  exact absurd (List.lt_trans hLess hMore) (List.lt_irrefl _)

end Entry

end HostTree
