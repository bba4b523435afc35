import HostTree.Proofs.Entry.Arranged

/-!
Lists into which new elements are put: all others stay, in their order. To sort such a list, or to
move directories to its front, is to put the new elements into the list that was sorted without
them, since no order of entries looks at more than the two that it compares.
-/

namespace HostTree

/-- Whether a list is another one with new elements put in. -/
inductive Extends {α : Type} (isNew : α → Prop) : List α → List α → Prop where
  | nil : Extends isNew [] []
  | kept {old list : List α} (a : α) (hRest : Extends isNew old list) :
      Extends isNew (a :: old) (a :: list)
  | put {old list : List α} {a : α} (hNew : isNew a) (hRest : Extends isNew old list) :
      Extends isNew old (a :: list)

namespace Extends

variable {α β : Type} {isNew : α → Prop} {old list : List α}

theorem refl (list : List α) : Extends isNew list list := by
  induction list with
  | nil => exact .nil
  | cons a rest ih => exact .kept a ih

theorem imp {isOther : α → Prop} (hImp : ∀ a, isNew a → isOther a)
    (hExtends : Extends isNew old list) : Extends isOther old list := by
  induction hExtends with
  | nil => exact .nil
  | kept a _ ih => exact .kept a ih
  | put hNew _ ih => exact .put (hImp _ hNew) ih

theorem append {old' list' : List α} (hFirst : Extends isNew old list)
    (hLater : Extends isNew old' list') : Extends isNew (old ++ old') (list ++ list') := by
  induction hFirst with
  | nil => exact hLater
  | kept a _ ih => exact .kept a ih
  | put hNew _ ih => exact .put hNew ih

theorem filter (hExtends : Extends isNew old list) (p : α → Bool) :
    Extends isNew (old.filter p) (list.filter p) := by
  induction hExtends with
  | nil => exact .nil
  | kept a _ ih =>
      rw [List.filter_cons, List.filter_cons]
      split
      · exact .kept a ih
      · exact ih
  | put hNew _ ih =>
      rw [List.filter_cons]
      split
      · exact .put hNew ih
      · exact ih

theorem map {isNewImage : β → Prop} {f : α → β} (hImage : ∀ a, isNew a → isNewImage (f a))
    (hExtends : Extends isNew old list) : Extends isNewImage (old.map f) (list.map f) := by
  induction hExtends with
  | nil => exact .nil
  | kept a _ ih => exact .kept (f a) ih
  | put hNew _ ih => exact .put (hImage _ hNew) ih

theorem filterMap {isNew : β → Prop} {f g : α → Option β} {list : List α}
    (hStep : ∀ a ∈ list, f a = g a ∨ f a = none ∧ ∀ b, g a = some b → isNew b) :
    Extends isNew (list.filterMap f) (list.filterMap g) := by
  induction list with
  | nil => exact .nil
  | cons a rest ih =>
      rw [List.forall_mem_cons] at hStep
      have hRest := ih hStep.2
      rw [List.filterMap_cons, List.filterMap_cons]
      obtain hSame | ⟨hNothing, hNew⟩ := hStep.1
      · rw [hSame]
        cases g a with
        | none => exact hRest
        | some b => exact .kept b hRest
      · rw [hNothing]
        cases hPut : g a with
        | none => exact hRest
        | some b => exact .put (hNew b hPut) hRest

theorem insert {front back : List α} {a : α} (hExtends : Extends isNew old (front ++ back))
    (hNew : isNew a) : Extends isNew old (front ++ a :: back) := by
  induction front generalizing old with
  | nil => exact .put hNew hExtends
  | cons first rest ih =>
      cases hExtends with
      | kept _ hRest => exact .kept first (ih hRest)
      | put hFirst hRest => exact .put hFirst (ih hRest)

end Extends

/-- To sort a list with one more element is to put it in front of all that it may stand in front
of. -/
theorem exists_mergeSort_cons {α : Type} {le : α → α → Bool}
    (hTrans : ∀ a b c, le a b = true → le b c = true → le a c = true)
    (hTotal : ∀ a b, (le a b || le b a) = true) (a : α) (list : List α) :
    ∃ front back, (a :: list).mergeSort le = front ++ a :: back ∧
      list.mergeSort le = front ++ back ∧
      front = (list.mergeSort le).filter (!le a ·) ∧
      back = (list.mergeSort le).filter (le a ·) := by
  obtain ⟨front, back, hCons, hRest, hFront⟩ := List.mergeSort_cons hTrans hTotal a list
  have hSorted := List.pairwise_mergeSort hTrans hTotal (a :: list)
  rw [hCons, List.pairwise_append, List.pairwise_cons] at hSorted
  have hBack : ∀ b ∈ back, le a b = true := hSorted.2.1.1
  refine ⟨front, back, hCons, hRest, ?_, ?_⟩
  · rw [hRest, List.filter_append, List.filter_eq_self.2 hFront, List.filter_eq_nil_iff.2,
      List.append_nil]
    intro b hb
    simp [hBack b hb]
  · rw [hRest, List.filter_append, List.filter_eq_self.2 hBack, List.filter_eq_nil_iff.2,
      List.nil_append]
    intro b hb
    simpa using hFront b hb

theorem Extends.mergeSort {α : Type} {isNew : α → Prop} {old list : List α} {le : α → α → Bool}
    (hTrans : ∀ a b c, le a b = true → le b c = true → le a c = true)
    (hTotal : ∀ a b, (le a b || le b a) = true) (hExtends : Extends isNew old list) :
    Extends isNew (old.mergeSort le) (list.mergeSort le) := by
  induction hExtends with
  | nil => exact .refl _
  | @kept old list a _ ih =>
      -- Both sorted lists are cut in two by the same test, so the parts extend each other.
      obtain ⟨oldFront, oldBack, hOld, -, rfl, rfl⟩ := exists_mergeSort_cons hTrans hTotal a old
      obtain ⟨front, back, hList, -, rfl, rfl⟩ := exists_mergeSort_cons hTrans hTotal a list
      rw [hOld, hList]
      exact (ih.filter _).append (.kept a (ih.filter _))
  | @put old list a hNew _ ih =>
      obtain ⟨front, back, hList, hRest, -, -⟩ := exists_mergeSort_cons hTrans hTotal a list
      rw [hRest] at ih
      rw [hList]
      exact ih.insert hNew

theorem Extends.directoriesFirst {isNew : Entry → Prop} {entries more : List Entry}
    (hExtends : Extends isNew entries more) :
    Extends isNew (Entry.directoriesFirst entries) (Entry.directoriesFirst more) :=
  (hExtends.filter _).append (hExtends.filter _)

/-- Entries that are put into a directory are put in between the others when they are arranged. -/
theorem Extends.arrange {isNew : Entry → Prop} {entries more : List Entry}
    (hExtends : Extends isNew entries more) (sort : SortMode) (grouped : Bool) :
    Extends isNew (Entry.arrange sort grouped entries) (Entry.arrange sort grouped more) := by
  cases sort with
  | listing =>
      cases grouped with
      | false => exact hExtends
      | true => exact hExtends.directoriesFirst
  | name =>
      have hSorted := hExtends.mergeSort Entry.name_le_trans Entry.name_le_total
      cases grouped with
      | false => exact hSorted
      | true => exact hSorted.directoriesFirst

end HostTree
