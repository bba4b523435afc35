import HostTree.Proofs.Output.Unlimited
import HostTree.Proofs.Text.Utf8
import Mathlib.Data.List.Induction
import Mathlib.Data.List.Perm.Basic

/-!
The section on the environment, said without the way in which it is put together. Each displayed
name has one line, with the value that was given last under it, and the lines ascend by the octets
of the names. So only the order matters in which the variables of one displayed name are given.
-/

namespace HostTree

namespace Octets

theorem ofString_injective {s t : String} (hSame : ofString s = ofString t) : s = t := by
  rw [← Utf8.lossy_ofString s, hSame, Utf8.lossy_ofString]

end Octets

namespace Environment

/-- Whether a variable displays under a name. -/
def isShownAs (name : String) (given : Variable) : Bool :=
  Utf8.lossy given.name = name

/-- The displayed value of the last variable that displays under a name. -/
def lastValue? (environment : List Variable) (name : String) : Option String :=
  (environment.filter (isShownAs name)).getLast?.map fun given => Utf8.lossy given.value

/-- Whether names stand in the order of their octets, each of them once. -/
def Ascends (listed : List (String × String)) : Prop :=
  listed.Pairwise fun first second => Octets.ofString first.1 < Octets.ofString second.1

/-- Whether names and values are those that are to be shown of an environment, in their order. -/
structure IsListing (environment : List Variable) (listed : List (String × String)) : Prop where
  ascends : Ascends listed
  mem_iff : ∀ name value, (name, value) ∈ listed ↔ lastValue? environment name = some value

/-- What comes last under its name replaces what was there and leaves the other names alone. -/
theorem lastValue?_append_singleton (environment : List Variable) (given : Variable)
    (name : String) :
    lastValue? (environment ++ [given]) name =
      if name = Utf8.lossy given.name then some (Utf8.lossy given.value)
      else lastValue? environment name := by
  rw [lastValue?, List.filter_append]
  by_cases hName : name = Utf8.lossy given.name
  · rw [if_pos hName, List.filter_cons_of_pos (by simp [isShownAs, hName])]
    simp
  · rw [if_neg hName, List.filter_cons_of_neg (by simpa [isShownAs] using Ne.symm hName)]
    simp [lastValue?]

variable {listed other : List (String × String)} {name value : String}

/-- Of two names that differ, one stands in front of the other. -/
theorem lt_of_not_lt {first second : String} (hDiffer : first ≠ second)
    (hNot : ¬ Octets.ofString first < Octets.ofString second) :
    Octets.ofString second < Octets.ofString first := by
  refine (List.le_iff_lt_or_eq.1 (List.not_lt.1 hNot)).resolve_right fun hSame => ?_
  exact hDiffer (Octets.ofString_injective hSame).symm

theorem Ascends.ne_of_mem {first : String × String} (hAscends : Ascends (first :: listed))
    {second : String × String} (hMem : second ∈ listed) : first.1 ≠ second.1 := by
  intro hSame
  have hLess := (List.pairwise_cons.1 hAscends).1 second hMem
  rw [hSame] at hLess
  exact List.lt_irrefl _ hLess

/-- A name that stands in front of the first one is not listed. -/
theorem Ascends.not_mem_of_lt {first : String × String} (hAscends : Ascends (first :: listed))
    (hLess : Octets.ofString name < Octets.ofString first.1) (value : String) :
    (name, value) ∉ first :: listed := by
  intro hMem
  rcases List.mem_cons.1 hMem with rfl | hRest
  · exact List.lt_irrefl _ hLess
  · exact List.lt_irrefl _
      (List.lt_trans hLess ((List.pairwise_cons.1 hAscends).1 _ hRest))

/-- A name is put in the place of its old value, and all other names stay. -/
theorem mem_put_iff (hAscends : Ascends listed) (shown kept : String) :
    (shown, kept) ∈ put name value listed ↔
      (shown = name ∧ kept = value) ∨ (shown ≠ name ∧ (shown, kept) ∈ listed) := by
  induction listed with
  | nil => simp [put]
  | cons first rest ih =>
      obtain ⟨other, held⟩ := first
      have hOthers : (shown, kept) ∈ rest → other ≠ shown := hAscends.ne_of_mem
      rw [put]
      split
      · next hSame =>
          subst hSame
          simp only [List.mem_cons, Prod.mk.injEq]
          constructor
          · rintro (hNew | hRest)
            · exact Or.inl hNew
            · exact Or.inr ⟨(hOthers hRest).symm, Or.inr hRest⟩
          · rintro (hNew | ⟨hDiffer, hOld | hRest⟩)
            · exact Or.inl hNew
            · exact absurd hOld.1 hDiffer
            · exact Or.inr hRest
      · next hDiffer =>
          split
          · next hLess =>
              have hAbsent := hAscends.not_mem_of_lt hLess kept
              rw [List.mem_cons, Prod.mk.injEq]
              refine or_congr_right (Iff.symm (and_iff_right_of_imp ?_))
              rintro hMem rfl
              exact hAbsent hMem
          · rw [List.mem_cons, List.mem_cons, ih (List.pairwise_cons.1 hAscends).2,
              Prod.mk.injEq]
            constructor
            · rintro (⟨rfl, rfl⟩ | hNew | ⟨hOther, hRest⟩)
              · exact Or.inr ⟨Ne.symm hDiffer, Or.inl ⟨rfl, rfl⟩⟩
              · exact Or.inl hNew
              · exact Or.inr ⟨hOther, Or.inr hRest⟩
            · rintro (hNew | ⟨hOther, hHeld | hRest⟩)
              · exact Or.inr (Or.inl hNew)
              · exact Or.inl hHeld
              · exact Or.inr (Or.inr ⟨hOther, hRest⟩)

theorem Ascends.put (hAscends : Ascends listed) (name value : String) :
    Ascends (Environment.put name value listed) := by
  induction listed with
  | nil => exact List.pairwise_singleton _ _
  | cons first rest ih =>
      obtain ⟨other, held⟩ := first
      obtain ⟨hFirst, hRest⟩ := List.pairwise_cons.1 hAscends
      rw [Environment.put]
      split
      · next hSame =>
          subst hSame
          exact List.pairwise_cons.2 ⟨hFirst, hRest⟩
      · next hDiffer =>
          split
          · next hLess =>
              refine List.pairwise_cons.2 ⟨List.forall_mem_cons.2 ⟨hLess, ?_⟩, hAscends⟩
              intro entry hMem
              exact List.lt_trans hLess (hFirst entry hMem)
          · next hNot =>
              refine List.pairwise_cons.2 ⟨?_, ih hRest⟩
              rintro ⟨shown, kept⟩ hMem
              rcases (mem_put_iff hRest shown kept).1 hMem with ⟨rfl, -⟩ | ⟨-, hOld⟩
              · exact lt_of_not_lt hDiffer hNot
              · exact hFirst _ hOld

/-- The names and values that a report lists are those that are to be shown. -/
theorem isListing_sorted (environment : List Variable) :
    IsListing environment (sorted environment) := by
  induction environment using List.reverseRecOn with
  | nil => exact ⟨List.Pairwise.nil, by simp [sorted, lastValue?]⟩
  | append_singleton environment given ih =>
      have hSorted : sorted (environment ++ [given]) =
          put (Utf8.lossy given.name) (Utf8.lossy given.value) (sorted environment) := by
        rw [sorted, List.foldl_append]
        rfl
      rw [hSorted]
      refine ⟨ih.ascends.put _ _, fun name value => ?_⟩
      rw [mem_put_iff ih.ascends, ih.mem_iff, lastValue?_append_singleton]
      by_cases hName : name = Utf8.lossy given.name
      · simp [hName, eq_comm]
      · simp [hName]

/-- Names that ascend differ. -/
theorem Ascends.nodup (hAscends : Ascends listed) : listed.Nodup := by
  refine hAscends.imp ?_
  rintro first second hLess rfl
  exact List.lt_irrefl _ hLess

/-- There is one way only to list an environment, and all that matters for it is which value comes
last under each name. -/
theorem IsListing.eq_of_lastValue?_eq {environment others : List Variable}
    (hListing : IsListing environment listed) (hOther : IsListing others other)
    (hSame : ∀ name, lastValue? others name = lastValue? environment name) : other = listed := by
  have hMem : ∀ entry, entry ∈ other ↔ entry ∈ listed := by
    rintro ⟨name, value⟩
    rw [hOther.mem_iff, hListing.mem_iff, hSame]
  have hPerm : other.Perm listed :=
    (List.perm_ext_iff_of_nodup hOther.ascends.nodup hListing.ascends.nodup).2 hMem
  refine hPerm.eq_of_pairwise ?_ hOther.ascends hListing.ascends
  intro first second _ _ hLess hMore
  exact absurd (List.lt_trans hLess hMore) (List.lt_irrefl _)

/-- Variables of which no two display under one name are shown alike in any order. -/
theorem filter_eq_of_perm {environment others : List Variable}
    (hNames : (environment.map fun given => Utf8.lossy given.name).Nodup)
    (hPerm : others.Perm environment) (name : String) :
    others.filter (isShownAs name) = environment.filter (isShownAs name) := by
  have hGroup : (others.filter (isShownAs name)).Perm (environment.filter (isShownAs name)) :=
    hPerm.filter _
  have hOnce : ((environment.filter (isShownAs name)).map fun given =>
      Utf8.lossy given.name).Nodup := hNames.sublist (List.filter_sublist.map _)
  have hName : ∀ given ∈ environment.filter (isShownAs name), Utf8.lossy given.name = name :=
    fun given hMem => of_decide_eq_true (List.mem_filter.1 hMem).2
  generalize environment.filter (isShownAs name) = group at hGroup hOnce hName
  match group with
  | [] => exact hGroup.eq_nil
  | [given] => exact hGroup.eq_singleton
  | first :: second :: rest =>
      have hFirst := hName first (by simp)
      have hSecond := hName second (by simp)
      simp [hFirst, hSecond] at hOnce

/-- A variable does not matter if another one comes later under its name. -/
theorem lastValue?_append_of_later {before behind : List Variable} {given later : Variable}
    (hLater : later ∈ behind) (hShown : isShownAs (Utf8.lossy given.name) later = true)
    (name : String) :
    lastValue? (before ++ behind) name = lastValue? (before ++ given :: behind) name := by
  rw [lastValue?, lastValue?, List.filter_append, List.filter_append]
  by_cases hName : isShownAs name given = true
  · have hSame : Utf8.lossy given.name = name := of_decide_eq_true hName
    have hBehind : behind.filter (isShownAs name) ≠ [] :=
      List.ne_nil_of_mem (List.mem_filter.2 ⟨hLater, hSame ▸ hShown⟩)
    rw [List.filter_cons_of_pos hName, List.getLast?_append, List.getLast?_append,
      List.getLast?_cons, List.getLast?_eq_some_getLast hBehind]
    rfl
  · rw [List.filter_cons_of_neg hName]

theorem environmentText_eq_of_lastValue?_eq {environment others : List Variable}
    (hSame : ∀ name, lastValue? others name = lastValue? environment name) :
    Section.environmentText others = Section.environmentText environment := by
  have hListing : sorted others = sorted environment :=
    (isListing_sorted environment).eq_of_lastValue?_eq (isListing_sorted others) hSame
  have hText : text others = text environment := by
    rw [text, text, hListing]
  unfold Section.environmentText
  rw [hText]

/-- The section on the environment has one entry for each displayed name, in the order of the names'
octets, with the value that was given last under this name; no other list of names and values is of
this kind. So variables that display under different names may be given in any order, and one that
is followed by another one of its name may be left out. -/
theorem listing_is_written (environment : List Variable) :
    ∃ listed, IsListing environment listed ∧
      (∀ other, IsListing environment other → other = listed) ∧
      (∀ written, Sink.put ⟨written, none⟩ (Section.environmentText environment) =
        (.ok (), ⟨written ++ Octets.ofString ("\n### Env Vars ###\n" ++
          String.join (listed.map fun (name, value) => name ++ ": " ++ value ++ "\n")), none⟩)) ∧
      (∀ others,
        (∀ name, others.filter (isShownAs name) = environment.filter (isShownAs name)) →
          Section.environmentText others = Section.environmentText environment) ∧
      (∀ others, (environment.map fun given => Utf8.lossy given.name).Nodup →
        others.Perm environment →
          Section.environmentText others = Section.environmentText environment) ∧
      ∀ before given behind, environment = before ++ given :: behind →
        (∃ later ∈ behind, Utf8.lossy later.name = Utf8.lossy given.name) →
          Section.environmentText (before ++ behind) = Section.environmentText environment := by
  refine ⟨sorted environment, isListing_sorted environment, ?unique, ?written, ?ordered, ?distinct,
    ?replaced⟩
  case unique =>
    intro other hOther
    exact (isListing_sorted environment).eq_of_lastValue?_eq hOther fun _ => rfl
  case written =>
    intro written
    rw [Sink.put_unlimited]
    rfl
  case ordered =>
    intro others hGroups
    exact environmentText_eq_of_lastValue?_eq fun name => by rw [lastValue?, hGroups]; rfl
  case distinct =>
    intro others hNames hPerm
    refine environmentText_eq_of_lastValue?_eq fun name => ?_
    rw [lastValue?, filter_eq_of_perm hNames hPerm]
    rfl
  case replaced =>
    rintro before given behind rfl ⟨later, hLater, hName⟩
    exact environmentText_eq_of_lastValue?_eq
      (lastValue?_append_of_later hLater (decide_eq_true hName))

/-- Two names that are no texts and display alike, with another one between them. -/
def undecodable : List Variable :=
  [⟨[0xFF], Octets.ofString "1"⟩, ⟨Octets.ofString "B", []⟩, ⟨[0xFE], Octets.ofString "2"⟩]

theorem listing_is_written_undecodable :
    Utf8.lossy [0xFE] = Utf8.lossy [0xFF] ∧
      Section.environmentText undecodable = Section.environmentText (undecodable.drop 1) ∧
      Section.environmentText undecodable = "\n### Env Vars ###\nB: \n\uFFFD: 2\n" := by
  have hSame : Utf8.lossy [0xFE] = Utf8.lossy [0xFF] := by decide
  obtain ⟨-, -, -, -, -, -, hReplaced⟩ := listing_is_written undecodable
  have hText : Section.environmentText (undecodable.drop 1) =
      Section.environmentText undecodable :=
    hReplaced [] ⟨[0xFF], Octets.ofString "1"⟩ (undecodable.drop 1) rfl
      ⟨⟨[0xFE], Octets.ofString "2"⟩, by simp [undecodable], hSame⟩
  exact ⟨hSame, hText.symm, by decide +kernel⟩

end Environment

end HostTree
