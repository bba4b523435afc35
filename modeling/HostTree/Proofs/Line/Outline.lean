import HostTree.Tree.Line
import Mathlib.Data.List.Basic
import Mathlib.Data.List.Induction
import Mathlib.Data.List.TakeWhile

/-!
Lines in their order, read by their depths alone. A line is open as long as all lines after it are
deeper. If no line is more than one step deeper than the open ones reach, there is one open line of
each depth, and it is the latest line of that depth.
-/

namespace HostTree

namespace Outline

/-- A line and the number of lines in front of it. -/
abbrev Numbered := Line × Nat

/-- The latest line of a depth. -/
def latest? (lines : List Line) (depth : Nat) : Option Numbered :=
  lines.zipIdx.reverse.find? (·.1.depth = depth)

/-- The latest lines of the depths that are less than one, the outermost first. -/
def ancestors (lines : List Line) (depth : Nat) : List Numbered :=
  (List.range (depth - 1)).filterMap fun outer => latest? lines (outer + 1)

/-- The open lines, the innermost first. A line closes all that are not less deep. -/
def openLines (lines : List Line) : List Numbered :=
  lines.zipIdx.foldl
    (fun before line => line :: before.dropWhile (line.1.depth ≤ ·.1.depth)) []

/-- Every line is at most one step deeper than the open lines in front of it reach. -/
inductive Nested : List Line → Prop where
  | nil : Nested []
  | append {lines : List Line} {line : Line} (hLines : Nested lines) (hPositive : 0 < line.depth)
      (hDepth : line.depth ≤ (openLines lines).length + 1) : Nested (lines ++ [line])

/-- Open lines of all depths from one on, the innermost first. -/
def Stepped : List Numbered → Prop
  | [] => True
  | line :: rest => line.1.depth = rest.length + 1 ∧ Stepped rest

theorem latest?_append (lines : List Line) (line : Line) (depth : Nat) :
    latest? (lines ++ [line]) depth =
      if line.depth = depth then some (line, lines.length) else latest? lines depth := by
  by_cases hDepth : line.depth = depth
  · simp [latest?, List.zipIdx_append, hDepth]
  · simp [latest?, List.zipIdx_append, hDepth]

/-- The latest line of a depth is found in the same way where something else stands for each line
that has its depth. -/
theorem find?_map_reverse {α : Type} {read : Line → α} {depthOf : α → Nat}
    (hDepth : ∀ line, depthOf (read line) = line.depth) (lines : List Line) (depth : Nat) :
    (lines.map read).reverse.find? (depthOf · = depth) =
      (latest? lines depth).map fun line => read line.1 := by
  induction lines using List.reverseRecOn with
  | nil => rfl
  | append_singleton lines line ih =>
      rw [latest?_append, List.map_append, List.reverse_append, List.map_singleton,
        List.reverse_singleton, List.singleton_append, List.find?_cons, ih, hDepth]
      by_cases hLine : line.depth = depth
      · simp [hLine]
      · simp [hLine]

theorem of_latest?_eq_some {lines : List Line} {depth : Nat} {line : Numbered}
    (hLatest : latest? lines depth = some line) : line.1 ∈ lines ∧ line.1.depth = depth := by
  have hMem := List.mem_of_find?_eq_some hLatest
  rw [List.mem_reverse] at hMem
  exact ⟨List.fst_mem_of_mem_zipIdx hMem, by simpa using List.find?_some hLatest⟩

/-- If there are lines of all lesser depths, there is one of the next lesser depth. -/
theorem exists_latest?_of_length_ancestors {lines : List Line} {depth : Nat}
    (hLength : (ancestors lines (depth + 2)).length = depth + 1) :
    ∃ line, latest? lines (depth + 1) = some line := by
  by_contra hNone
  have hLatest : latest? lines (depth + 1) = none :=
    Option.eq_none_iff_forall_ne_some.2 (not_exists.1 hNone)
  have hOuter := List.length_filterMap_le (fun outer => latest? lines (outer + 1))
    (List.range depth)
  rw [List.length_range] at hOuter
  have hRange : depth + 2 - 1 = depth + 1 := rfl
  rw [ancestors, hRange, List.range_succ, List.filterMap_append, List.length_append] at hLength
  simp [hLatest] at hLength
  omega

theorem openLines_nil : openLines [] = [] := rfl

theorem openLines_append (lines : List Line) (line : Line) :
    openLines (lines ++ [line]) =
      (line, lines.length) :: (openLines lines).dropWhile (line.depth ≤ ·.1.depth) := by
  simp [openLines, List.zipIdx_append]

theorem Stepped.suffix {inner outer : List Numbered} (hStepped : Stepped (inner ++ outer)) :
    Stepped outer := by
  induction inner with
  | nil => exact hStepped
  | cons line inner ih => exact ih hStepped.2

/-- The lines inside others are deeper than those are many. -/
theorem Stepped.lt_depth {inner outer : List Numbered} (hStepped : Stepped (inner ++ outer)) :
    ∀ line ∈ inner, outer.length < line.1.depth := by
  induction inner with
  | nil => simp
  | cons first inner ih =>
      intro line hLine
      rcases List.mem_cons.1 hLine with rfl | hLine
      · have hDepth := hStepped.1
        rw [List.append_eq, List.length_append] at hDepth
        omega
      · exact ih hStepped.2 line hLine

theorem Stepped.depth_le {items : List Numbered} (hStepped : Stepped items) :
    ∀ line ∈ items, line.1.depth ≤ items.length := by
  induction items with
  | nil => simp
  | cons first rest ih =>
      intro line hLine
      rcases List.mem_cons.1 hLine with rfl | hLine
      · exact hStepped.1.le
      · exact (ih hStepped.2 line hLine).trans (Nat.le_succ _)

/-- A line closes the open lines down to the ones that are as many as it is inside of. -/
theorem Stepped.dropWhile {inner outer : List Numbered} (hStepped : Stepped (inner ++ outer))
    {depth : Nat} (hDepth : depth = outer.length + 1) :
    (inner ++ outer).dropWhile (depth ≤ ·.1.depth) = outer := by
  have hInner : ∀ line ∈ inner, decide (depth ≤ line.1.depth) = true := by
    intro line hLine
    have hLt := hStepped.lt_depth line hLine
    exact decide_eq_true (by omega)
  rw [List.dropWhile_append_of_pos hInner]
  cases outer with
  | nil => rfl
  | cons first rest =>
      have hFirst := hStepped.suffix.1
      rw [List.dropWhile_cons_of_neg]
      simp only [List.length_cons] at hDepth
      simp only [decide_eq_true_eq]
      omega

/-- Every depth up to the number of open lines is that of one of them. -/
theorem Stepped.find?_eq_getElem? {items : List Numbered} (hStepped : Stepped items)
    (depth : Nat) :
    items.find? (·.1.depth = depth + 1) = items.reverse[depth]? := by
  induction items with
  | nil => rfl
  | cons line rest ih =>
      rw [List.reverse_cons]
      by_cases hDepth : depth = rest.length
      · rw [List.find?_cons_of_pos (by simp [hStepped.1, hDepth])]
        simp [hDepth]
      · rw [List.find?_cons_of_neg (by simp [hStepped.1, Ne.symm hDepth]), ih hStepped.2]
        by_cases hInside : depth < rest.length
        · rw [List.getElem?_append_left (by simpa using hInside)]
        · have hOutside : rest.length < depth := by omega
          rw [List.getElem?_eq_none (by simp; omega), List.getElem?_eq_none (by simp; omega)]

theorem exists_append_of_le_length {α : Type} {count : Nat} {items : List α}
    (hCount : count ≤ items.length) :
    ∃ inner outer, items = inner ++ outer ∧ outer.length = count :=
  ⟨items.take (items.length - count), items.drop (items.length - count),
    (List.take_append_drop _ _).symm, by simp; omega⟩

/-- What a line of a possible depth leaves open. -/
theorem Stepped.exists_openLines_append {lines : List Line} (hStepped : Stepped (openLines lines))
    {line : Line} (hPositive : 0 < line.depth)
    (hDepth : line.depth ≤ (openLines lines).length + 1) :
    ∃ inner outer, openLines lines = inner ++ outer ∧ line.depth = outer.length + 1 ∧
      openLines (lines ++ [line]) = (line, lines.length) :: outer := by
  obtain ⟨inner, outer, hSplit, hLength⟩ :=
    exists_append_of_le_length (Nat.sub_le_of_le_add hDepth)
  have hOuter : line.depth = outer.length + 1 := by omega
  refine ⟨inner, outer, hSplit, hOuter, ?_⟩
  rw [openLines_append, hSplit, Stepped.dropWhile (hSplit ▸ hStepped) hOuter]

theorem Nested.stepped {lines : List Line} (hNested : Nested lines) :
    Stepped (openLines lines) := by
  induction hNested with
  | nil => trivial
  | append hLines hPositive hDepth ih =>
      obtain ⟨inner, outer, hSplit, hOuter, hOpen⟩ := ih.exists_openLines_append hPositive hDepth
      rw [hOpen]
      exact ⟨hOuter, (hSplit ▸ ih).suffix⟩

/-- The open line of a depth is the latest line of that depth. -/
theorem Nested.latest?_eq_find? {lines : List Line} (hNested : Nested lines) {depth : Nat}
    (hDepth : depth ≤ (openLines lines).length) :
    latest? lines depth = (openLines lines).find? (·.1.depth = depth) := by
  induction hNested with
  | nil => rfl
  | @append lines line hLines hPositive hLine ih =>
      obtain ⟨inner, outer, hSplit, hOuter, hOpen⟩ :=
        hLines.stepped.exists_openLines_append hPositive hLine
      rw [hOpen] at hDepth ⊢
      rw [latest?_append]
      by_cases hSame : line.depth = depth
      · simp [hSame]
      · simp only [List.length_cons] at hDepth
        have hInner : ∀ other ∈ inner, ¬ (decide (other.1.depth = depth)) = true := by
          intro other hOther
          have hLt := (hSplit ▸ hLines.stepped).lt_depth other hOther
          simp only [decide_eq_true_eq]
          omega
        have hLength : (openLines lines).length = inner.length + outer.length := by
          rw [hSplit, List.length_append]
        rw [if_neg hSame, ih (by omega), hSplit,
          List.find?_append, List.find?_eq_none.2 hInner, Option.none_or,
          List.find?_cons_of_neg (by simpa using hSame)]

/-- The open lines around a new line are the latest lines of the depths less than its own. -/
theorem Nested.latest?_eq_getElem? {lines : List Line} (hNested : Nested lines)
    {inner outer : List Numbered} (hSplit : openLines lines = inner ++ outer) {depth : Nat}
    (hDepth : depth < outer.length) : latest? lines (depth + 1) = outer.reverse[depth]? := by
  rw [hNested.latest?_eq_find? (by simp [hSplit]; omega), hNested.stepped.find?_eq_getElem?,
    hSplit, List.reverse_append, List.getElem?_append_left (by simpa using hDepth)]

theorem filterMap_getElem?_range {α : Type} (items : List α) :
    (List.range items.length).filterMap (fun index => items[index]?) = items := by
  induction items using List.reverseRecOn with
  | nil => rfl
  | append_singleton items item ih =>
      have hFront : ∀ index ∈ List.range items.length,
          (items ++ [item])[index]? = items[index]? := by
        intro index hIndex
        rw [List.getElem?_append_left (List.mem_range.1 hIndex)]
      rw [List.length_append, List.length_singleton, List.range_succ, List.filterMap_append,
        List.filterMap_congr hFront, ih]
      simp

theorem Nested.ancestors_eq {lines : List Line} (hNested : Nested lines)
    {inner outer : List Numbered} (hSplit : openLines lines = inner ++ outer) :
    ancestors lines (outer.length + 1) = outer.reverse := by
  have hLatest : ∀ depth ∈ List.range outer.length,
      latest? lines (depth + 1) = outer.reverse[depth]? := by
    intro depth hDepth
    exact hNested.latest?_eq_getElem? hSplit (List.mem_range.1 hDepth)
  rw [ancestors, Nat.add_sub_cancel, List.filterMap_congr hLatest, ← List.length_reverse]
  exact filterMap_getElem?_range outer.reverse

/-- No line has the depth zero. -/
theorem Nested.latest?_zero {lines : List Line} (hNested : Nested lines) :
    latest? lines 0 = none := by
  rw [hNested.latest?_eq_find? (Nat.zero_le _), List.find?_eq_none]
  intro line hLine
  obtain ⟨inner, outer, hSplit⟩ := List.append_of_mem hLine
  have hPositive := (hSplit ▸ hNested.stepped).suffix.1
  simp [hPositive]

/-- The line directly around a new one is the latest line that is one step less deep. -/
theorem Nested.latest?_eq_head? {lines : List Line} (hNested : Nested lines)
    {inner outer : List Numbered} (hSplit : openLines lines = inner ++ outer) :
    latest? lines outer.length = outer.head? := by
  cases outer with
  | nil => exact hNested.latest?_zero
  | cons line rest =>
      rw [List.length_cons, hNested.latest?_eq_getElem? hSplit (by simp), List.reverse_cons,
        List.getElem?_append_right (by simp)]
      simp

/-- The innermost open line has the number of the latest line. -/
theorem number_of_openLines_eq_cons {lines : List Line} {line : Numbered} {outer : List Numbered}
    (hOpen : openLines lines = line :: outer) : line.2 + 1 = lines.length := by
  induction lines using List.reverseRecOn with
  | nil => simp [openLines_nil] at hOpen
  | append_singleton lines last _ =>
      rw [openLines_append, List.cons.injEq] at hOpen
      simp [← hOpen.1]

/-- As many lines are open as the latest one is deep. -/
theorem Nested.length_openLines {lines : List Line} (hNested : Nested lines) :
    (openLines lines).length = (lines.getLast?.map (·.depth)).getD 0 := by
  cases hNested with
  | nil => rfl
  | append hLines hPositive hDepth =>
      obtain ⟨inner, outer, -, hOuter, hOpen⟩ :=
        hLines.stepped.exists_openLines_append hPositive hDepth
      simp [hOpen, hOuter]

/-- What was around the latest line stays open around it. -/
theorem Nested.latest?_of_openLines_append {lines : List Line} {line : Line} {number : Nat}
    {outer : List Numbered} (hNested : Nested lines)
    (hStepped : Stepped (openLines (lines ++ [line])))
    (hOpen : openLines (lines ++ [line]) = (line, number) :: outer) :
    latest? lines (line.depth - 1) = outer.head? := by
  have hDepth : line.depth = outer.length + 1 := (hOpen ▸ hStepped).1
  rw [openLines_append, List.cons.injEq] at hOpen
  rw [hDepth, Nat.add_sub_cancel]
  have hSplit : openLines lines =
      (openLines lines).takeWhile (line.depth ≤ ·.1.depth) ++ outer := by
    rw [← hOpen.2, List.takeWhile_append_dropWhile]
  exact hNested.latest?_eq_head? hSplit

/-- The open lines after a line are that line and those around it. -/
theorem Nested.openLines_append_eq {lines : List Line} {line : Line} (hNested : Nested lines)
    (hStepped : Stepped (openLines (lines ++ [line]))) :
    openLines (lines ++ [line]) = (line, lines.length) :: (ancestors lines line.depth).reverse := by
  have hSplit := List.takeWhile_append_dropWhile
    (p := fun other : Numbered => line.depth ≤ other.1.depth) (l := openLines lines)
  rw [openLines_append] at hStepped ⊢
  generalize (openLines lines).dropWhile (line.depth ≤ ·.1.depth) = outer at hStepped hSplit ⊢
  have hDepth : line.depth = outer.length + 1 := hStepped.1
  rw [hDepth, hNested.ancestors_eq hSplit.symm, List.reverse_reverse]

/-- Deeper lines do not change which line is the latest of a depth. -/
theorem latest?_append_of_deeper {before after : List Line} {depth : Nat}
    (hDeeper : ∀ other ∈ after, depth < other.depth) :
    latest? (before ++ after) depth = latest? before depth := by
  induction after using List.reverseRecOn with
  | nil => rw [List.append_nil]
  | append_singleton after other ih =>
      have hOther : depth < other.depth := hDeeper other (by simp)
      rw [← List.append_assoc, latest?_append, if_neg (by omega)]
      exact ih fun inside hInside => hDeeper inside (by simp [hInside])

/-- What holds of each of some lines with those in front of it holds so with one line more, if it
does of that line. -/
theorem forall_split_append {Holds : List Line → Line → Prop} {earlier : List Line} {line : Line}
    (hEarlier : ∀ before other after, earlier = before ++ other :: after → Holds before other)
    (hLine : Holds earlier line) (before : List Line) (other : Line) (after : List Line)
    (hSplit : earlier ++ [line] = before ++ other :: after) : Holds before other := by
  rcases List.eq_nil_or_concat after with rfl | ⟨after, last, rfl⟩
  · obtain ⟨rfl, hSame⟩ := List.append_inj' hSplit rfl
    obtain rfl := List.singleton_inj.1 hSame
    exact hLine
  · rw [List.concat_eq_append, ← List.cons_append, ← List.append_assoc] at hSplit
    exact hEarlier before other after (List.append_inj' hSplit rfl).1

theorem ancestors_append_of_deeper {before after : List Line} {depth : Nat}
    (hDeeper : ∀ other ∈ after, depth ≤ other.depth) :
    ancestors (before ++ after) depth = ancestors before depth := by
  refine List.filterMap_congr fun outer hOuter => ?_
  rw [List.mem_range] at hOuter
  apply latest?_append_of_deeper
  intro other hOther
  have hDepth := hDeeper other hOther
  omega

/-- Directly below a line, what is around it is around as well, and so is the line itself. -/
theorem ancestors_append_below (lines : List Line) {line : Line} (hPositive : 0 < line.depth) :
    ancestors (lines ++ [line]) (line.depth + 1) =
      ancestors lines line.depth ++ [(line, lines.length)] := by
  have hRange : line.depth + 1 - 1 = (line.depth - 1) + 1 := by omega
  have hSelf : latest? (lines ++ [line]) (line.depth - 1 + 1) = some (line, lines.length) := by
    rw [Nat.sub_add_cancel hPositive, latest?_append, if_pos rfl]
  have hOuter : (List.range (line.depth - 1)).filterMap
      (fun outer => latest? (lines ++ [line]) (outer + 1)) = ancestors lines line.depth :=
    ancestors_append_of_deeper (by simp)
  rw [ancestors, hRange, List.range_succ, List.filterMap_append, hOuter]
  simp [hSelf]

/-- A line is around all deeper ones that follow it directly. -/
theorem mem_ancestors_of_deeper (before : List Line) {line : Line} {inside : List Line}
    (hPositive : 0 < line.depth) (hInside : ∀ other ∈ inside, line.depth < other.depth)
    {depth : Nat} (hDepth : line.depth < depth) :
    (line, before.length) ∈ ancestors (before ++ [line] ++ inside) depth := by
  refine List.mem_filterMap.2 ⟨line.depth - 1, List.mem_range.2 (by omega), ?_⟩
  rw [Nat.sub_add_cancel hPositive, latest?_append_of_deeper hInside, latest?_append, if_pos rfl]

/-- A line is open if all lines after it are deeper. -/
theorem mem_openLines_of_deeper (before : List Line) {after : List Line} {line : Line}
    (hDeeper : ∀ other ∈ after, line.depth < other.depth) :
    (line, before.length) ∈ openLines (before ++ line :: after) := by
  induction after using List.reverseRecOn with
  | nil => simp [openLines_append]
  | append_singleton after other ih =>
      have hOther := hDeeper other (by simp)
      have hOpen := ih fun inside hInside => hDeeper inside (by simp [hInside])
      rw [← List.cons_append, ← List.append_assoc, openLines_append]
      refine List.mem_cons_of_mem _ ?_
      rw [← List.takeWhile_append_dropWhile
        (p := fun inside : Numbered => other.depth ≤ inside.1.depth)
        (l := openLines (before ++ line :: after)), List.mem_append] at hOpen
      rcases hOpen with hClosed | hOpen
      · have hLe := List.mem_takeWhile_imp hClosed
        simp only [decide_eq_true_eq] at hLe
        omega
      · exact hOpen

/-- Lines are all deeper than a depth, or one of them is the first that is not. -/
theorem deeper_or_exists_next (depth : Nat) (lines : List Line) :
    (∀ other ∈ lines, depth < other.depth) ∨
      ∃ inside next later, lines = inside ++ next :: later ∧
        (∀ other ∈ inside, depth < other.depth) ∧ next.depth ≤ depth := by
  induction lines with
  | nil => exact Or.inl (by simp)
  | cons line rest ih =>
      by_cases hDepth : depth < line.depth
      · rcases ih with hRest | ⟨inside, next, later, rfl, hInside, hNext⟩
        · exact Or.inl (List.forall_mem_cons.2 ⟨hDepth, hRest⟩)
        · exact Or.inr ⟨line :: inside, next, later, rfl,
            List.forall_mem_cons.2 ⟨hDepth, hInside⟩, hNext⟩
      · exact Or.inr ⟨[], line, rest, rfl, by simp, Nat.le_of_not_lt hDepth⟩

end Outline

end HostTree
