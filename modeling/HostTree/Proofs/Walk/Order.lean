import HostTree.Proofs.Drawing.Distinct
import HostTree.Proofs.Entry.Arranged
import HostTree.Proofs.Walk.Preorder
import HostTree.Proofs.Walk.Recursion
import Mathlib.Data.List.Nodup

/-!
The lines of a run in the order of the names that lead to them, however the file system changes
between the calls. Each line is known by its trail, the line itself behind those around it. A call
either goes on inside the latest line or beside one of the open lines, and what stands beside a line
comes later in one and the same listing. So trails only ever go up, and with them the ways that they
stand for.
-/

namespace HostTree

namespace Walk

open Outline

variable {options : DrawOptions} {root : Path} {views : Nat → View}

/-- Whether no listing of a run holds a name twice. -/
def ListsOnce (views : Nat → View) : Prop :=
  ∀ call directory listing, (views call).list directory = .ok listing → (listing.map (·.1)).Nodup

/-- The component that a line adds to the way to the directory in which it stands. -/
def component (root : Path) (views : Nat → View) (parent : Option Numbered) (line : Line) :
    Component where
  leadsToDirectory := line.kind = .directory ||
    (line.kind = .link && (views (listingCall parent)).resolvesToDirectory line.path)
  name := (directoryAt root parent).nameIn line.path

/-- The components of lines each of which stands in the one before it. -/
def components (root : Path) (views : Nat → View) :
    Option Numbered → List Numbered → List Component
  | _, [] => []
  | parent, item :: rest =>
    component root views parent item.1 :: components root views (some item) rest

/-- A line that comes after others, behind the lines that it is inside of. -/
def trail (earlier : List Line) (line : Line) : List Numbered :=
  ancestors earlier line.depth ++ [(line, earlier.length)]

/-- The components from the root down to a line that comes after others. -/
def wayTo (root : Path) (views : Nat → View) (earlier : List Line) (line : Line) : List Component :=
  components root views none (trail earlier line)

/-- Whether a line is that of a name in the listing of the directory in which it stands. -/
def IsListed (root : Path) (views : Nat → View) (parent : Option Numbered) (line : Line) : Prop :=
  ∃ listing name, (views (listingCall parent)).list (directoryAt root parent) = .ok listing ∧
    (name, line.kind) ∈ listing ∧ line.path = (directoryAt root parent).join name

/-- Whether two lines stand in one listing, the first one in front of the second. -/
structure Beside (options : DrawOptions) (root : Path) (views : Nat → View)
    (parent : Option Numbered) (first second : Line) : Prop where
  first_isListed : IsListed root views parent first
  second_isListed : IsListed root views parent second
  before : Component.Before options.directoriesFirst (component root views parent first)
    (component root views parent second)

/-- Whether a trail goes on inside the end of another one, or parts from it for a line that stands
behind its own in the same listing. -/
inductive Precedes (options : DrawOptions) (root : Path) (views : Nat → View) :
    Option Numbered → List Numbered → List Numbered → Prop where
  | inside {parent : Option Numbered} {item : Numbered} {rest : List Numbered} :
      Precedes options root views parent [] (item :: rest)
  | beside {parent : Option Numbered} {first second : Numbered} {rest others : List Numbered}
      (hBeside : Beside options root views parent first.1 second.1) :
      Precedes options root views parent (first :: rest) (second :: others)
  | under {parent : Option Numbered} {item : Numbered} {rest others : List Numbered}
      (hRest : Precedes options root views (some item) rest others) :
      Precedes options root views parent (item :: rest) (item :: others)

theorem IsListed.name_mem {parent : Option Numbered} {line : Line}
    (hListed : IsListed root views parent line) :
    ∃ listing, (views (listingCall parent)).list (directoryAt root parent) = .ok listing ∧
      ((component root views parent line).name, line.kind) ∈ listing ∧
      line.path = (directoryAt root parent).join (component root views parent line).name := by
  obtain ⟨listing, name, hListing, hName, hPath⟩ := hListed
  have hComponent : (component root views parent line).name = name := by
    rw [component, hPath, Path.nameIn_join]
  exact ⟨listing, hListing, hComponent ▸ hName, hComponent ▸ hPath⟩

theorem Beside.trans {parent : Option Numbered} {first second third : Line}
    (hFirst : Beside options root views parent first second)
    (hSecond : Beside options root views parent second third) :
    Beside options root views parent first third :=
  ⟨hFirst.first_isListed, hSecond.second_isListed, hFirst.before.trans hSecond.before⟩

/-- Two lines of one listing have different names. -/
theorem Beside.name_ne (hNames : ListsOnce views) {parent : Option Numbered}
    {first second : Line} (hBeside : Beside options root views parent first second) :
    (component root views parent first).name ≠ (component root views parent second).name := by
  intro hSame
  obtain ⟨listing, hListing, hFirst, hPath⟩ := hBeside.first_isListed.name_mem
  obtain ⟨other, hOther, hSecond, hOtherPath⟩ := hBeside.second_isListed.name_mem
  cases hListing.symm.trans hOther
  -- The name is listed once, so the lines agree in all that makes up a component.
  have hKind : first.kind = second.kind := by
    rw [hSame] at hFirst
    exact congrArg Prod.snd
      (List.inj_on_of_nodup_map (hNames _ _ _ hListing) hFirst hSecond rfl)
  have hPaths : first.path = second.path := by
    rw [hPath, hSame, ← hOtherPath]
  have hComponent : component root views parent first = component root views parent second := by
    rw [component, component, hKind, hPaths]
  have hBefore := hBeside.before
  rw [hComponent] at hBefore
  exact hBefore.irrefl

theorem Precedes.trans {parent : Option Numbered} {first second third : List Numbered}
    (hFirst : Precedes options root views parent first second)
    (hSecond : Precedes options root views parent second third) :
    Precedes options root views parent first third := by
  induction hFirst generalizing third with
  | inside =>
      cases hSecond with
      | beside => exact .inside
      | under => exact .inside
  | beside hBeside =>
      cases hSecond with
      | beside hOther => exact .beside (hBeside.trans hOther)
      | under => exact .beside hBeside
  | under hRest ih =>
      cases hSecond with
      | beside hOther => exact .beside hOther
      | under hOther => exact .under (ih hOther)

theorem Precedes.lex {parent : Option Numbered} {first second : List Numbered}
    (hPrecedes : Precedes options root views parent first second) :
    List.Lex (Component.Before options.directoriesFirst) (components root views parent first)
      (components root views parent second) := by
  induction hPrecedes with
  | inside => exact .nil
  | beside hBeside => exact .rel hBeside.before
  | under hRest ih => exact .cons ih

theorem Precedes.names_ne (hNames : ListsOnce views) {parent : Option Numbered}
    {first second : List Numbered} (hPrecedes : Precedes options root views parent first second) :
    (components root views parent first).map (·.name) ≠
      (components root views parent second).map (·.name) := by
  induction hPrecedes with
  | inside => simp [components]
  | beside hBeside =>
      intro hSame
      exact hBeside.name_ne hNames (List.cons.inj hSame).1
  | under hRest ih =>
      intro hSame
      exact ih (List.cons.inj hSame).2

/-- Trails that part behind the same lines. -/
theorem Precedes.behind (outer : List Numbered) {first second : List Numbered}
    (hPrecedes : Precedes options root views outer.head? first second) :
    Precedes options root views none (outer.reverse ++ first) (outer.reverse ++ second) := by
  induction outer generalizing first second with
  | nil => exact hPrecedes
  | cons item outer ih =>
      have hUnder : Precedes options root views outer.head? (item :: first) (item :: second) :=
        .under hPrecedes
      simpa using ih hUnder

theorem components_behind (outer rest : List Numbered) :
    components root views none (outer.reverse ++ rest) =
      components root views none outer.reverse ++ components root views outer.head? rest := by
  induction outer generalizing rest with
  | nil => rfl
  | cons item outer ih =>
      rw [List.reverse_cons, List.append_assoc, ih, ih [item], List.append_assoc]
      rfl

/-- What an entry of a frame says of its line. -/
theorem Hangs.component_eq {stack : List Frame} {lines : List Numbered} {frame : Frame}
    (hHangs : Hangs options root views stack lines frame)
    (hBranch : Branch options root views stack lines) {entry : Entry}
    (hEntry : frame.entries[frame.shown]? = some entry) :
    component root views lines.head? (frame.nextLine entry) = entry.component ∧
      IsListed root views lines.head? (frame.nextLine entry) := by
  obtain ⟨listing, name, kind, hListing, hName, rfl⟩ := hHangs.entry_eq hBranch hEntry
  refine ⟨?_, listing, name, hListing, hName, rfl⟩
  exact congrArg (Component.mk _) (Path.nameIn_join _ name)

/-- Two lines that a frame answers one after the other stand beside each other. -/
theorem Hangs.beside (hSort : options.sort = .name) (hNames : ListsOnce views)
    {stack : List Frame} {lines : List Numbered} {frame : Frame}
    (hHangs : Hangs options root views stack lines frame)
    (hBranch : Branch options root views stack lines) {entry next : Entry}
    (hEntry : frame.entries[frame.shown]? = some entry)
    (hNext : frame.showNext.entries[frame.showNext.shown]? = some next) :
    Beside options root views lines.head? (frame.nextLine entry)
      (frame.showNext.nextLine next) := by
  obtain ⟨hFirst, hFirstListed⟩ := hHangs.component_eq hBranch hEntry
  have hLater : Hangs options root views stack lines frame.showNext := hHangs
  obtain ⟨hSecond, hSecondListed⟩ := hLater.component_eq hBranch hNext
  refine ⟨hFirstListed, hSecondListed, ?_⟩
  rw [hFirst, hSecond]
  obtain ⟨entries, hEntries, hArranged⟩ := hHangs.entries_eq hBranch
  have hDiffer : (entries.map (·.name)).Nodup := by
    obtain ⟨listing, hListing, rfl⟩ := View.entries_eq_ok_iff.1 hEntries
    rw [List.map_map]
    exact hNames _ _ _ hListing
  have hOrder := Entry.pairwise_arrange hDiffer options.directoriesFirst
  rw [hSort] at hArranged
  rw [← hArranged] at hOrder
  obtain ⟨hShown, rfl⟩ := List.getElem?_eq_some_iff.1 hEntry
  obtain ⟨hNextShown, rfl⟩ := List.getElem?_eq_some_iff.1 hNext
  exact List.pairwise_iff_getElem.1 hOrder _ _ hShown hNextShown (Nat.lt_succ_self _)

/-- A line that a frame answers leaves open what is around the frame. -/
theorem openLines_append_nextLine {earlier : List Line} {inner outer : List Numbered}
    {stack : List Frame} {frame : Frame} (hStepped : Stepped (openLines earlier))
    (hSplit : openLines earlier = inner ++ outer)
    (hBranch : Branch options root views stack outer)
    (hHangs : Hangs options root views stack outer frame) (entry : Entry) :
    openLines (earlier ++ [frame.nextLine entry]) =
      (frame.nextLine entry, earlier.length) :: outer := by
  have hDepth := hHangs.depth_eq hBranch
  rw [hBranch.length_eq] at hDepth
  rw [openLines_append, hSplit]
  congr 1
  exact (hSplit ▸ hStepped).dropWhile hDepth

/-- The trail of the line that a frame answers comes after that of the line before it, if the frame
has answered one that is still open. -/
theorem precedes_of_branch (hSort : options.sort = .name) (hNames : ListsOnce views)
    {earlier : List Line} {closed rest : List Frame} {frame : Frame} {entry : Entry}
    (hBranch : Branch options root views (closed ++ frame :: rest) (openLines earlier))
    (hClosed : ∀ frame ∈ closed, frame.Exhausted)
    (hEntry : frame.entries[frame.shown]? = some entry) :
    Precedes options root views none (openLines earlier).reverse
      (openLines (earlier ++ [frame.nextLine entry])).reverse := by
  have hStepped := hBranch.stepped
  obtain ⟨inner, outer, hSplit, hRest, -⟩ := hBranch.close hClosed
  generalize hFrames : frame :: rest = frames at hRest
  cases hRest with
  | nil => simp at hFrames
  | @cons _ outer parent shown hOuter hHangs hShown number =>
      obtain ⟨rfl, rfl⟩ := List.cons.inj hFrames
      have hLater : Hangs options root views rest outer parent.showNext := hHangs
      have hBeside := hHangs.beside hSort hNames hOuter hShown hEntry
      have hOwn : openLines earlier = (inner ++ [(parent.nextLine shown, number)]) ++ outer := by
        rw [hSplit, List.append_assoc, List.singleton_append]
      rw [openLines_append_nextLine hStepped hOwn hOuter hLater, hSplit]
      simpa using Precedes.behind outer (.beside hBeside)

/-- Each call of a run answers a line whose trail comes after that of the line before. -/
theorem Stands.precedes (hSort : options.sort = .name) (hNames : ListsOnce views) {walk : Walk}
    {earlier : List Line} (hStands : Stands options root views earlier walk)
    (hDone : walk.done = false) {line : Line} {later : Walk}
    (hCall : Call walk (views earlier.length) (some (.ok line)) later) :
    Precedes options root views none (openLines earlier).reverse
      (openLines (earlier ++ [line])).reverse := by
  cases hCall with
  | @line closed rest frame entry hOpened hClosed hEntry =>
      rcases hStands.opened_eq_ok hDone hOpened with
        hBranch | ⟨listing, outer, hFrames, hShown, hBranch, hHangs⟩
      · exact precedes_of_branch hSort hNames hBranch hClosed hEntry
      · cases closed with
        | nil =>
            obtain ⟨rfl, rfl⟩ := List.cons.inj hFrames
            rw [openLines_append_nextLine hBranch.stepped (List.nil_append _).symm hBranch hHangs,
              List.reverse_cons]
            simpa using Precedes.behind (openLines earlier) .inside
        | cons first closed =>
            obtain ⟨rfl, rfl⟩ := List.cons.inj hFrames
            exact precedes_of_branch hSort hNames hBranch
              (fun other hOther => hClosed other (List.mem_cons_of_mem _ hOther)) hEntry

/-- The trails of some lines come after each other, one by one. -/
def Ascends (options : DrawOptions) (root : Path) (views : Nat → View) (lines : List Line) : Prop :=
  ∀ earlier line later, lines = earlier ++ line :: later →
    Precedes options root views none (openLines earlier).reverse
      (openLines (earlier ++ [line])).reverse

theorem ascends_lines (hSort : options.sort = .name) (hNames : ListsOnce views) (root : Path)
    (calls : Nat) : Ascends options root views ((start options root).lines views calls) := by
  induction calls with
  | zero => simp [Ascends, Walk.lines]
  | succ calls ih =>
      by_cases hLine : ∃ line, (start options root).answer views calls = some (.ok line)
      · obtain ⟨line, hAnswer⟩ := hLine
        rw [lines_succ_of_ok hAnswer]
        refine forall_split_append ih ?_
        obtain ⟨hStands, -, hLength⟩ := stands_after options root views calls
        have hDone := not_done_of_next hAnswer
        have hCall : Call ((start options root).after views calls)
            (views ((start options root).lines views calls).length) (some (.ok line))
            ((start options root).after views (calls + 1)) := by
          rw [hLength hDone, ← hAnswer]
          exact call_next hDone (views calls)
        exact hStands.precedes hSort hNames hDone hCall
      · rw [not_exists] at hLine
        rw [lines_succ_of_ne_ok hLine]
        exact ih

/-- Of any two lines, the trail of the later one comes after that of the other. -/
theorem Ascends.precedes {lines : List Line} (hAscends : Ascends options root views lines)
    {first second : Nat} (hOrder : first < second) (hSecond : second < lines.length) :
    Precedes options root views none (openLines (lines.take (first + 1))).reverse
      (openLines (lines.take (second + 1))).reverse := by
  have hStep : ∀ number, number < lines.length →
      Precedes options root views none (openLines (lines.take number)).reverse
        (openLines (lines.take (number + 1))).reverse := by
    intro number hNumber
    rw [List.take_succ_eq_append_getElem hNumber]
    refine hAscends (lines.take number) lines[number] (lines.drop (number + 1)) ?_
    rw [← List.drop_eq_getElem_cons, List.take_append_drop]
  induction second with
  | zero => omega
  | succ second ih =>
      rcases Nat.lt_succ_iff_lt_or_eq.1 hOrder with hLess | rfl
      · exact (ih hLess (Nat.lt_of_succ_lt hSecond)).trans (hStep (second + 1) hSecond)
      · exact hStep (first + 1) hSecond

/-- The trail of a line that follows others, as open frames stand behind it. -/
theorem Follows.exists_branch {earlier : List Line} {line : Line}
    (hFollows : Follows options root views earlier line) (hNested : Nested earlier) :
    ∃ stack outer, Branch options root views stack ((line, earlier.length) :: outer) ∧
      openLines (earlier ++ [line]) = (line, earlier.length) :: outer ∧
      trail earlier line = outer.reverse ++ [(line, earlier.length)] ∧
      latest? earlier (line.depth - 1) = outer.head? ∧ IsListed root views outer.head? line := by
  cases hFollows with
  | @intro closed outer rest frame entry hSplit hBranch hHangs hEntry hClosed =>
      have hDepth : (frame.nextLine entry).depth = outer.length + 1 := by
        rw [← hBranch.length_eq]
        exact hHangs.depth_eq hBranch
      refine ⟨_, outer, .cons hBranch hHangs hEntry _, ?_, ?_, ?_, ?_⟩
      · exact openLines_append_nextLine hNested.stepped hSplit hBranch hHangs entry
      · rw [trail, hDepth, hNested.ancestors_eq hSplit]
      · rw [hDepth, Nat.add_sub_cancel, hNested.latest?_eq_head? hSplit]
      · exact (hHangs.component_eq hBranch hEntry).2

/-- The way to a line spells its path, with names that were listed. -/
theorem Branch.path_eq {stack : List Frame} {items : List Numbered}
    (hBranch : Branch options root views stack items) :
    directoryAt root items.head? =
        ((components root views none items.reverse).map (·.name)).foldl Path.join root ∧
      ∀ name ∈ (components root views none items.reverse).map (·.name),
        ∃ call directory listing, (views call).list directory = .ok listing ∧
          name ∈ listing.map (·.1) := by
  induction hBranch with
  | nil => simp [components, directoryAt]
  | @cons stack outer frame entry hOuter hHangs hEntry number ih =>
      obtain ⟨listing, hListing, hName, hPath⟩ := (hHangs.component_eq hOuter hEntry).2.name_mem
      rw [List.reverse_cons, components_behind, List.map_append, List.foldl_append, ← ih.1]
      refine ⟨hPath, ?_⟩
      intro name hMem
      rcases List.mem_append.1 hMem with hMem | hMem
      · exact ih.2 name hMem
      · rw [List.mem_singleton.1 hMem]
        exact ⟨_, _, listing, hListing, List.mem_map_of_mem hName⟩

/-- Each line of a run has a trail of open frames. -/
theorem exists_branch_of_lines (options : DrawOptions) (root : Path) (views : Nat → View)
    (calls : Nat) {number : Nat}
    (hNumber : number < ((start options root).lines views calls).length) :
    let lines := (start options root).lines views calls
    ∃ stack outer, Branch options root views stack ((lines[number], number) :: outer) ∧
      openLines (lines.take (number + 1)) = (lines[number], number) :: outer ∧
      trail (lines.take number) lines[number] = outer.reverse ++ [(lines[number], number)] ∧
      latest? (lines.take number) (lines[number].depth - 1) = outer.head? ∧
      IsListed root views outer.head? lines[number] := by
  intro lines
  have hSplit : lines = lines.take number ++ lines[number] :: lines.drop (number + 1) := by
    rw [← List.drop_eq_getElem_cons, List.take_append_drop]
  have hHistory : History options root views lines := (stands_after options root views calls).2.1
  have hEarlier : History options root views (lines.take number) := by
    rw [hSplit] at hHistory
    exact hHistory.of_append
  have hBranch := (hHistory _ _ _ hSplit).exists_branch hEarlier.nested
  rw [List.length_take_of_le hNumber.le, ← List.take_succ_eq_append_getElem hNumber] at hBranch
  exact hBranch

/-- The path of a line of a run is spelt by the way to it, with names that were listed. -/
theorem path_eq_of_lines (options : DrawOptions) (root : Path) (views : Nat → View) (calls : Nat)
    {number : Nat} (hNumber : number < ((start options root).lines views calls).length) :
    let lines := (start options root).lines views calls
    let names := (wayTo root views (lines.take number) lines[number]).map (·.name)
    lines[number].path = names.foldl Path.join root ∧
      ∀ name ∈ names, ∃ call directory listing,
        (views call).list directory = .ok listing ∧ name ∈ listing.map (·.1) := by
  intro lines names
  obtain ⟨stack, outer, hBranch, -, hTrail, -⟩ :=
    exists_branch_of_lines options root views calls hNumber
  have hPath := hBranch.path_eq
  rw [List.reverse_cons, ← hTrail] at hPath
  exact hPath

/-- Of any two lines of a run, the trail of the later one comes after that of the other. -/
theorem precedes_of_lines (hSort : options.sort = .name) (hNames : ListsOnce views) (root : Path)
    (calls : Nat) {first second : Nat} (hOrder : first < second)
    (hFirst : first < ((start options root).lines views calls).length)
    (hSecond : second < ((start options root).lines views calls).length) :
    let lines := (start options root).lines views calls
    Precedes options root views none (trail (lines.take first) lines[first])
      (trail (lines.take second) lines[second]) := by
  intro lines
  have hTrail : ∀ number (hNumber : number < lines.length),
      trail (lines.take number) lines[number] =
        (openLines (lines.take (number + 1))).reverse := by
    intro number hNumber
    obtain ⟨stack, outer, -, hOpen, hOwn, -⟩ :=
      exists_branch_of_lines options root views calls hNumber
    rw [hOwn, hOpen, List.reverse_cons]
  rw [hTrail first hFirst, hTrail second hSecond]
  exact (ascends_lines hSort hNames root calls).precedes hOrder hSecond

/-- The lines of every run in which no listing holds a name twice are answered in the order of the
names that lead to them, whatever becomes of the file system between the calls, if directories are
sorted by name. The names are those that were listed; what is inside of a line comes directly after
it, and what stands in one directory comes in the order of the names' octets, or with directories in
front if these are grouped. So no two lines have the same names behind them, and where names are
components of paths, as they are in every file system, no path is answered twice. -/
theorem lines_ascend (options : DrawOptions) (root : Path) (views : Nat → View) (calls : Nat)
    (hSort : options.sort = .name) (hNames : ListsOnce views) :
    let lines := (start options root).lines views calls
    (∀ number line, lines[number]? = some line →
      let parent := latest? (lines.take number) (line.depth - 1)
      ∃ listing, (views (listingCall parent)).list (directoryAt root parent) = .ok listing ∧
        ((component root views parent line).name, line.kind) ∈ listing ∧
        line.path = (directoryAt root parent).join (component root views parent line).name) ∧
    (∀ first second line later, first < second → lines[first]? = some line →
      lines[second]? = some later →
      List.Lex (Component.Before options.directoriesFirst)
        (wayTo root views (lines.take first) line) (wayTo root views (lines.take second) later) ∧
      (wayTo root views (lines.take first) line).map (·.name) ≠
        (wayTo root views (lines.take second) later).map (·.name)) ∧
    ((∀ call directory listing, (views call).list directory = .ok listing →
      ∀ name ∈ listing.map (·.1), Path.IsName name) → (lines.map (·.path)).Nodup) := by
  intro lines
  have hDiffer : ∀ first second (hFirst : first < lines.length) (hSecond : second < lines.length),
      first < second →
      (wayTo root views (lines.take first) lines[first]).map (·.name) ≠
        (wayTo root views (lines.take second) lines[second]).map (·.name) := by
    intro first second hFirst hSecond hOrder
    exact (precedes_of_lines hSort hNames root calls hOrder hFirst hSecond).names_ne hNames
  refine ⟨?_, ?_, ?_⟩
  · intro number line hLine
    obtain ⟨hNumber, rfl⟩ := List.getElem?_eq_some_iff.1 hLine
    obtain ⟨stack, outer, -, -, -, hParent, hListed⟩ :=
      exists_branch_of_lines options root views calls hNumber
    rw [hParent]
    exact hListed.name_mem
  · intro first second line later hOrder hLine hLater
    obtain ⟨hFirst, rfl⟩ := List.getElem?_eq_some_iff.1 hLine
    obtain ⟨hSecond, rfl⟩ := List.getElem?_eq_some_iff.1 hLater
    exact ⟨(precedes_of_lines hSort hNames root calls hOrder hFirst hSecond).lex,
      hDiffer first second hFirst hSecond hOrder⟩
  · intro hProper
    rw [List.Nodup, List.pairwise_map, List.pairwise_iff_getElem]
    intro first second hFirst hSecond hOrder hSame
    obtain ⟨hPath, hListed⟩ := path_eq_of_lines options root views calls hFirst
    obtain ⟨hOther, hOtherListed⟩ := path_eq_of_lines options root views calls hSecond
    refine hDiffer first second hFirst hSecond hOrder (Path.eq_of_foldl_join_eq root ?_ ?_ ?_)
    · intro name hName
      obtain ⟨call, directory, listing, hListing, hMem⟩ := hListed name hName
      exact hProper call directory listing hListing name hMem
    · intro name hName
      obtain ⟨call, directory, listing, hListing, hMem⟩ := hOtherListed name hName
      exact hProper call directory listing hListing name hMem
    · rw [← hPath, ← hOther]
      exact hSame

/-- A current directory with the file `a-b` and the directory `a`, which holds the file `x`. -/
def hyphened : FileSystem :=
  ⟨[.directory .newDirectory 0 [],
    .directory .newDirectory 0 [(Octets.ofString "a-b", 2), (Octets.ofString "a", 3)],
    .file .newFile (.octets []),
    .directory .newDirectory 1 [(Octets.ofString "x", 2)]]⟩

/-- The same with the file `w` behind `x`. -/
def grown : FileSystem :=
  hyphened.modify 3 (FileSystem.addName (Octets.ofString "w") 2)

/-- The file `w` appears after the first call. -/
def growing (call : Nat) : View :=
  if call = 0 then hyphened.view else grown.view

theorem namesDiffer_growing (call : Nat) : (growing call).NamesDiffer := by
  unfold growing
  split
  · exact FileSystem.namesDiffer_view (by decide)
  · exact FileSystem.namesDiffer_view (by decide)

/-- One of its entries. -/
def entryOfGrown (directory name : String) (kind : EntryKind) : Entry :=
  grown.view.entry (.ofString directory) (Octets.ofString name) kind

/-- What the first call leaves to the others. -/
def grownFrame : Frame where
  directory := .ofString "."
  identity := 1
  lead := ""
  depth := 1
  entries := [entryOfGrown "." "a" .directory, entryOfGrown "." "a-b" .file]
  shown := 1

theorem next_growing : (start .default (.ofString ".")).next (growing 0) =
    (some (.ok (.ofEntry "" 1 (entryOfGrown "." "a" .directory) false)),
      running .default [grownFrame] (some ⟨.ofString "./a", Guide.continuation, 2⟩)) := by
  have hStart : (growing 0).directory (.ofString ".") = .ok 1 := by decide
  have hEntries : (growing 0).entries (.ofString ".") =
      .ok [entryOfGrown "." "a-b" .file, entryOfGrown "." "a" .directory] := by decide
  have hRoot : (growing 0).openDirectory .default [] (.ofString ".") =
      .ok (1, grownFrame.entries) :=
    View.openDirectory_eq_ok_iff.2
      ⟨hStart, by decide, _, hEntries, (Entry.arrange_of_ascends (by decide) (by decide)).symm⟩
  have hOpened : (start .default (.ofString ".")).opened (growing 0) =
      .ok [{ grownFrame with shown := 0 }] := by
    rw [opened_start, openRoot, hStart]
    simp only [openFrame, List.map_nil, hRoot]
    rfl
  rw [next_of_not_done rfl, hOpened]
  decide

/-- The lines there. The hyphen comes before the slash in the order of octets, but what is inside of
`a` comes before `a-b`. -/
theorem paths_growing :
    ((start .default (.ofString ".")).lines growing 5).map (·.path) =
      [.ofString "./a", .ofString "./a/w", .ofString "./a/x", .ofString "./a-b"] := by
  have hInside : grown.view.openDirectory .default ([grownFrame].map (·.identity))
      (.ofString "./a") = .ok (3, [entryOfGrown "./a" "w" .file, entryOfGrown "./a" "x" .file]) :=
    View.openDirectory_eq_ok_iff.2 ⟨by decide, by decide,
      [entryOfGrown "./a" "x" .file, entryOfGrown "./a" "w" .file], by decide,
      (Entry.arrange_of_ascends (by decide) (by decide)).symm⟩
  have hRest : remaining (running .default [grownFrame]
      (some ⟨.ofString "./a", Guide.continuation, 2⟩)) grown.view =
        [.ok (.ofEntry Guide.continuation 2 (entryOfGrown "./a" "w" .file) false),
          .ok (.ofEntry Guide.continuation 2 (entryOfGrown "./a" "x" .file) true),
          .ok (.ofEntry "" 1 (entryOfGrown "." "a-b" .file) true)] := by
    simp only [remaining_running]
    rw [View.drawInside_of_ok hInside]
    rfl
  have hLater : ∀ call, (start .default (.ofString ".")).answer growing (call + 1) =
      (remaining (running .default [grownFrame] (some ⟨.ofString "./a", Guide.continuation, 2⟩))
        grown.view)[call]? := by
    intro call
    rw [answer_succ, next_growing, ← answer_eq_remaining]
    rfl
  have hFirst : (start .default (.ofString ".")).answer growing 0 =
      some (.ok (.ofEntry "" 1 (entryOfGrown "." "a" .directory) false)) := by
    rw [answer, after, next_growing]
  simp only [Walk.lines, hFirst, hLater, hRest]
  decide

theorem lines_ascend_growing :
    DrawOptions.default.sort = .name ∧ ListsOnce growing ∧
    (((start .default (.ofString ".")).lines growing 5).map (·.path)).Nodup ∧
    ∃ line later, line.path = .ofString "./a/x" ∧ later.path = .ofString "./a-b" ∧
      List.Lex (Component.Before false)
        (wayTo (.ofString ".") growing
          (((start .default (.ofString ".")).lines growing 5).take 2) line)
        (wayTo (.ofString ".") growing
          (((start .default (.ofString ".")).lines growing 5).take 3) later) := by
  have hOnce : ListsOnce growing := fun call directory listing hListing =>
    (namesDiffer_growing call directory listing hListing).1
  obtain ⟨-, hAscend, hNodup⟩ := lines_ascend .default (.ofString ".") growing 5 rfl hOnce
  have hLine := congrArg (·[2]?) paths_growing
  have hLater := congrArg (·[3]?) paths_growing
  simp only [List.getElem?_map, List.getElem?_cons_succ, List.getElem?_cons_zero,
    Option.map_eq_some_iff] at hLine hLater
  obtain ⟨line, hLine, hPath⟩ := hLine
  obtain ⟨later, hLater, hLaterPath⟩ := hLater
  refine ⟨rfl, hOnce, hNodup ?_, line, later, hPath, hLaterPath, ?_⟩
  · intro call directory listing hListing
    exact (namesDiffer_growing call directory listing hListing).2
  · exact (hAscend 2 3 line later (by decide) hLine hLater).1

end Walk

end HostTree
