import HostTree.Proofs.FileSystem.Tree
import HostTree.Proofs.Walk.Failure
import HostTree.Proofs.Walk.Order

/-!
Cycles that a walk reports on a file system that does not change and whose directories are a tree.
From one open directory to the next it takes a link or a step down the tree. Steps down alone never
lead back, so there is a link on the way to whatever is found to be open already.
-/

namespace HostTree

namespace Walk

open Outline

variable {options : DrawOptions} {root : Path} {stack : List Frame} {lines : List Numbered}
  {frame : Frame}

/-- Lines inside of which something is listed are those of directories or of links that are
followed. -/
theorem Hangs.kind_of_mem {views : Nat → View}
    (hHangs : Hangs options root views stack lines frame)
    (hBranch : Branch options root views stack lines) {line : Numbered} (hLine : line ∈ lines) :
    line.1.kind = .directory ∨ line.1.kind = .link ∧ options.followLinks = true := by
  induction hBranch generalizing frame with
  | nil => simp at hLine
  | @cons _ outer parent entry hOuter hParent hEntry number ih =>
      rcases List.mem_cons.1 hLine with rfl | hLine
      · obtain ⟨descent, hDescent, -⟩ := (hangs_cons_iff hEntry).1 hHangs
        obtain ⟨hDescends, -⟩ := descent?_eq_some_iff.1 hDescent
        rw [DrawOptions.descends, Bool.and_eq_true] at hDescends
        exact (enters_iff.1 hDescends.1).imp_right fun hLink => ⟨hLink.1, hLink.2.1⟩
      · exact ih hParent hLine

variable {view : View} {holds : Identity → Octets → Identity → Prop}

theorem Hangs.exists_holds (hTree : view.HoldsTree holds)
    (hHangs : Hangs options root (fun _ => view) stack lines frame)
    (hBranch : Branch options root (fun _ => view) stack lines) {entry : Entry}
    (hEntry : frame.entries[frame.shown]? = some entry) (hKind : entry.kind = .directory)
    {identity : Identity} (hDirectory : view.directory entry.path = .ok identity) :
    ∃ name, holds frame.identity name identity := by
  obtain ⟨hOuter, -⟩ := View.openDirectory_eq_ok_iff.1 (hHangs.openDirectory_eq hBranch)
  obtain ⟨listing, name, kind, hListing, hName, rfl⟩ := hHangs.entry_eq hBranch hEntry
  cases hKind
  obtain ⟨inner, hHolds, hReaches⟩ := hTree.reaches _ _ _ _ hOuter hListing hName
  cases hReaches _ (View.directory_eq_ok_iff.1 hDirectory)
  exact ⟨name, hHolds⟩

/-- Where all lines are those of directories, the tree leads down from every open directory to that
of the innermost line. -/
theorem Branch.transGen_holds (hTree : view.HoldsTree holds)
    (hBranch : Branch options root (fun _ => view) stack lines)
    (hKinds : ∀ line ∈ lines, line.1.kind = .directory) {identity : Identity}
    (hDirectory : view.directory (directoryAt root lines.head?) = .ok identity)
    (hFrame : frame ∈ stack) :
    Relation.TransGen (fun outer inner => ∃ name, holds outer name inner) frame.identity
      identity := by
  induction hBranch generalizing identity with
  | nil => simp at hFrame
  | @cons _ outer inner entry hOuter hHangs hEntry number ih =>
      rw [List.forall_mem_cons] at hKinds
      have hStep := hHangs.exists_holds hTree hOuter hEntry hKinds.1 hDirectory
      rcases List.mem_cons.1 hFrame with rfl | hFrame
      · exact .single hStep
      · obtain ⟨hAround, -⟩ := View.openDirectory_eq_ok_iff.1 (hHangs.openDirectory_eq hOuter)
        exact (ih hKinds.2 hAround hFrame).tail hStep

/-- The lines that lead to what is still to be listed are those of directories or of links that are
followed. -/
theorem Branch.kind_of_mem {views : Nat → View} {earlier : List Line} {item line : Numbered}
    (hBranch : Branch options root views stack (item :: lines))
    (hDescended : IsDescended options views earlier item.1) (hLine : line ∈ item :: lines) :
    line.1.kind = .directory ∨ line.1.kind = .link ∧ options.followLinks = true := by
  rcases List.mem_cons.1 hLine with rfl | hOuterLine
  · exact hDescended.1.imp_right fun hLink => ⟨hLink.1, hLink.2.1⟩
  · cases hBranch with
    | cons hOuter hHangs => exact hHangs.kind_of_mem hOuter hOuterLine

theorem Branch.exists_link (hTree : view.HoldsTree holds) {earlier : List Line} {item : Numbered}
    (hBranch : Branch options root (fun _ => view) stack (item :: lines))
    (hDescended : IsDescended options (fun _ => view) earlier item.1) (hFrame : frame ∈ stack)
    (hDirectory : view.directory item.1.path = .ok frame.identity) :
    ∃ line ∈ item :: lines, line.1.kind = .link ∧ options.followLinks = true := by
  by_contra hNone
  -- Without a link all steps are down the tree, from the directory that is open back to itself.
  have hKinds : ∀ line ∈ item :: lines, line.1.kind = .directory := by
    intro line hLine
    rcases hBranch.kind_of_mem hDescended hLine with hKind | hLink
    · exact hKind
    · exact absurd ⟨line, hLine, hLink⟩ hNone
  exact hTree.acyclic _ (hBranch.transGen_holds hTree hKinds hDirectory hFrame)

theorem exists_link_of_answer (hTree : view.HoldsTree holds) {call : Nat} {path : Path}
    (hAnswer : (start options root).answer (fun _ => view) call =
      some (.error (.linkCycle path))) :
    ∃ before line, call = before + 1 ∧
      (start options root).answer (fun _ => view) before = some (.ok line) ∧ line.path = path ∧
      (∃ item ∈ trail ((start options root).lines (fun _ => view) before) line,
        item.1.kind = .link ∧ options.followLinks = true) ∧
      ∃ identity, view.directory path = .ok identity ∧
        ∃ parent ∈ none ::
          (ancestors ((start options root).lines (fun _ => view) before) line.depth).map some,
          view.directory (directoryAt root parent) = .ok identity := by
  obtain ⟨directory, hVisits, hRefuses⟩ := answer_eq_error_iff.1 hAnswer
  obtain ⟨rfl, identity, hDirectory, hAround⟩ := hRefuses.exists_of_linkCycle
  rcases hVisits.after_eq with ⟨rfl, -⟩ | ⟨stack, descent, rfl, hWalk⟩
  · exact False.elim hAround
  · obtain ⟨frame, hFrame, rfl⟩ := List.mem_map.1 ((isAround_iff hWalk identity).1 hAround)
    obtain ⟨before, line, rfl, hLine, hBranch, hPending⟩ := exists_of_running hWalk
    obtain ⟨hDescended, hPath⟩ := (hPending descent.path).1 rfl
    obtain ⟨_, hSame, hParent⟩ := hAround
    cases hSame.symm.trans hLine
    obtain ⟨item, hItem, hLink⟩ :=
      hBranch.exists_link hTree hDescended hFrame (hPath ▸ hDirectory)
    refine ⟨before, line, rfl, hLine, hPath.symm, ?_, frame.identity, hDirectory, hParent⟩
    rcases List.mem_cons.1 hItem with rfl | hOuter
    · exact ⟨_, List.mem_append_right _ (List.mem_singleton_self _), hLink⟩
    · exact ⟨item, List.mem_append_left _ (List.mem_reverse.1 hOuter), hLink⟩

/-- On a file system that does not change and whose directories are a tree, a walk that ends with a
cycle has come to it through a link that it follows: the line in front of the failure or one around
it is that of a link. The directory that was found to be open is the root or that of a line around.
So there are no cycles where links are not followed. -/
theorem cycle_has_link (view : View) (holds : Identity → Octets → Identity → Prop)
    (hTree : view.HoldsTree holds) (options : DrawOptions) (root : Path) :
    (∀ call path,
      (start options root).answer (fun _ => view) call = some (.error (.linkCycle path)) →
      ∃ before line, call = before + 1 ∧
        (start options root).answer (fun _ => view) before = some (.ok line) ∧ line.path = path ∧
        (∃ item ∈ trail ((start options root).lines (fun _ => view) before) line,
          item.1.kind = .link) ∧
        ∃ identity, view.directory path = .ok identity ∧
          ∃ parent ∈ none ::
            (ancestors ((start options root).lines (fun _ => view) before) line.depth).map some,
            view.directory (directoryAt root parent) = .ok identity) ∧
    (options.followLinks = false → ∀ call path,
      (start options root).answer (fun _ => view) call ≠ some (.error (.linkCycle path))) := by
  constructor
  · intro call path hAnswer
    obtain ⟨before, line, hCall, hLine, hPath, ⟨item, hItem, hKind, -⟩, hAround⟩ :=
      exists_link_of_answer hTree hAnswer
    exact ⟨before, line, hCall, hLine, hPath, ⟨item, hItem, hKind⟩, hAround⟩
  · intro hFollow call path hAnswer
    obtain ⟨-, -, -, -, -, ⟨-, -, -, hFollowed⟩, -⟩ := exists_link_of_answer hTree hAnswer
    simp [hFollow] at hFollowed

/-- A current directory that holds the directory `d`, which holds a link `b` back to it. -/
def looped : FileSystem :=
  ⟨[.directory .newDirectory 0 [],
    .directory .newDirectory 0 [(Octets.ofString "d", 2)],
    .directory .newDirectory 1 [(Octets.ofString "b", 3)],
    .link (.ofString "..")]⟩

theorem holdsTree_looped : looped.view.HoldsTree looped.Contains :=
  FileSystem.holdsTree_view (by decide) (FileSystem.not_transGen_of_lt (by decide))

/-- The link back is found to be a cycle, and is the link on the way to it. Where it is not
followed, there is none. -/
theorem cycle_has_link_looped : looped.view.HoldsTree looped.Contains ∧
    (∃ line, (start unsorted (.ofString ".")).answer (fun _ => looped.view) 1 = some (.ok line) ∧
      line.path = .ofString "./d/b" ∧
      ∃ item ∈ trail ((start unsorted (.ofString ".")).lines (fun _ => looped.view) 1) line,
        item.1.kind = .link) ∧
    unfollowed.followLinks = false ∧
    ∀ call path, (start unfollowed (.ofString ".")).answer (fun _ => looped.view) call ≠
      some (.error (.linkCycle path)) := by
  have hCycle : (start unsorted (.ofString ".")).answer (fun _ => looped.view) 2 =
      some (.error (.linkCycle (.ofString "./d/b"))) := by decide
  obtain ⟨hLink, -⟩ :=
    cycle_has_link looped.view looped.Contains holdsTree_looped unsorted (.ofString ".")
  obtain ⟨-, hNone⟩ :=
    cycle_has_link looped.view looped.Contains holdsTree_looped unfollowed (.ofString ".")
  obtain ⟨before, line, hBefore, hLine, hPath, hItem, -⟩ := hLink 2 _ hCycle
  cases hBefore
  exact ⟨holdsTree_looped, ⟨line, hLine, hPath, hItem⟩, rfl, hNone rfl⟩

end Walk

end HostTree
