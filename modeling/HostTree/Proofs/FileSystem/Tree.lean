import HostTree.Proofs.FileSystem.Look
import HostTree.Proofs.Path.Within
import Mathlib.Logic.Relation

/-!
The directories of a file system as a tree. A directory that holds another one leads to it by its
name, on whatever way it was reached itself, or not at all.
-/

namespace HostTree

/-- Whether the directories that a view lists as such are a tree, in which `holds` says what is held
where: one that is reached at a path leads to those that it lists, or not at all, and none is inside
of itself. It makes no difference whether some directory is held twice. -/
structure View.HoldsTree (view : View) (holds : Identity → Octets → Identity → Prop) : Prop where
  reaches : ∀ path outer listing name, view.directory path = .ok outer →
    view.list path = .ok listing → (name, EntryKind.directory) ∈ listing →
      ∃ inner, holds outer name inner ∧
        ∀ found, view.stat (path.join name) = .ok found → found = ⟨true, inner⟩
  acyclic : ∀ identity,
    ¬Relation.TransGen (fun outer inner => ∃ name, holds outer name inner) identity identity

namespace FileSystem

variable {fs : FileSystem}

/-- Whether a directory holds another one under a name. -/
def Contains (fs : FileSystem) (outer : Inode) (name : Octets) (inner : Inode) : Prop :=
  ∃ permissions above names node, fs.node? outer = some (.directory permissions above names) ∧
    names.lookup name = some inner ∧ fs.node? inner = some node ∧ node.isDirectory = true

/-- Whether an outcome, if it is a certain directory, is in a case that goes further another one or
a failure. -/
def GoesOn (outer inner : Inode) (outcome further : Except IoError Target) : Prop :=
  outcome = .ok (.existing outer) → AlsoLeads further (.ok (.existing inner))

theorem GoesOn.of_error {outer inner : Inode} (error : IoError) (further : Except IoError Target) :
    GoesOn outer inner (.error error) further :=
  fun hOuter => by simp at hOuter

theorem octets_ne_nil_of_pathFault? {path : Path} (hFault : pathFault? path = none) :
    path.octets ≠ [] := by
  intro hEmpty
  simp [pathFault?, hEmpty] at hFault

theorem lookup_of_mem {names : List (Octets × Inode)} (hNodup : (names.map (·.1)).Nodup)
    {name : Octets} {inode : Inode} (hMem : (name, inode) ∈ names) :
    names.lookup name = some inode := by
  obtain ⟨before, after, rfl⟩ := List.append_of_mem hMem
  refine List.lookup_eq_some_iff.2 ⟨before, after, rfl, ?_⟩
  rw [List.map_append, List.map_cons, List.nodup_append] at hNodup
  intro held hHeld
  have hOther := hNodup.2.2 held.1 (List.mem_map_of_mem hHeld) name List.mem_cons_self
  simpa using hOther.symm

section Contained

variable {outer inner : Inode} {name : Octets} (hContains : fs.Contains outer name inner)
  (hHere : name ≠ Path.here) (hAbove : name ≠ Path.above)
include hContains hHere hAbove

theorem follow_contained (atLink : Continuation) :
    AlsoLeads (follow fs asOwner atLink outer [name] false) (.ok (.existing inner)) := by
  obtain ⟨permissions, above, names, node, hOuter, hName, hInner, hDirectory⟩ := hContains
  obtain ⟨innerPermissions, innerAbove, innerNames, rfl⟩ := isDirectory_iff.1 hDirectory
  rw [follow_of_directory hOuter, if_neg hHere, if_neg hAbove, hName]
  simp only [followHeld, hInner, follow, asOwner, Bool.false_and, Bool.false_eq_true, if_false]
  split
  · exact .of_error _ _
  · split
    · exact .of_error _ _
    · exact .refl _

omit hContains hHere hAbove in
theorem followHeld_append {atLink : Continuation}
    (hLink : ∀ inode components slash, GoesOn outer inner (atLink inode components slash)
      (atLink inode (components ++ [name]) false)) {rest : List Octets} {slash : Bool}
    (hRest : ∀ inode, GoesOn outer inner (follow fs asOwner atLink inode rest slash)
      (follow fs asOwner atLink inode (rest ++ [name]) false)) (directory held : Inode) :
    GoesOn outer inner (followHeld fs asOwner atLink directory held rest slash)
      (followHeld fs asOwner atLink directory held (rest ++ [name]) false) := by
  unfold followHeld
  cases fs.node? held with
  | none => exact .of_error _ _
  | some node =>
      cases node with
      | directory _ _ _ => exact hRest held
      | link target =>
          -- The link is followed in both cases: it is not the last component of the longer path,
          -- and links at the end of the shorter one are followed too.
          have hMore : (rest ++ [name]).isEmpty = false := by simp
          simp only [asOwner, hMore, Bool.not_true, Bool.and_false, Bool.false_and, Bool.or_false,
            Bool.false_eq_true, if_false]
          rw [← List.append_assoc]
          exact hLink _ _ _
      | file _ _ | pipe _ =>
          intro _
          rw [if_neg (by simp)]
          exact .of_error _ _

/-- Where components lead to a directory, one more of them leads on from there. -/
theorem follow_append {atLink : Continuation}
    (hLink : ∀ inode components slash, GoesOn outer inner (atLink inode components slash)
      (atLink inode (components ++ [name]) false))
    (inode : Inode) (components : List Octets) (slash : Bool) :
    GoesOn outer inner (follow fs asOwner atLink inode components slash)
      (follow fs asOwner atLink inode (components ++ [name]) false) := by
  induction components generalizing inode with
  | nil =>
      -- Here the shorter path ends, and only the name is left.
      intro hOuter
      cases hOuter
      exact follow_contained hContains hHere hAbove atLink
  | cons component rest ih =>
      by_cases hDirectory : ∃ permissions above names,
          fs.node? inode = some (.directory permissions above names)
      case neg =>
        simp only [not_exists] at hDirectory
        rw [follow_of_not_directory hDirectory]
        exact .of_error _ _
      obtain ⟨permissions, above, names, hNode⟩ := hDirectory
      rw [List.cons_append, follow_of_directory hNode, follow_of_directory hNode]
      refine rel_ite (fun _ => .of_error _ _) fun _ => ?_
      refine rel_ite (fun _ => ih inode) fun _ => ?_
      refine rel_ite (fun _ => ih above) fun _ => ?_
      simp only [asOwner, Bool.false_and, Bool.false_eq_true, if_false]
      refine rel_ite (fun _ => .of_error _ _) fun _ => ?_
      cases names.lookup component with
      | none =>
          intro hOuter
          dsimp only at hOuter
          split at hOuter
          · cases hOuter
          · cases hOuter
      | some held => exact followHeld_append hLink ih inode held

theorem followWithin_append (links : Nat) (inode : Inode) (components : List Octets)
    (slash : Bool) :
    GoesOn outer inner (followWithin fs asOwner links inode components slash)
      (followWithin fs asOwner links inode (components ++ [name]) false) := by
  induction links generalizing inode components slash with
  | zero => exact follow_append hContains hHere hAbove (fun _ _ _ => .of_error _ _) _ _ _
  | succ links ih => exact follow_append hContains hHere hAbove ih _ _ _

/-- A path that leads to a directory leads on to what the directory holds, or nowhere. -/
theorem resolve_join (hName : Path.IsName name) (path : Path) :
    GoesOn outer inner (fs.resolve asOwner path) (fs.resolve asOwner (path.join name)) := by
  unfold resolve
  cases hFault : pathFault? path with
  | some error => exact .of_error _ _
  | none =>
      intro hOuter
      split
      · exact .of_error _ _
      · have hNonempty := octets_ne_nil_of_pathFault? hFault
        rw [start, Path.isAbsolute_join hNonempty, Path.components_join path hName,
          Path.endsInSlash_join path hName]
        exact followWithin_append hContains hHere hAbove _ _ _ _ hOuter

theorem stat_join (hName : Path.IsName name) {path : Path}
    (hOuter : fs.resolve asOwner path = .ok (.existing outer)) {found : Stat}
    (hStat : fs.stat (path.join name) = .ok found) : found = ⟨true, inner⟩ := by
  obtain ⟨isDirectory, identity⟩ := found
  obtain ⟨node, hFind, rfl⟩ := stat_eq_ok_iff.1 hStat
  obtain ⟨hResolve, hNode⟩ := find_eq_ok_iff.1 hFind
  have hInner := resolve_join hContains hHere hAbove hName path hOuter _ hResolve
  obtain ⟨-, -, -, directory, -, -, hDirectory, hIs⟩ := hContains
  cases hInner
  cases hNode.symm.trans hDirectory
  rw [hIs]

end Contained

/-- No directory is inside of itself if each stands in the table in front of what it holds. -/
theorem not_transGen_of_lt
    (hOrder : ∀ outer ∈ fs.nodes.zipIdx, ∀ held ∈ outer.1.held, outer.2 < held.2)
    (inode : Inode) :
    ¬Relation.TransGen (fun outer inner => ∃ name, fs.Contains outer name inner) inode inode := by
  have hStep : ∀ outer inner, (∃ name, fs.Contains outer name inner) → outer < inner := by
    rintro outer inner ⟨name, permissions, above, names, node, hOuter, hName, -⟩
    obtain ⟨before, after, rfl, -⟩ := List.lookup_eq_some_iff.1 hName
    exact hOrder (_, outer) (List.mem_zipIdx_iff_getElem?.2 hOuter) (name, inner)
      (by simp [Node.held])
  have hLt : ∀ {last}, Relation.TransGen
      (fun outer inner => ∃ name, fs.Contains outer name inner) inode last → inode < last := by
    intro last hInside
    induction hInside with
    | single hFirst => exact hStep _ _ hFirst
    | tail _ hLast ih => exact Nat.lt_trans ih (hStep _ _ hLast)
  intro hInside
  exact Nat.lt_irrefl _ (hLt hInside)

/-- The directories of a file system are a tree if each of them holds no name twice, none of the
names means itself or the directory above, and no directory is inside of itself. -/
theorem holdsTree_view
    (hNames : ∀ node ∈ fs.nodes, (node.held.map (·.1)).Nodup ∧
      ∀ name ∈ node.held.map (·.1), Path.IsName name ∧ name ≠ Path.here ∧ name ≠ Path.above)
    (hAcyclic : ∀ inode,
      ¬Relation.TransGen (fun outer inner => ∃ name, fs.Contains outer name inner) inode inode) :
    fs.view.HoldsTree fs.Contains := by
  refine ⟨?_, hAcyclic⟩
  intro path outer listing name hDirectory hList hListed
  obtain ⟨inode, permissions, above, names, hFind, -, rfl⟩ := list_eq_ok_iff.1 hList
  obtain ⟨_, _, _, hOuter⟩ := directory_view_eq_ok_iff.1 hDirectory
  cases hOuter.symm.trans hFind
  obtain ⟨hResolve, hNode⟩ := find_eq_ok_iff.1 hFind
  obtain ⟨hNodup, hProper⟩ := hNames _ (List.mem_of_getElem? hNode)
  obtain ⟨⟨other, inner⟩, hHeld, hEntry⟩ := List.mem_filterMap.1 hListed
  obtain ⟨node, hInner, hSame⟩ := Option.map_eq_some_iff.1 hEntry
  obtain ⟨rfl, hKind⟩ := Prod.mk.inj hSame
  obtain ⟨hName, hHere, hAbove⟩ := hProper other (List.mem_map_of_mem hHeld)
  have hContains : fs.Contains outer other inner :=
    ⟨permissions, above, names, node, hNode, lookup_of_mem hNodup hHeld, hInner,
      isDirectory_of_kind hKind⟩
  exact ⟨inner, hContains, fun found hStat => stat_join hContains hHere hAbove hName hResolve hStat⟩

end FileSystem

end HostTree
