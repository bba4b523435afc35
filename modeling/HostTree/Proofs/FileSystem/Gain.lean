import HostTree.Proofs.Drawing.Gain
import HostTree.Proofs.FileSystem.Look

/-!
A file system that gains one file under a new name. Everything that was found is still found, at the
same place; whatever is found that was not is the new file, also if links that led nowhere lead to
it now.
-/

namespace HostTree

namespace FileSystem

/-- Whether a file system is another one with a file at a new place, named in a directory behind the
names that this held. -/
structure GainsFile (fs grown : FileSystem) (directory : Inode) (name : Octets) (new : Inode) :
    Prop where
  directories : ∀ inode permissions above names,
    fs.node? inode = some (.directory permissions above names) →
    grown.node? inode = some (.directory permissions above
      (names ++ if inode = directory then [(name, new)] else []))
  others : ∀ inode node, fs.node? inode = some node → node.isDirectory = false →
    grown.node? inode = some node
  vacant : fs.node? new = none
  file : ∃ permissions content, grown.node? new = some (.file permissions content)
  nothingElse : ∀ inode, fs.node? inode = none → inode ≠ new → grown.node? inode = none

/-- What becomes of a path when a file is gained: it leads where it led, or, if it led nowhere,
nowhere or to the new file. A path that could be made a file by the new name leads to the file. -/
structure Gained (how : Lookup) (directory : Inode) (name : Octets) (new : Inode)
    (before after : Except IoError Target) : Prop where
  existing : ∀ inode, before = .ok (.existing inode) → after = .ok (.existing inode)
  found : ∀ inode, after = .ok (.existing inode) → before = .ok (.existing inode) ∨ inode = new
  made : how.forFile = true → before = .ok (.vacant directory name) →
    after = .ok (.existing new)

/-- Whether the directory at a path has a name for a node. -/
def Holds (fs : FileSystem) (inode : Inode) (path : Path) (name : Octets) : Prop :=
  ∃ place permissions above names,
    fs.find path = .ok (place, .directory permissions above names) ∧ (name, inode) ∈ names

variable {fs grown : FileSystem} {directory new : Inode} {name : Octets} {how : Lookup}

namespace Gained

variable {before after : Except IoError Target}

theorem of_existing (inode : Inode) :
    Gained how directory name new (.ok (.existing inode)) (.ok (.existing inode)) :=
  ⟨fun _ h => h, fun _ h => Or.inl h, fun _ h => by simp at h⟩

theorem of_errors (before after : IoError) :
    Gained how directory name new (.error before) (.error after) :=
  ⟨fun _ h => by simp at h, fun _ h => by simp at h, fun _ h => by simp at h⟩

theorem of_same (hPlace : before ≠ .ok (.vacant directory name)) :
    Gained how directory name new before before :=
  ⟨fun _ h => h, fun _ h => Or.inl h, fun _ h => absurd h hPlace⟩

/-- Where nothing was found, the new file may be found, and it must be where it could be made. -/
theorem of_file {error : IoError} {isFile : Bool}
    (hNothing : ∀ inode, before ≠ .ok (.existing inode))
    (hMade : how.forFile = true → before = .ok (.vacant directory name) → isFile = true) :
    Gained how directory name new before
      (if isFile then .ok (.existing new) else .error error) := by
  refine ⟨fun inode h => absurd h (hNothing inode), ?_, ?_⟩
  · intro inode hFound
    cases isFile with
    | false => simp at hFound
    | true => exact Or.inr (by simpa using hFound.symm)
  · intro hForFile hVacant
    simp [hMade hForFile hVacant]

end Gained

theorem lookup_extra {inode : Inode} {component : Octets}
    (hPlace : ¬(inode = directory ∧ component = name)) :
    (if inode = directory then [(name, new)] else []).lookup component = none := by
  by_cases hHere : inode = directory
  · have hName : component ≠ name := fun hSame => hPlace ⟨hHere, hSame⟩
    simp [hHere, List.lookup_cons, beq_eq_false_iff_ne.2 hName]
  · simp [hHere]

namespace GainsFile

theorem exists_node (hGains : fs.GainsFile grown directory name new) {inode : Inode}
    {node : Node} (hNode : fs.node? inode = some node) :
    ∃ after, grown.node? inode = some after ∧ after.kind = node.kind := by
  cases hDirectory : node.isDirectory with
  | false => exact ⟨node, hGains.others inode node hNode hDirectory, rfl⟩
  | true =>
      obtain ⟨_, _, _, rfl⟩ := isDirectory_iff.1 hDirectory
      exact ⟨_, hGains.directories inode _ _ _ hNode, rfl⟩

theorem eq_new (hGains : fs.GainsFile grown directory name new) {inode : Inode} {node : Node}
    (hNode : fs.node? inode = none) (hGrown : grown.node? inode = some node) :
    inode = new ∧ node.kind = .file := by
  by_cases hNew : inode = new
  · obtain ⟨_, _, hFile⟩ := hGains.file
    rw [hNew, hFile, Option.some.injEq] at hGrown
    exact ⟨hNew, hGrown ▸ rfl⟩
  · simp [hGains.nothingElse inode hNode hNew] at hGrown

/-- A directory was one before, with the same names but the new one. -/
theorem of_directory (hGains : fs.GainsFile grown directory name new) {inode above : Inode}
    {permissions : Permissions} {names : List (Octets × Inode)}
    (hGrown : grown.node? inode = some (.directory permissions above names)) :
    ∃ others, fs.node? inode = some (.directory permissions above others) ∧
      names = others ++ if inode = directory then [(name, new)] else [] := by
  cases hNode : fs.node? inode with
  | none =>
      have hFile := (hGains.eq_new hNode hGrown).2
      simp [Node.kind] at hFile
  | some before =>
      obtain ⟨after, hAfter, hKind⟩ := hGains.exists_node hNode
      cases hAfter.symm.trans hGrown
      obtain ⟨_, _, others, rfl⟩ := isDirectory_iff.1 (isDirectory_of_kind hKind.symm)
      rw [hGains.directories inode _ _ _ hNode] at hGrown
      simp only [Option.some.injEq, Node.directory.injEq] at hGrown
      obtain ⟨rfl, rfl, rfl⟩ := hGrown
      exact ⟨others, rfl, rfl⟩

end GainsFile

theorem node?_add {inode : Inode} {held : Node} (hNode : fs.node? inode = some held)
    (directory : Inode) (name : Octets) (node : Node) :
    (fs.add directory name node).node? inode =
      some (if directory = inode then addName name fs.nodes.length held else held) := by
  have hOld : inode < (fs.nodes.modify directory (addName name fs.nodes.length)).length := by
    rw [List.length_modify]
    exact (List.getElem?_eq_some_iff.1 hNode).1
  simp only [node?] at hNode
  simp [add, node?, List.getElem?_append_left hOld, List.getElem?_modify, hNode]

/-- To add a file is to gain one. -/
theorem gainsFile_add (fs : FileSystem) (directory : Inode) (name : Octets)
    (permissions : Permissions) (content : Content) :
    fs.GainsFile (fs.add directory name (.file permissions content)) directory name
      fs.nodes.length where
  directories inode permissions above names hNode := by
    rw [node?_add hNode]
    by_cases hHere : inode = directory
    · simp [hHere, addName]
    · simp [hHere, Ne.symm hHere]
  others inode node hNode hKind := by
    rw [node?_add hNode]
    cases node with
    | directory _ _ _ => simp [Node.isDirectory] at hKind
    | file _ _ | link _ | pipe _ => simp [addName]
  vacant := List.getElem?_eq_none (Nat.le_refl _)
  file := by
    refine ⟨permissions, content, ?_⟩
    simp [add, node?]
  nothingElse inode hNode hOther := by
    have hBehind : fs.nodes.length < inode :=
      Nat.lt_of_le_of_ne (List.getElem?_eq_none_iff.1 hNode) (Ne.symm hOther)
    apply List.getElem?_eq_none
    simp only [add, List.length_append, List.length_modify, List.length_singleton]
    exact hBehind

theorem followHeld_gains (hGains : fs.GainsFile grown directory name new)
    {atLink atLinkGrown : Continuation}
    (hLink : ∀ inode components slash, Gained how directory name new
      (atLink inode components slash) (atLinkGrown inode components slash))
    {rest : List Octets} {slash : Bool}
    (hRest : ∀ inode, Gained how directory name new (follow fs how atLink inode rest slash)
      (follow grown how atLinkGrown inode rest slash)) (inode held : Inode) :
    Gained how directory name new (followHeld fs how atLink inode held rest slash)
      (followHeld grown how atLinkGrown inode held rest slash) := by
  unfold followHeld
  cases hHeld : fs.node? held with
  | none =>
      -- The name may have been there without its node, which is there now.
      by_cases hNew : held = new
      · obtain ⟨_, _, hFile⟩ := hGains.file
        rw [hNew, hFile]
        exact .of_file (by simp) (by simp)
      · rw [hGains.nothingElse held hHeld hNew]
        exact .of_errors _ _
  | some node =>
      cases node with
      | directory _ _ _ =>
          rw [hGains.directories held _ _ _ hHeld]
          exact hRest held
      | link _ =>
          rw [hGains.others held _ hHeld rfl]
          exact rel_ite (fun _ => .of_existing held) fun _ => hLink _ _ _
      | file _ _ | pipe _ =>
          rw [hGains.others held _ hHeld rfl]
          exact rel_ite (fun _ => .of_existing held) fun _ => .of_errors _ _

/-- Where a directory gains the name that is looked up, the new file is found, if no directory is
asked for. -/
theorem followHeld_new (hGains : fs.GainsFile grown directory name new) {atLink : Continuation}
    {rest : List Octets} {slash : Bool}
    (hSlash : ¬(how.forFile && rest.isEmpty && slash) = true) :
    Gained how directory name new
      (if rest.isEmpty then .ok (.vacant directory name) else .error (.system .noEntry))
      (followHeld grown how atLink directory new rest slash) := by
  obtain ⟨_, _, hFile⟩ := hGains.file
  simp only [followHeld, hFile]
  refine .of_file ?_ ?_
  · intro inode
    split
    · simp
    · simp
  · intro hForFile hVacant
    cases hRest : rest.isEmpty with
    | false => simp [hRest] at hVacant
    | true => simpa [hForFile, hRest] using hSlash

/-- Components lead where they led, or to the new file, if they do so where links are followed. -/
theorem follow_gains (hGains : fs.GainsFile grown directory name new)
    {atLink atLinkGrown : Continuation}
    (hLink : ∀ inode components slash, Gained how directory name new
      (atLink inode components slash) (atLinkGrown inode components slash))
    (inode : Inode) (components : List Octets) (slash : Bool) :
    Gained how directory name new (follow fs how atLink inode components slash)
      (follow grown how atLinkGrown inode components slash) := by
  induction components generalizing inode with
  | nil =>
      rw [follow, follow]
      exact .of_existing inode
  | cons component rest ih =>
      by_cases hDirectory : ∃ permissions above names,
          fs.node? inode = some (.directory permissions above names)
      case neg =>
        simp only [not_exists] at hDirectory
        rw [follow_of_not_directory hDirectory, follow_of_not_directory]
        · exact .of_errors _ _
        · intro permissions above names hGrown
          obtain ⟨others, hNode, -⟩ := hGains.of_directory hGrown
          exact hDirectory _ _ _ hNode
      obtain ⟨permissions, above, names, hNode⟩ := hDirectory
      rw [follow_of_directory hNode, follow_of_directory (hGains.directories inode _ _ _ hNode)]
      refine rel_ite (fun _ => .of_errors _ _) fun _ => ?_
      refine rel_ite (fun _ => ih inode) fun _ => ?_
      refine rel_ite (fun _ => ih above) fun _ => ?_
      refine rel_ite (fun _ => .of_errors _ _) fun hSlash => ?_
      refine rel_ite (fun _ => .of_errors _ _) fun _ => ?_
      rw [List.lookup_append]
      cases hHeld : names.lookup component with
      | some held =>
          simp only [Option.some_or]
          exact followHeld_gains hGains hLink ih inode held
      | none =>
          simp only [Option.none_or]
          by_cases hPlace : inode = directory ∧ component = name
          · obtain ⟨rfl, rfl⟩ := hPlace
            simp only [↓reduceIte, List.lookup_cons_self]
            exact followHeld_new hGains hSlash
          · rw [lookup_extra hPlace]
            refine rel_ite (fun _ => .of_same ?_) fun _ => .of_errors _ _
            simpa using hPlace

theorem followWithin_gains (hGains : fs.GainsFile grown directory name new) (links : Nat)
    (inode : Inode) (components : List Octets) (slash : Bool) :
    Gained how directory name new (followWithin fs how links inode components slash)
      (followWithin grown how links inode components slash) := by
  induction links generalizing inode components slash with
  | zero => exact follow_gains hGains (fun _ _ _ => .of_errors _ _) inode components slash
  | succ links ih => exact follow_gains hGains ih inode components slash

theorem resolve_gains (hGains : fs.GainsFile grown directory name new) (how : Lookup)
    (path : Path) :
    Gained how directory name new (fs.resolve how path) (grown.resolve how path) := by
  unfold resolve
  split
  · exact .of_errors _ _
  · exact followWithin_gains hGains linkLimit _ _ _

/-- The directories that are found are those that were, with the new name where it belongs. -/
theorem find_directory_gains (hGains : fs.GainsFile grown directory name new) {path : Path}
    {inode above : Inode} {permissions : Permissions} {names : List (Octets × Inode)} :
    grown.find path = .ok (inode, .directory permissions above names) ↔ ∃ others,
      fs.find path = .ok (inode, .directory permissions above others) ∧
        names = others ++ if inode = directory then [(name, new)] else [] := by
  have hResolve := resolve_gains hGains asOwner path
  constructor
  · intro hFind
    rw [find_eq_ok_iff] at hFind
    obtain ⟨others, hNode, hNames⟩ := hGains.of_directory hFind.2
    refine ⟨others, find_eq_ok_iff.2 ⟨?_, hNode⟩, hNames⟩
    obtain hBefore | rfl := hResolve.found inode hFind.1
    · exact hBefore
    · rw [hGains.vacant] at hNode
      simp at hNode
  · rintro ⟨others, hFind, rfl⟩
    rw [find_eq_ok_iff] at hFind ⊢
    exact ⟨hResolve.existing inode hFind.1, hGains.directories inode _ _ _ hFind.2⟩

theorem directory_gains (hGains : fs.GainsFile grown directory name new) {path : Path}
    {identity : Identity} :
    grown.view.directory path = .ok identity ↔ fs.view.directory path = .ok identity := by
  simp only [directory_view_eq_ok_iff, find_directory_gains hGains]
  constructor
  · rintro ⟨permissions, above, _, others, hFind, -⟩
    exact ⟨permissions, above, others, hFind⟩
  · rintro ⟨permissions, above, others, hFind⟩
    exact ⟨permissions, above, _, others, hFind, rfl⟩

theorem listed_gains (hGains : fs.GainsFile grown directory name new) (held : Octets × Inode) :
    fs.listed held = grown.listed held ∨
      fs.listed held = none ∧
        ∀ shown, grown.listed held = some shown → held.2 = new ∧ shown = (held.1, .file) := by
  unfold listed
  cases hNode : fs.node? held.2 with
  | none =>
      refine Or.inr ⟨rfl, fun shown hShown => ?_⟩
      obtain ⟨node, hGrown, rfl⟩ := Option.map_eq_some_iff.1 hShown
      obtain ⟨hNew, hFile⟩ := hGains.eq_new hNode hGrown
      exact ⟨hNew, by rw [hFile]⟩
  | some before =>
      obtain ⟨after, hAfter, hKind⟩ := hGains.exists_node hNode
      left
      simp [hAfter, hKind]

/-- What was listed is listed, and names of the new file are put in. -/
theorem list_gains (hGains : fs.GainsFile grown directory name new) {path : Path}
    {listing : List (Octets × EntryKind)} (hList : fs.list path = .ok listing) :
    ∃ more, grown.list path = .ok more ∧
      Extends (fun shown => shown.2 = .file ∧ grown.Holds new path shown.1) listing more := by
  obtain ⟨inode, permissions, above, names, hFind, hRead, rfl⟩ := list_eq_ok_iff.1 hList
  have hGrown := (find_directory_gains hGains).2 ⟨names, hFind, rfl⟩
  refine ⟨_, list_eq_ok_iff.2 ⟨inode, permissions, above, _, hGrown, hRead, rfl⟩, ?_⟩
  -- Where there is no node for the new name, the name makes no difference to the listing.
  have hListing : names.filterMap fs.listed =
      (names ++ if inode = directory then [(name, new)] else []).filterMap fs.listed := by
    rw [List.filterMap_append]
    split
    · simp [listed, hGains.vacant]
    · simp
  rw [hListing]
  refine Extends.filterMap fun held hName => ?_
  refine (listed_gains hGains held).imp_right ?_
  rintro ⟨hNothing, hNew⟩
  refine ⟨hNothing, fun shown hShown => ?_⟩
  obtain ⟨rfl, rfl⟩ := hNew shown hShown
  exact ⟨rfl, inode, permissions, above, _, hGrown, hName⟩

/-- A walk sees a file system that gains a file as one whose directories list more files. -/
theorem view_gains (hGains : fs.GainsFile grown directory name new) :
    fs.view.Gains grown.view (grown.Holds new) where
  directory_iff _ _ := directory_gains hGains
  list_ok _ _ hList := list_gains hGains hList

end FileSystem

end HostTree
