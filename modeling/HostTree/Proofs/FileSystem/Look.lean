import HostTree.FileSystem.Access

/-!
What it takes for a look at a file system to succeed, and what it then shows.
-/

namespace HostTree

theorem rel_ite {α : Type} {R : α → α → Prop} {p : Prop} [Decidable p] {a a' b b' : α}
    (hThen : p → R a a') (hElse : ¬p → R b b') :
    R (if p then a else b) (if p then a' else b') := by
  by_cases h : p
  · simpa only [h, if_true] using hThen h
  · simpa only [h, if_false] using hElse h

/-- The same way of following paths for those who do not make anything. -/
def Lookup.looking (how : Lookup) : Lookup :=
  { how with forFile := false }

/-- The names that a node holds, with what they stand for. -/
def Node.held : Node → List (Octets × Inode)
  | .directory _ _ names => names
  | _ => []

namespace FileSystem

variable {fs : FileSystem} {path : Path}

theorem find_eq_ok_iff {inode : Inode} {node : Node} :
    fs.find path = .ok (inode, node) ↔
      fs.resolve asOwner path = .ok (.existing inode) ∧ fs.node? inode = some node := by
  constructor
  · intro hFind
    refine ⟨?_, node?_of_find hFind⟩
    unfold find at hFind
    split at hFind
    · simp at hFind
    · simp at hFind
    · next other hResolve =>
        split at hFind
        · simp at hFind
        · simp only [Except.ok.injEq, Prod.mk.injEq] at hFind
          rw [hResolve, hFind.1]
  · rintro ⟨hResolve, hNode⟩
    simp only [find, hResolve, hNode]

theorem stat_eq_ok_iff {isDirectory : Bool} {identity : Identity} :
    fs.stat path = .ok ⟨isDirectory, identity⟩ ↔
      ∃ node, fs.find path = .ok (identity, node) ∧ node.isDirectory = isDirectory := by
  unfold stat
  cases fs.find path with
  | error error => simp
  | ok found =>
      obtain ⟨inode, node⟩ := found
      simp only [Except.ok.injEq, Stat.mk.injEq, Prod.mk.injEq]
      constructor
      · rintro ⟨rfl, rfl⟩
        exact ⟨node, ⟨rfl, rfl⟩, rfl⟩
      · rintro ⟨_, ⟨rfl, rfl⟩, rfl⟩
        exact ⟨rfl, rfl⟩

theorem isDirectory_iff {node : Node} : node.isDirectory = true ↔
    ∃ permissions above names, node = .directory permissions above names := by
  cases node <;> simp [Node.isDirectory]

theorem isDirectory_of_kind {node : Node} (hKind : node.kind = .directory) :
    node.isDirectory = true := by
  cases node <;> simp_all [Node.kind, Node.isDirectory]

/-- A directory is found at a path if its node is. -/
theorem directory_view_eq_ok_iff {identity : Identity} :
    fs.view.directory path = .ok identity ↔ ∃ permissions above names,
      fs.find path = .ok (identity, .directory permissions above names) := by
  rw [View.directory_eq_ok_iff]
  change fs.stat path = .ok ⟨true, identity⟩ ↔ _
  rw [stat_eq_ok_iff]
  constructor
  · rintro ⟨node, hFind, hDirectory⟩
    obtain ⟨permissions, above, names, rfl⟩ := isDirectory_iff.1 hDirectory
    exact ⟨permissions, above, names, hFind⟩
  · rintro ⟨permissions, above, names, hFind⟩
    exact ⟨_, hFind, rfl⟩

/-- What a name and its node are listed as, if there is such a node. -/
def listed (fs : FileSystem) (held : Octets × Inode) : Option (Octets × EntryKind) :=
  (fs.node? held.2).map fun node => (held.1, node.kind)

/-- What is listed is what a readable directory holds, as far as there are nodes for it. -/
theorem list_eq_ok_iff {listing : List (Octets × EntryKind)} :
    fs.list path = .ok listing ↔ ∃ inode permissions above names,
      fs.find path = .ok (inode, .directory permissions above names) ∧ permissions.read = true ∧
        listing = names.filterMap fs.listed := by
  constructor
  · intro hList
    unfold list at hList
    split at hList
    · simp at hList
    · next inode permissions above names hFind =>
        split at hList
        · next hRead =>
            exact ⟨inode, permissions, above, names, hFind, hRead, (Except.ok.inj hList).symm⟩
        · simp at hList
    · simp at hList
  · rintro ⟨inode, permissions, above, names, hFind, hRead, rfl⟩
    simp only [list, hFind, hRead, if_true]
    rfl

/-- Go on from what a directory holds under a component, with those behind it. -/
def followHeld (fs : FileSystem) (how : Lookup) (atLink : Continuation) (directory held : Inode)
    (rest : List Octets) (slash : Bool) : Except IoError Target :=
  match fs.node? held with
  | some (.directory ..) => follow fs how atLink held rest slash
  | some (.link target) =>
    if rest.isEmpty && !slash && !how.followLast then .ok (.existing held)
    else
      atLink (if target.isAbsolute then root else directory) (target.components ++ rest)
        (slash || (rest.isEmpty && target.endsInSlash))
  | some _ =>
    if rest.isEmpty && !slash then .ok (.existing held) else .error (.system .notDirectory)
  | none => .error (.system .noEntry)

theorem follow_of_directory {inode above : Inode} {permissions : Permissions}
    {names : List (Octets × Inode)}
    (hNode : fs.node? inode = some (.directory permissions above names)) (how : Lookup)
    (atLink : Continuation) (component : Octets) (rest : List Octets) (slash : Bool) :
    follow fs how atLink inode (component :: rest) slash =
      if !(how.privileged || permissions.search) then .error (.system .accessDenied)
      else if component = Path.here then follow fs how atLink inode rest slash
      else if component = Path.above then follow fs how atLink above rest slash
      else if how.forFile && rest.isEmpty && slash then .error (.system .isDirectory)
      else if nameLimit < component.length then .error (.system .nameTooLong)
      else
        match names.lookup component with
        | none => if rest.isEmpty then .ok (.vacant inode component) else .error (.system .noEntry)
        | some held => followHeld fs how atLink inode held rest slash := by
  rw [follow, hNode]
  rfl

theorem follow_of_not_directory {inode : Inode}
    (hNode : ∀ permissions above names,
      fs.node? inode ≠ some (.directory permissions above names)) (how : Lookup)
    (atLink : Continuation) (component : Octets) (rest : List Octets) (slash : Bool) :
    follow fs how atLink inode (component :: rest) slash = .error (.system .notDirectory) := by
  rw [follow]
  split
  · next hDirectory => exact absurd hDirectory (hNode _ _ _)
  · rfl

/-- Whether an outcome, if it leads somewhere, leads there in another case as well. -/
def AlsoLeads (outcome other : Except IoError Target) : Prop :=
  ∀ target, outcome = .ok target → other = .ok target

theorem AlsoLeads.refl (outcome : Except IoError Target) : AlsoLeads outcome outcome :=
  fun _ hLeads => hLeads

theorem AlsoLeads.of_error (error : IoError) (other : Except IoError Target) :
    AlsoLeads (.error error) other :=
  fun _ hLeads => by simp at hLeads

theorem followHeld_looking {how : Lookup} {atLink atLinkLooking : Continuation}
    (hLink : ∀ inode components slash,
      AlsoLeads (atLink inode components slash) (atLinkLooking inode components slash))
    {rest : List Octets} {slash : Bool}
    (hRest : ∀ inode, AlsoLeads (follow fs how atLink inode rest slash)
      (follow fs how.looking atLinkLooking inode rest slash)) (directory held : Inode) :
    AlsoLeads (followHeld fs how atLink directory held rest slash)
      (followHeld fs how.looking atLinkLooking directory held rest slash) := by
  unfold followHeld
  cases fs.node? held with
  | none => exact .refl _
  | some node =>
      cases node with
      | directory _ _ _ => exact hRest held
      | link _ => exact rel_ite (fun _ => .refl _) fun _ => hLink _ _ _
      | file _ _ | pipe _ => exact .refl _

theorem follow_looking {how : Lookup} {atLink atLinkLooking : Continuation}
    (hLink : ∀ inode components slash,
      AlsoLeads (atLink inode components slash) (atLinkLooking inode components slash))
    (inode : Inode) (components : List Octets) (slash : Bool) :
    AlsoLeads (follow fs how atLink inode components slash)
      (follow fs how.looking atLinkLooking inode components slash) := by
  induction components generalizing inode with
  | nil =>
      rw [follow, follow]
      exact .refl _
  | cons component rest ih =>
      by_cases hDirectory : ∃ permissions above names,
          fs.node? inode = some (.directory permissions above names)
      case neg =>
        simp only [not_exists] at hDirectory
        rw [follow_of_not_directory hDirectory]
        exact .of_error _ _
      obtain ⟨permissions, above, names, hNode⟩ := hDirectory
      rw [follow_of_directory hNode, follow_of_directory hNode]
      refine rel_ite (fun _ => .refl _) fun _ => ?_
      refine rel_ite (fun _ => ih inode) fun _ => ?_
      refine rel_ite (fun _ => ih above) fun _ => ?_
      -- The one guard that only those who make something meet.
      have hMakesNothing : ¬(how.looking.forFile && rest.isEmpty && slash) = true := by
        simp [Lookup.looking]
      rw [if_neg hMakesNothing]
      split
      · exact .of_error _ _
      refine rel_ite (fun _ => .refl _) fun _ => ?_
      cases names.lookup component with
      | none => exact .refl _
      | some held => exact followHeld_looking hLink ih inode held

theorem followWithin_looking (how : Lookup) (links : Nat) (inode : Inode)
    (components : List Octets) (slash : Bool) :
    AlsoLeads (followWithin fs how links inode components slash)
      (followWithin fs how.looking links inode components slash) := by
  induction links generalizing inode components slash with
  | zero => exact follow_looking (fun _ _ _ => .refl _) inode components slash
  | succ links ih => exact follow_looking ih inode components slash

/-- Where a path leads those who are about to make something, it leads those who only look. The
other way round there may be a slash at its end. -/
theorem resolve_looking (fs : FileSystem) (how : Lookup) (path : Path) :
    AlsoLeads (fs.resolve how path) (fs.resolve how.looking path) := by
  unfold resolve
  split
  · exact .refl _
  · exact followWithin_looking how linkLimit _ _ _

end FileSystem

end HostTree
