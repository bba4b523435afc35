import HostTree.Proofs.Drawing.Distinct

/-!
File systems that differ in nothing but the order in which their directories hold their names. Where
the names of a directory differ, looking one up does not depend on their order; so paths lead to the
same places, and only listings show the other order.
-/

namespace HostTree

/-- Whether something is listed as something else is, though maybe in another order, or fails to be
listed as that does. -/
inductive Relisted {α : Type} : Except IoError (List α) → Except IoError (List α) → Prop where
  | error (error : IoError) : Relisted (.error error) (.error error)
  | listing {listing relisted : List α} (hPerm : relisted.Perm listing) :
      Relisted (.ok listing) (.ok relisted)

theorem Relisted.map {α β : Type} {listed relisted : Except IoError (List α)}
    (hRelisted : Relisted listed relisted) (f : α → β) :
    Relisted (listed.map (·.map f)) (relisted.map (·.map f)) := by
  cases hRelisted with
  | error error => exact .error error
  | listing hPerm => exact .listing (hPerm.map f)

namespace View

/-- Whether another view differs in nothing but the order in which directories list their names. -/
structure Relists (view other : View) : Prop where
  stat_eq : ∀ path, other.stat path = view.stat path
  list : ∀ path, Relisted (view.list path) (other.list path)

/-- Whether no directory lists a name twice. -/
def ListsOnce (view : View) : Prop :=
  ∀ path listing, view.list path = .ok listing → (listing.map (·.1)).Nodup

end View

namespace FileSystem

/-- Whether a node is another one, with its names in another order if it is a directory. -/
inductive RelistsNode : Node → Node → Prop where
  | directory (permissions : Permissions) (above : Inode) {names others : List (Octets × Inode)}
      (hNames : (names.map (·.1)).Nodup) (hPerm : others.Perm names) :
      RelistsNode (.directory permissions above names) (.directory permissions above others)
  | same {node : Node} (hNode : node.isDirectory = false) : RelistsNode node node

/-- Whether a file system is another one with the names of its directories in another order. -/
def Relists (fs other : FileSystem) : Prop :=
  ∀ inode, Option.Rel RelistsNode (fs.node? inode) (other.node? inode)

/-- Where names differ, a name is found whatever their order is. -/
theorem lookup_eq_of_perm {names others : List (Octets × Inode)}
    (hNames : (names.map (·.1)).Nodup) (hPerm : others.Perm names) (name : Octets) :
    others.lookup name = names.lookup name := by
  induction hPerm with
  | nil => rfl
  | cons held hRest ih =>
      rw [List.map_cons, List.nodup_cons] at hNames
      rw [List.lookup_cons, List.lookup_cons, ih hNames.2]
  | swap first second rest =>
      have hDiffer : first.1 ≠ second.1 := by
        intro hSame
        simp [hSame] at hNames
      rw [List.lookup_cons, List.lookup_cons, List.lookup_cons, List.lookup_cons]
      split
      · next hSecond =>
          rw [eq_of_beq hSecond, beq_eq_false_iff_ne.2 hDiffer.symm]
      · rfl
  | trans _ hPerm ihFirst ihSecond =>
      rw [ihFirst ((hPerm.map _).nodup_iff.2 hNames), ihSecond hNames]

variable {fs other : FileSystem}

theorem list_of_directory {path : Path} {inode above : Inode} {permissions : Permissions}
    {names : List (Octets × Inode)}
    (hFind : fs.find path = .ok (inode, .directory permissions above names)) :
    fs.list path =
      if permissions.read then .ok (names.filterMap fs.listed)
      else .error (.system .accessDenied) := by
  rw [list, hFind]
  rfl

namespace Relists

theorem kind_eq (hRelists : fs.Relists other) (inode : Inode) :
    (other.node? inode).map Node.kind = (fs.node? inode).map Node.kind := by
  have hNode := hRelists inode
  generalize fs.node? inode = node at hNode ⊢
  generalize other.node? inode = relisted at hNode ⊢
  cases hNode with
  | none => rfl
  | some hNode => cases hNode <;> rfl

theorem listed_eq (hRelists : fs.Relists other) (held : Octets × Inode) :
    other.listed held = fs.listed held := by
  have hKind := congrArg (Option.map (held.1, ·)) (hRelists.kind_eq held.2)
  rw [Option.map_map, Option.map_map] at hKind
  exact hKind

theorem directory {inode above : Inode} {permissions : Permissions}
    {names : List (Octets × Inode)} (hRelists : fs.Relists other)
    (hNode : fs.node? inode = some (.directory permissions above names)) :
    ∃ others, other.node? inode = some (.directory permissions above others) ∧
      (names.map (·.1)).Nodup ∧ others.Perm names := by
  have hRel := hRelists inode
  rw [hNode] at hRel
  generalize other.node? inode = relisted at hRel ⊢
  cases hRel with
  | some hRel =>
      cases hRel with
      | directory _ _ hNames hPerm => exact ⟨_, rfl, hNames, hPerm⟩
      | same hNode => simp [Node.isDirectory] at hNode

theorem eq_of_not_directory {inode : Inode} (hRelists : fs.Relists other)
    (hNode : ∀ permissions above names,
      fs.node? inode ≠ some (.directory permissions above names)) :
    other.node? inode = fs.node? inode := by
  have hRel := hRelists inode
  generalize fs.node? inode = node at hRel hNode ⊢
  generalize other.node? inode = relisted at hRel ⊢
  cases hRel with
  | none => rfl
  | some hRel =>
      cases hRel with
      | directory permissions above _ _ => exact absurd rfl (hNode permissions above _)
      | same _ => rfl

theorem followHeld_eq (hRelists : fs.Relists other) {how : Lookup} {atLink : Continuation}
    {rest : List Octets} {slash : Bool}
    (hRest : ∀ inode, other.follow how atLink inode rest slash =
      fs.follow how atLink inode rest slash) (inode held : Inode) :
    other.followHeld how atLink inode held rest slash =
      fs.followHeld how atLink inode held rest slash := by
  by_cases hDirectory : ∃ permissions above names,
      fs.node? held = some (.directory permissions above names)
  · obtain ⟨permissions, above, names, hNode⟩ := hDirectory
    obtain ⟨others, hOther, -⟩ := hRelists.directory hNode
    simp only [followHeld, hNode, hOther, hRest]
  · simp only [not_exists] at hDirectory
    simp only [followHeld, hRelists.eq_of_not_directory hDirectory, hRest]

theorem follow_eq (hRelists : fs.Relists other) (how : Lookup) (atLink : Continuation)
    (inode : Inode) (components : List Octets) (slash : Bool) :
    other.follow how atLink inode components slash =
      fs.follow how atLink inode components slash := by
  induction components generalizing inode with
  | nil => rfl
  | cons component rest ih =>
      by_cases hDirectory : ∃ permissions above names,
          fs.node? inode = some (.directory permissions above names)
      · obtain ⟨permissions, above, names, hNode⟩ := hDirectory
        obtain ⟨others, hOther, hNames, hPerm⟩ := hRelists.directory hNode
        simp only [follow_of_directory hNode, follow_of_directory hOther, ih,
          lookup_eq_of_perm hNames hPerm, hRelists.followHeld_eq ih]
      · simp only [not_exists] at hDirectory
        have hOther := hRelists.eq_of_not_directory hDirectory
        rw [follow_of_not_directory hDirectory, follow_of_not_directory (hOther ▸ hDirectory)]

theorem followWithin_eq (hRelists : fs.Relists other) (how : Lookup) (links : Nat) :
    other.followWithin how links = fs.followWithin how links := by
  induction links with
  | zero =>
      funext inode components slash
      exact hRelists.follow_eq how _ inode components slash
  | succ links ih =>
      funext inode components slash
      rw [followWithin, followWithin, ih]
      exact hRelists.follow_eq how _ inode components slash

theorem resolve_eq (hRelists : fs.Relists other) (how : Lookup) (path : Path) :
    other.resolve how path = fs.resolve how path := by
  rw [resolve, resolve, hRelists.followWithin_eq]

/-- What is found is the same, though the names of a directory may be in another order. -/
theorem find_cases (hRelists : fs.Relists other) (path : Path) :
    (∃ error, fs.find path = .error error ∧ other.find path = .error error) ∨
      ∃ inode node relisted, fs.find path = .ok (inode, node) ∧
        other.find path = .ok (inode, relisted) ∧ RelistsNode node relisted := by
  rw [find, find, hRelists.resolve_eq]
  cases fs.resolve asOwner path with
  | error error => exact Or.inl ⟨error, rfl, rfl⟩
  | ok target =>
      cases target with
      | vacant _ _ => exact Or.inl ⟨_, rfl, rfl⟩
      | existing inode =>
          have hNode := hRelists inode
          dsimp only
          generalize fs.node? inode = node at hNode ⊢
          generalize other.node? inode = relisted at hNode ⊢
          cases hNode with
          | none => exact Or.inl ⟨_, rfl, rfl⟩
          | some hNode => exact Or.inr ⟨_, _, _, rfl, rfl, hNode⟩

theorem stat_eq (hRelists : fs.Relists other) (path : Path) : other.stat path = fs.stat path := by
  rcases hRelists.find_cases path with ⟨_, hFind, hOther⟩ | ⟨_, _, _, hFind, hOther, hNode⟩
  · rw [stat, stat, hFind, hOther]
  · rw [stat, stat, hFind, hOther]
    cases hNode <;> rfl

theorem list_relisted (hRelists : fs.Relists other) (path : Path) :
    Relisted (fs.list path) (other.list path) := by
  rcases hRelists.find_cases path with
    ⟨error, hFind, hOther⟩ | ⟨inode, node, _, hFind, hOther, hNode⟩
  · rw [list, list, hFind, hOther]
    exact .error error
  · cases hNode with
    | directory permissions above hNames hPerm =>
        rw [list_of_directory hFind, list_of_directory hOther, funext hRelists.listed_eq]
        split
        · exact .listing (hPerm.filterMap _)
        · exact .error _
    | same hNode =>
        rw [list, list, hFind, hOther]
        cases node with
        | directory _ _ _ => simp [Node.isDirectory] at hNode
        | file _ _ | link _ | pipe _ => exact .error _

/-- A walk sees a file system with the names of its directories in another order as one whose
directories are listed in another order. -/
theorem view (hRelists : fs.Relists other) : fs.view.Relists other.view :=
  ⟨hRelists.stat_eq, hRelists.list_relisted⟩

theorem listsOnce (hRelists : fs.Relists other) : fs.view.ListsOnce := by
  intro path listing hList
  obtain ⟨inode, permissions, above, names, hFind, -, rfl⟩ := list_eq_ok_iff.1 hList
  obtain ⟨others, -, hNames, -⟩ := hRelists.directory (node?_of_find hFind)
  exact hNames.sublist (listed_names_sublist fs names)

end Relists

/-- A node with its names in the reverse order, if it is a directory. -/
def reversedNode : Node → Node
  | .directory permissions above names => .directory permissions above names.reverse
  | node => node

/-- A file system whose directories hold their names in the reverse order. -/
def reversed (fs : FileSystem) : FileSystem :=
  ⟨fs.nodes.map reversedNode⟩

theorem relists_reversed (hNames : ∀ node ∈ fs.nodes, (node.held.map (·.1)).Nodup) :
    fs.Relists fs.reversed := by
  intro inode
  have hReversed : fs.reversed.node? inode = (fs.node? inode).map reversedNode :=
    List.getElem?_map
  rw [hReversed]
  cases hNode : fs.node? inode with
  | none => exact .none
  | some node =>
      refine .some ?_
      cases node with
      | directory permissions above names =>
          exact .directory _ _ (hNames _ (List.mem_of_getElem? hNode)) (List.reverse_perm names)
      | file _ _ | link _ | pipe _ => exact .same rfl

end FileSystem

end HostTree
