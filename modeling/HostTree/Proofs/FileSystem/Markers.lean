import HostTree.Proofs.FileSystem.Marker

/-!
Looks for markers, one after the other, on whatever paths. A file system keeps all that it holds
while it is looked at, so what was found once is found from then on; and each marker that is made
is a file of its own.
-/

namespace HostTree

namespace FileSystem

variable {fs left : FileSystem} {how : Lookup}

/-- Whether an outcome, if it is a vacant name, is one of a directory that does not hold it. -/
def IsFree (fs : FileSystem) (outcome : Except IoError Target) : Prop :=
  ∀ directory name, outcome = .ok (.vacant directory name) → ∃ permissions above names,
    fs.node? directory = some (.directory permissions above names) ∧ names.lookup name = none

theorem IsFree.of_existing (inode : Inode) : fs.IsFree (.ok (.existing inode)) :=
  fun _ _ hVacant => by simp at hVacant

theorem IsFree.of_error (error : IoError) : fs.IsFree (.error error) :=
  fun _ _ hVacant => by simp at hVacant

theorem isFree_followHeld {atLink : Continuation}
    (hLink : ∀ inode components slash, fs.IsFree (atLink inode components slash))
    {rest : List Octets} {slash : Bool}
    (hRest : ∀ inode, fs.IsFree (follow fs how atLink inode rest slash)) (directory held : Inode) :
    fs.IsFree (followHeld fs how atLink directory held rest slash) := by
  unfold followHeld
  split
  · exact hRest held
  · split
    · exact .of_existing held
    · exact hLink _ _ _
  · split
    · exact .of_existing held
    · exact .of_error _
  · exact .of_error _

theorem isFree_follow {atLink : Continuation}
    (hLink : ∀ inode components slash, fs.IsFree (atLink inode components slash))
    (inode : Inode) (components : List Octets) (slash : Bool) :
    fs.IsFree (follow fs how atLink inode components slash) := by
  induction components generalizing inode with
  | nil =>
      rw [follow]
      exact .of_existing inode
  | cons component rest ih =>
      by_cases hDirectory : ∃ permissions above names,
          fs.node? inode = some (.directory permissions above names)
      case neg =>
        simp only [not_exists] at hDirectory
        rw [follow_of_not_directory hDirectory]
        exact .of_error _
      obtain ⟨permissions, above, names, hNode⟩ := hDirectory
      rw [follow_of_directory hNode]
      split
      · exact .of_error _
      split
      · exact ih inode
      split
      · exact ih above
      split
      · exact .of_error _
      split
      · exact .of_error _
      cases hName : names.lookup component with
      | some held => exact isFree_followHeld hLink ih inode held
      | none =>
          dsimp only
          split
          · intro directory name hVacant
            cases hVacant
            exact ⟨permissions, above, names, hNode, hName⟩
          · exact .of_error _

theorem isFree_followWithin (links : Nat) (inode : Inode) (components : List Octets)
    (slash : Bool) : fs.IsFree (followWithin fs how links inode components slash) := by
  induction links generalizing inode components slash with
  | zero => exact isFree_follow (fun _ _ _ => .of_error _) inode components slash
  | succ links ih => exact isFree_follow ih inode components slash

/-- A name that a path could be made by is not held by the directory it leads to. -/
theorem isFree_resolve (fs : FileSystem) (how : Lookup) (path : Path) :
    fs.IsFree (fs.resolve how path) := by
  unfold resolve
  split
  · exact .of_error _
  · exact isFree_followWithin linkLimit _ _ _

/-- Whether all that a file system holds is held by another one as well: its nodes, but for names
that directories have gained, and what its paths lead to. -/
structure Keeps (fs left : FileSystem) : Prop where
  directories : ∀ inode permissions above names,
    fs.node? inode = some (.directory permissions above names) →
    ∃ more, left.node? inode = some (.directory permissions above (names ++ more))
  others : ∀ inode node, fs.node? inode = some node → node.isDirectory = false →
    left.node? inode = some node
  resolves : ∀ how path inode, fs.resolve how path = .ok (.existing inode) →
    left.resolve how path = .ok (.existing inode)

namespace Keeps

theorem refl (fs : FileSystem) : fs.Keeps fs where
  directories _ _ _ _ hNode := ⟨[], by rw [List.append_nil, hNode]⟩
  others _ _ hNode _ := hNode
  resolves _ _ _ hResolve := hResolve

theorem trans {last : FileSystem} (hFirst : fs.Keeps left) (hLast : left.Keeps last) :
    fs.Keeps last where
  directories inode permissions above names hNode := by
    obtain ⟨more, hLeft⟩ := hFirst.directories inode permissions above names hNode
    obtain ⟨further, hFurther⟩ := hLast.directories inode permissions above (names ++ more) hLeft
    exact ⟨more ++ further, by rw [hFurther, List.append_assoc]⟩
  others inode node hNode hKind :=
    hLast.others inode node (hFirst.others inode node hNode hKind) hKind
  resolves how path inode hResolve :=
    hLast.resolves how path inode (hFirst.resolves how path inode hResolve)

theorem exists_node (hKeeps : fs.Keeps left) {inode : Inode} {node : Node}
    (hNode : fs.node? inode = some node) : ∃ kept, left.node? inode = some kept := by
  cases hDirectory : node.isDirectory with
  | false => exact ⟨node, hKeeps.others inode node hNode hDirectory⟩
  | true =>
      obtain ⟨_, _, _, rfl⟩ := isDirectory_iff.1 hDirectory
      obtain ⟨more, hLeft⟩ := hKeeps.directories inode _ _ _ hNode
      exact ⟨_, hLeft⟩

end Keeps

theorem GainsFile.keeps {directory new : Inode} {name : Octets}
    (hGains : fs.GainsFile left directory name new) : fs.Keeps left where
  directories inode permissions above names hNode :=
    ⟨_, hGains.directories inode permissions above names hNode⟩
  others := hGains.others
  resolves how path inode hResolve := (resolve_gains hGains how path).existing inode hResolve

/-- Whether a path leads to a node. -/
def LeadsTo (fs : FileSystem) (path : Path) (inode : Inode) : Prop :=
  ∃ node, fs.find path = .ok (inode, node)

theorem LeadsTo.keeps {path : Path} {inode : Inode} (hLeads : fs.LeadsTo path inode)
    (hKeeps : fs.Keeps left) : left.LeadsTo path inode := by
  obtain ⟨node, hFind⟩ := hLeads
  obtain ⟨hResolve, hNode⟩ := find_eq_ok_iff.1 hFind
  obtain ⟨kept, hKept⟩ := hKeeps.exists_node hNode
  exact ⟨kept, find_eq_ok_iff.2 ⟨hKeeps.resolves asOwner path inode hResolve, hKept⟩⟩

theorem LeadsTo.unique {path : Path} {inode other : Inode} (hLeads : fs.LeadsTo path inode)
    (hOther : fs.LeadsTo path other) : inode = other := by
  obtain ⟨node, hFind⟩ := hLeads
  obtain ⟨_, hOtherFind⟩ := hOther
  cases hFind.symm.trans hOtherFind
  rfl

/-- Whether a file system is another one in which a marker has been made: nothing was found at the
marker's path, and there is one empty file more, under one name more that its directory did not
hold, to which the path leads. All else is as it was. -/
structure MakesMarker (fs left : FileSystem) (marker : Path) : Prop where
  missing : fs.exists? marker = .ok false
  made : ∃ directory permissions above names name,
    fs.node? directory = some (.directory permissions above names) ∧ names.lookup name = none ∧
      left.nodes =
        fs.nodes.set directory
            (.directory permissions above (names ++ [(name, fs.nodes.length)])) ++
          [.file .newFile (.octets [])]
  found : left.find marker = .ok (fs.nodes.length, .file .newFile (.octets []))

/-- The first look for a marker makes its file under a free name, and does nothing else. -/
theorem makesMarker_of_first {marker : Path}
    (hTouch : fs.touchMarker marker = (.ok .first, left)) : fs.MakesMarker left marker := by
  have hGains := touchMarker_eq_first hTouch
  refine ⟨hGains.missing, ?_, hGains.found⟩
  obtain ⟨-, hState, -⟩ | ⟨-, -, directory, name, hVacant, rfl⟩ := touchMarker_eq_ok hTouch
  · cases hState
  · obtain ⟨permissions, above, names, hNode, hFree⟩ :=
      isFree_resolve fs asMaker marker directory name hVacant
    refine ⟨directory, permissions, above, names, name, hNode, hFree, ?_⟩
    rw [node?] at hNode
    simp [add, addName, List.modify_eq_set_getElem?, hNode]

theorem MakesMarker.leadsTo {marker : Path} (hMakes : fs.MakesMarker left marker) :
    left.LeadsTo marker fs.nodes.length :=
  ⟨_, hMakes.found⟩

/-- A look that does not make its marker changes nothing. -/
theorem touchMarker_of_ne {marker : Path} (hTouch : (fs.touchMarker marker).1 ≠ .ok .first) :
    (fs.touchMarker marker).2 = fs := by
  cases hOutcome : fs.touchMarker marker with
  | mk outcome left =>
      cases outcome with
      | error error =>
          rw [← touchMarker_of_error (congrArg Prod.fst hOutcome), hOutcome]
      | ok state =>
          cases state with
          | first => exact absurd (congrArg Prod.fst hOutcome) hTouch
          | second => exact (touchMarker_eq_second hOutcome).1

/-- A look for a marker changes nothing that was there. -/
theorem keeps_touchMarker (fs : FileSystem) (marker : Path) :
    fs.Keeps (fs.touchMarker marker).2 := by
  by_cases hFirst : (fs.touchMarker marker).1 = .ok .first
  · obtain ⟨directory, name, hGains⟩ := (touchMarker_eq_first (Prod.ext hFirst rfl)).gains
    exact hGains.keeps
  · rw [touchMarker_of_ne hFirst]
    exact .refl fs

/-- The file system after a number of looks for markers, one after the other. -/
def afterLooks (fs : FileSystem) (markers : Nat → Path) : Nat → FileSystem
  | 0 => fs
  | calls + 1 => ((fs.afterLooks markers calls).touchMarker (markers calls)).2

/-- What the look with a number answers, the first one being number zero. -/
def lookAnswer (fs : FileSystem) (markers : Nat → Path) (call : Nat) :
    Except IoError MarkerState :=
  ((fs.afterLooks markers call).touchMarker (markers call)).1

variable {markers : Nat → Path} {call later calls : Nat}

theorem touchMarker_afterLooks (fs : FileSystem) (markers : Nat → Path) (call : Nat) :
    (fs.afterLooks markers call).touchMarker (markers call) =
      (fs.lookAnswer markers call, fs.afterLooks markers (call + 1)) := rfl

theorem keeps_afterLooks (fs : FileSystem) (markers : Nat → Path) (hOrder : call ≤ later) :
    (fs.afterLooks markers call).Keeps (fs.afterLooks markers later) := by
  induction hOrder with
  | refl => exact .refl _
  | step _ ih => exact ih.trans (keeps_touchMarker _ _)

/-- A look that succeeds leaves something at its path. -/
theorem exists_leadsTo_of_ok {state : MarkerState}
    (hAnswer : fs.lookAnswer markers call = .ok state) :
    ∃ inode, (fs.afterLooks markers (call + 1)).LeadsTo (markers call) inode := by
  have hTouch := touchMarker_afterLooks fs markers call
  rw [hAnswer] at hTouch
  cases state with
  | first => exact ⟨_, (makesMarker_of_first hTouch).leadsTo⟩
  | second =>
      obtain ⟨hLeft, hExists⟩ := touchMarker_eq_second hTouch
      obtain ⟨⟨inode, node⟩, hFind⟩ := exists?_eq_true_iff.1 hExists
      exact ⟨inode, node, hLeft ▸ hFind⟩

/-- The marker that a look makes is none that an earlier look has found or made. -/
theorem ne_of_leadsTo {state : MarkerState} {inode other : Inode} (hOrder : call < later)
    (hCalls : later < calls) (hAnswer : fs.lookAnswer markers call = .ok state)
    (hLater : fs.lookAnswer markers later = .ok .first)
    (hLeads : (fs.afterLooks markers calls).LeadsTo (markers call) inode)
    (hOther : (fs.afterLooks markers calls).LeadsTo (markers later) other) : inode ≠ other := by
  have hTouch := touchMarker_afterLooks fs markers later
  rw [hLater] at hTouch
  have hNew := (makesMarker_of_first hTouch).leadsTo.keeps (keeps_afterLooks fs markers hCalls)
  obtain ⟨old, hOld⟩ := exists_leadsTo_of_ok hAnswer
  -- The earlier path led to its node before the later look, which makes a node behind all others.
  have hBefore := hOld.keeps (keeps_afterLooks fs markers hOrder)
  have hSame := hBefore.keeps (keeps_afterLooks fs markers (Nat.le_of_lt hCalls))
  rw [hLeads.unique hSame, hOther.unique hNew]
  obtain ⟨node, hFind⟩ := hBefore
  exact Nat.ne_of_lt (lt_length_of_find hFind)

/-- Looks for markers, one after the other, on any paths. After a look has succeeded, each further
one on its path finds something there, and no look makes a file for a path that leads to what an
earlier one has found or made. A look that does not make its marker leaves the file system as it
is; one that does adds an empty file under a free name and nothing else. All that was there stays,
and paths go on to lead where they led. -/
theorem markers_stay (fs : FileSystem) (markers : Nat → Path) :
    (∀ call later state, call < later → markers later = markers call →
      fs.lookAnswer markers call = .ok state → fs.lookAnswer markers later = .ok .second) ∧
    (∀ call later calls state inode, call < later → later < calls →
      fs.lookAnswer markers call = .ok state →
      (fs.afterLooks markers calls).LeadsTo (markers call) inode →
      (fs.afterLooks markers calls).LeadsTo (markers later) inode →
      fs.lookAnswer markers later ≠ .ok .first) ∧
    (∀ call, fs.lookAnswer markers call ≠ .ok .first →
      fs.afterLooks markers (call + 1) = fs.afterLooks markers call) ∧
    (∀ call, fs.lookAnswer markers call = .ok .first →
      (fs.afterLooks markers call).MakesMarker (fs.afterLooks markers (call + 1))
        (markers call)) ∧
    ∀ call later, call ≤ later →
      (fs.afterLooks markers call).Keeps (fs.afterLooks markers later) ∧
      ∀ path inode, (fs.afterLooks markers call).LeadsTo path inode →
        (fs.afterLooks markers later).LeadsTo path inode := by
  refine ⟨?_, ?_, ?_, ?_, ?_⟩
  · intro call later state hOrder hSame hAnswer
    obtain ⟨inode, hLeads⟩ := exists_leadsTo_of_ok hAnswer
    obtain ⟨node, hFind⟩ := hLeads.keeps (keeps_afterLooks fs markers hOrder)
    rw [← hSame] at hFind
    rw [lookAnswer, touchMarker_of_find hFind]
  · intro call later calls state inode hOrder hCalls hAnswer hLeads hOther hLater
    exact ne_of_leadsTo hOrder hCalls hAnswer hLater hLeads hOther rfl
  · intro call hAnswer
    exact touchMarker_of_ne hAnswer
  · intro call hAnswer
    refine makesMarker_of_first ?_
    rw [touchMarker_afterLooks, hAnswer]
  · intro call later hOrder
    have hKeeps := keeps_afterLooks fs markers hOrder
    exact ⟨hKeeps, fun path inode hLeads => hLeads.keeps hKeeps⟩

/-- A link that leads nowhere and the file that is made through it are one marker. -/
example :
    let fs : FileSystem :=
      ⟨[.directory .newDirectory 0 [],
        .directory .newDirectory 0 [(Octets.ofString "link", 2)],
        .link (.ofString "marker")]⟩
    let markers (call : Nat) : Path := .ofString (if call = 1 then "marker" else "link")
    (List.range 3).map (fs.lookAnswer markers) = [.ok .first, .ok .second, .ok .second] := by
  decide

end FileSystem

end HostTree
