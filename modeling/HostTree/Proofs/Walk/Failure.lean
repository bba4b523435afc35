import HostTree.Proofs.Walk.Visit

/-!
How a run ends, however the file system changes between the calls: after its lines it fails once or
not at all, and nothing comes after that. It fails where a call visits a directory and cannot list
it, and nowhere else, and says what kept it from that.
-/

namespace HostTree

namespace TreeError

/-- How an error of the file system at a path is told: as what it says about the path, where that is
known, and otherwise as it is. -/
inductive Tells (path : Path) (cause : IoError) : TreeError → Prop where
  | permissionDenied (hKind : cause.kind = .permissionDenied) :
      Tells path cause (.permissionDenied path)
  | notFound (hKind : cause.kind = .notFound) : Tells path cause (.notFound path)
  | notADirectory (hKind : cause.kind = .notADirectory) : Tells path cause (.notADirectory path)
  | io (hPermission : cause.kind ≠ .permissionDenied) (hFound : cause.kind ≠ .notFound)
      (hDirectory : cause.kind ≠ .notADirectory) : Tells path cause (.io path cause)

theorem tells_iff {path : Path} {cause : IoError} {error : TreeError} :
    Tells path cause error ↔ error = ofIo path cause := by
  unfold ofIo
  constructor
  · intro hTells
    cases hTells with
    | permissionDenied hKind => rw [hKind]
    | notFound hKind => rw [hKind]
    | notADirectory hKind => rw [hKind]
    | io hPermission hFound hDirectory =>
        split
        · next hKind => exact absurd hKind hPermission
        · next hKind => exact absurd hKind hFound
        · next hKind => exact absurd hKind hDirectory
        · rfl
  · rintro rfl
    split
    · next hKind => exact .permissionDenied hKind
    · next hKind => exact .notFound hKind
    · next hKind => exact .notADirectory hKind
    · next hPermission hFound hDirectory => exact .io hPermission hFound hDirectory

end TreeError

namespace View

/-- Why a directory is not listed, inside of others with certain identities, and how it is told. -/
inductive Refuses (view : View) (options : DrawOptions) (around : Identity → Prop) (path : Path) :
    TreeError → Prop where
  | stat {cause : IoError} {error : TreeError} (hStat : view.stat path = .error cause)
      (hTells : TreeError.Tells path cause error) : Refuses view options around path error
  | notADirectory {found : Stat} (hStat : view.stat path = .ok found)
      (hFound : found.isDirectory = false) : Refuses view options around path (.notADirectory path)
  | linkCycle {identity : Identity} (hStat : view.stat path = .ok ⟨true, identity⟩)
      (hAround : around identity) : Refuses view options around path (.linkCycle path)
  | list {identity : Identity} {cause : IoError} {error : TreeError}
      (hStat : view.stat path = .ok ⟨true, identity⟩) (hNew : ¬around identity)
      (hLimit : options.depthLimit ≠ some 0) (hList : view.list path = .error cause)
      (hTells : TreeError.Tells path cause error) : Refuses view options around path error

variable {view : View} {options : DrawOptions} {around : Identity → Prop} {path : Path}
  {error : TreeError}

theorem Refuses.path_eq (hRefuses : view.Refuses options around path error) :
    error.path = path := by
  cases hRefuses with
  | stat _ hTells | list _ _ _ _ hTells =>
      rw [TreeError.tells_iff.1 hTells, TreeError.path_ofIo]
  | notADirectory => rfl
  | linkCycle => rfl

theorem Refuses.exists_of_linkCycle {other : Path}
    (hRefuses : view.Refuses options around path (.linkCycle other)) :
    other = path ∧ ∃ identity, view.directory path = .ok identity ∧ around identity := by
  cases hRefuses with
  | stat _ hTells => nomatch hTells
  | linkCycle hStat hAround => exact ⟨rfl, _, directory_eq_ok_iff.2 hStat, hAround⟩
  | list _ _ _ _ hTells => nomatch hTells

theorem refuses_of_directory_error (hDirectory : view.directory path = .error error) :
    view.Refuses options around path error := by
  unfold directory at hDirectory
  split at hDirectory
  · next hStat =>
      cases hDirectory
      exact .stat hStat (TreeError.tells_iff.2 rfl)
  · next found hStat =>
      split at hDirectory
      · simp at hDirectory
      · next hFound =>
          cases hDirectory
          exact .notADirectory hStat (by simpa using hFound)

/-- A directory is not opened if it is refused inside of those that are open. -/
theorem openDirectory_eq_error_iff (hLimit : options.depthLimit ≠ some 0)
    {active : List Identity} :
    view.openDirectory options active path = .error error ↔
      view.Refuses options (· ∈ active) path error := by
  unfold openDirectory
  constructor
  · intro hOpen
    split at hOpen
    · next hDirectory =>
        cases hOpen
        exact refuses_of_directory_error hDirectory
    · next identity hDirectory =>
        have hStat := directory_eq_ok_iff.1 hDirectory
        split at hOpen
        · next hMem =>
            cases hOpen
            exact .linkCycle hStat hMem
        · next hNew =>
            split at hOpen
            · next cause hEntries =>
                cases hOpen
                exact .list hStat hNew hLimit (entries_eq_error_iff.1 hEntries)
                  (TreeError.tells_iff.2 rfl)
            · simp at hOpen
  · intro hRefuses
    cases hRefuses with
    | stat hStat hTells => simp [directory, hStat, TreeError.tells_iff.1 hTells]
    | notADirectory hStat hFound => simp [directory, hStat, hFound]
    | linkCycle hStat hMem => simp [directory_eq_ok_iff.2 hStat, hMem]
    | list hStat hNew _ hList hTells =>
        simp [directory_eq_ok_iff.2 hStat, hNew, entries_eq_error_iff.2 hList,
          TreeError.tells_iff.1 hTells]

end View

namespace Walk

open Outline

variable {options : DrawOptions} {root : Path} {views : Nat → View}

theorem openRoot_eq_map {view : View} (hLimit : options.depthLimit ≠ some 0) :
    openRoot options view [] root = (openFrame options view [] ⟨root, "", 1⟩).map ([·]) := by
  unfold openRoot
  cases hDirectory : view.directory root with
  | error error => simp [openFrame, View.openDirectory, hDirectory, Except.map]
  | ok identity => simp [hLimit]

theorem openRoot_eq_error_iff {view : View} {error : TreeError} :
    openRoot options view [] root = .error error ↔
      view.Refuses options (fun _ => False) root error := by
  by_cases hLimit : options.depthLimit = some 0
  · unfold openRoot
    constructor
    · intro hOpen
      split at hOpen
      · next hDirectory =>
          cases hOpen
          exact View.refuses_of_directory_error hDirectory
      · simp [hLimit] at hOpen
    · intro hRefuses
      cases hRefuses with
      | stat hStat hTells => simp [View.directory, hStat, TreeError.tells_iff.1 hTells]
      | notADirectory hStat hFound => simp [View.directory, hStat, hFound]
      | linkCycle _ hAround => exact hAround.elim
      | list _ _ hLists => exact absurd hLimit hLists
  · rw [openRoot_eq_map hLimit, map_eq_error_iff, openFrame_eq_error_iff,
      View.openDirectory_eq_error_iff hLimit]
    simp only [List.map_nil, List.not_mem_nil]

/-- The open directories of a branch are those in which its lines stand. -/
theorem Branch.mem_identities_iff {stack : List Frame} {lines : List Numbered}
    (hBranch : Branch options root views stack lines) (hLines : lines ≠ []) (identity : Identity) :
    identity ∈ stack.map (·.identity) ↔
      ∃ parent ∈ none :: lines.tail.map some,
        (views (listingCall parent)).directory (directoryAt root parent) = .ok identity := by
  induction hBranch with
  | nil => exact absurd rfl hLines
  | @cons _ outer inner entry hOuter hHangs hEntry number ih =>
      -- A frame is listed inside the line around its own, the root if there is none.
      have hOpen := (View.openDirectory_eq_ok_iff.1 (hHangs.openDirectory_eq hOuter)).1
      rw [List.map_cons, List.mem_cons, List.tail_cons]
      cases outer with
      | nil =>
          cases hOuter
          have hRoot : (views (listingCall none)).directory (directoryAt root none) =
              .ok inner.showNext.identity := hOpen
          simp [hRoot, eq_comm]
      | cons line outer =>
          have hLine : (views (listingCall (some line))).directory (directoryAt root (some line)) =
              .ok inner.showNext.identity := hOpen
          rw [ih (by simp), List.tail_cons, List.map_cons]
          simp only [List.mem_cons, exists_eq_or_imp, hLine, Except.ok.injEq]
          rw [eq_comm, or_left_comm]

/-- Whether an identity is that of a directory around the one that a call visits: that of the root,
or of a line around the latest one, as it was found by the call that listed it. -/
def IsAround (options : DrawOptions) (root : Path) (views : Nat → View) : Nat → Identity → Prop
  | 0, _ => False
  | call + 1, identity =>
    ∃ line, (start options root).answer views call = some (.ok line) ∧
      ∃ parent ∈ none :: (ancestors ((start options root).lines views call) line.depth).map some,
        (views (listingCall parent)).directory (directoryAt root parent) = .ok identity

theorem isAround_iff {calls : Nat} {stack : List Frame} {pending : Option Descent}
    (hWalk : (start options root).after views calls = running options stack pending)
    (identity : Identity) :
    IsAround options root views calls identity ↔ identity ∈ stack.map (·.identity) := by
  obtain ⟨call, line, rfl, hAnswer, hBranch, -⟩ := exists_of_running hWalk
  have hReverse : ∀ {items : List Numbered} {parent : Option Numbered},
      parent ∈ none :: items.reverse.map some ↔ parent ∈ none :: items.map some := by
    simp
  simp only [hBranch.mem_identities_iff (by simp), List.tail_cons, hReverse]
  constructor
  · rintro ⟨other, hOther, hAround⟩
    cases hOther.symm.trans hAnswer
    exact hAround
  · intro hAround
    exact ⟨line, hAnswer, hAround⟩

theorem next_eq_error_iff {walk : Walk} {view : View} {error : TreeError}
    (hDone : walk.done = false) :
    (walk.next view).1 = some (.error error) ↔ walk.opened view = .error error := by
  constructor
  · intro hNext
    have hCall := call_next hDone view
    rw [hNext] at hCall
    generalize (walk.next view).2 = later at hCall
    cases hCall with
    | failure hOpened => exact hOpened
  · intro hOpened
    rw [next_of_not_done hDone, hOpened]

/-- What is still to be listed is opened unless it is refused inside the open directories. -/
theorem opened_of_pending_eq_error_iff {call : Nat} {stack : List Frame} {descent : Descent}
    (hWalk : (start options root).after views call = running options stack (some descent))
    {error : TreeError} :
    ((start options root).after views call).opened (views call) = .error error ↔
      (views call).Refuses options (IsAround options root views call) descent.path error := by
  have hLimit : options.depthLimit ≠ some 0 := by
    cases call with
    | zero => cases hWalk
    | succ call => exact (visits_of_pending hWalk).depthLimit_ne
  have hAround : IsAround options root views call = (· ∈ stack.map (·.identity)) :=
    funext fun identity => propext (isAround_iff hWalk identity)
  rw [hWalk, opened_running_some, map_eq_error_iff, openFrame_eq_error_iff,
    View.openDirectory_eq_error_iff hLimit, hAround]

/-- A call fails if it visits a directory that is refused, and only then. -/
theorem answer_eq_error_iff {call : Nat} {error : TreeError} :
    (start options root).answer views call = some (.error error) ↔
      ∃ path, Visits options root views call path ∧
        (views call).Refuses options (IsAround options root views call) path error := by
  constructor
  · intro hAnswer
    have hOpened := (next_eq_error_iff (not_done_of_next hAnswer)).1 hAnswer
    rcases after_cases options root views call with
      ⟨rfl, hWalk⟩ | ⟨stack, pending, hWalk⟩ | hWalk
    · rw [hWalk, opened_start] at hOpened
      exact ⟨root, .root, openRoot_eq_error_iff.1 hOpened⟩
    · cases pending with
      | none =>
          rw [hWalk] at hOpened
          cases hOpened
      | some descent =>
          exact ⟨descent.path, visits_of_pending hWalk,
            (opened_of_pending_eq_error_iff hWalk).1 hOpened⟩
    · rw [hWalk] at hOpened
      cases hOpened
  · rintro ⟨path, hVisits, hRefuses⟩
    rcases hVisits.after_eq with ⟨rfl, rfl⟩ | ⟨stack, descent, rfl, hWalk⟩
    · refine (next_eq_error_iff rfl).2 ?_
      rw [after, opened_start]
      exact openRoot_eq_error_iff.2 hRefuses
    · refine (next_eq_error_iff (by rw [hWalk])).2 ?_
      exact (opened_of_pending_eq_error_iff hWalk).2 hRefuses

theorem Visits.isDescended {call : Nat} {line : Line} {path : Path}
    (hVisits : Visits options root views (call + 1) path)
    (hAnswer : (start options root).answer views call = some (.ok line)) :
    IsDescended options views ((start options root).lines views call) line := by
  cases hVisits with
  | below hLine hDescended =>
      cases hLine.symm.trans hAnswer
      exact hDescended

/-- However the file system changes between the calls of a run, what does not answer a line is
followed by nothing. A call fails if the directory that it visits is refused, which is the root or
that of the line before it, and only then; and it says what its view refused there. The root is
never refused as one that is open already, and after a line that is not descended into no failure
follows. -/
theorem failure_is_refusal (options : DrawOptions) (root : Path) (views : Nat → View) :
    (∀ call, (∀ line, (start options root).answer views call ≠ some (.ok line)) →
      ∀ later, call < later → (start options root).answer views later = none) ∧
    (∀ call error, (start options root).answer views call = some (.error error) ↔
      Visits options root views call error.path ∧
        (views call).Refuses options (IsAround options root views call) error.path error) ∧
    (∀ path, (start options root).answer views 0 ≠ some (.error (.linkCycle path))) ∧
    ∀ call line, (start options root).answer views call = some (.ok line) →
      ¬IsDescended options views ((start options root).lines views call) line →
      ∀ error, (start options root).answer views (call + 1) ≠ some (.error error) := by
  refine ⟨?_, ?_, ?_, ?_⟩
  · intro call hNoLine later hLater
    have hDone : ((start options root).after views (call + 1)).done = true :=
      done_of_next_ne_ok hNoLine
    exact answer_eq_none_of_le hDone hLater
  · intro call error
    rw [answer_eq_error_iff]
    constructor
    · rintro ⟨path, hVisits, hRefuses⟩
      rw [hRefuses.path_eq]
      exact ⟨hVisits, hRefuses⟩
    · rintro ⟨hVisits, hRefuses⟩
      exact ⟨error.path, hVisits, hRefuses⟩
  · intro path hAnswer
    obtain ⟨_, -, hRefuses⟩ := answer_eq_error_iff.1 hAnswer
    obtain ⟨-, _, -, hAround⟩ := hRefuses.exists_of_linkCycle
    exact hAround
  · intro call line hLine hNotDescended error hAnswer
    obtain ⟨_, hVisits, -⟩ := answer_eq_error_iff.1 hAnswer
    exact hNotDescended (hVisits.isDescended hLine)

end Walk

end HostTree
