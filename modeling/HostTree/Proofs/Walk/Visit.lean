import HostTree.Proofs.Drawing.Restriction
import HostTree.Proofs.Walk.Preorder

/-!
What a walk looks at, call by call, however the file system changes between the calls. The first
call visits the root. Any other one visits the directory of the line before it, if that line is one
to enter, and nothing otherwise. What a call answers depends on the directory that it visits alone.
-/

namespace HostTree

namespace View

/-- Whether another view agrees on all that a walk may ask about a directory: what it resolves to
and, unless nothing of it is drawn, the names in it with their kinds, and which of the links among
them lead to directories. -/
structure LooksAlike (options : DrawOptions) (view other : View) (directory : Path) : Prop where
  stat_eq : other.stat directory = view.stat directory
  list_eq : options.depthLimit ≠ some 0 → other.list directory = view.list directory
  resolves_eq : options.depthLimit ≠ some 0 → ∀ listing name, view.list directory = .ok listing →
    (name, EntryKind.link) ∈ listing →
      other.resolvesToDirectory (directory.join name) =
        view.resolvesToDirectory (directory.join name)

variable {options : DrawOptions} {view other : View} {directory : Path}

theorem entry_eq_entry_iff {name : Octets} {kind : EntryKind} :
    other.entry directory name kind = view.entry directory name kind ↔
      (kind = .link → other.resolvesToDirectory (directory.join name) =
        view.resolvesToDirectory (directory.join name)) := by
  cases kind <;> simp [entry]

theorem list_eq_map_entries (view : View) (directory : Path) :
    view.list directory =
      (view.entries directory).map (·.map fun entry => (entry.name, entry.kind)) := by
  unfold entries
  cases view.list directory with
  | error error => rfl
  | ok listing =>
      simp only [Except.map, List.map_map]
      exact congrArg Except.ok (List.map_id listing).symm

/-- To agree on a directory is to agree on what it resolves to and on its entries. -/
theorem looksAlike_iff : LooksAlike options view other directory ↔
    other.stat directory = view.stat directory ∧
      (options.depthLimit ≠ some 0 → other.entries directory = view.entries directory) := by
  constructor
  · rintro ⟨hStat, hList, hResolves⟩
    refine ⟨hStat, fun hLimit => ?_⟩
    have hAgree := hResolves hLimit
    rw [entries, entries, hList hLimit]
    cases hListing : view.list directory with
    | error error => rfl
    | ok listing =>
        refine congrArg Except.ok (List.map_congr_left ?_)
        rintro ⟨name, kind⟩ hName
        refine entry_eq_entry_iff.2 ?_
        rintro rfl
        exact hAgree listing name hListing hName
  · rintro ⟨hStat, hEntries⟩
    refine ⟨hStat, fun hLimit => ?_, fun hLimit listing name hListing hName => ?_⟩
    · rw [list_eq_map_entries, hEntries hLimit, ← list_eq_map_entries]
    · have hOther : other.list directory = .ok listing := by
        rw [list_eq_map_entries, hEntries hLimit, ← list_eq_map_entries, hListing]
      have hSame := hEntries hLimit
      rw [entries, entries, hOther, hListing] at hSame
      have hEntry := List.map_inj_left.1 (Except.ok.inj hSame) _ hName
      exact entry_eq_entry_iff.1 hEntry rfl

theorem LooksAlike.directory_eq (hAlike : LooksAlike options view other directory) :
    other.directory directory = view.directory directory := by
  rw [View.directory, View.directory, hAlike.stat_eq]

theorem LooksAlike.openDirectory_eq (hAlike : LooksAlike options view other directory)
    (hLimit : options.depthLimit ≠ some 0) (active : List Identity) :
    other.openDirectory options active directory = view.openDirectory options active directory := by
  rw [openDirectory, openDirectory, hAlike.directory_eq, (looksAlike_iff.1 hAlike).2 hLimit]

end View

namespace Walk

open Outline

/-- Whether the directory of a line is to be listed directly after it: the line is one to enter, and
the limit allows lines below it. -/
def IsDescended (options : DrawOptions) (views : Nat → View) (earlier : List Line) (line : Line) :
    Prop :=
  IsEntered options views earlier line ∧
    ∀ limit, options.depthLimit = some limit → line.depth < limit

/-- The directory that a call of a run visits, if it visits one: the root in the first call, and
after a line that is descended into the directory of that line. -/
inductive Visits (options : DrawOptions) (root : Path) (views : Nat → View) :
    Nat → Path → Prop where
  | root : Visits options root views 0 root
  | below {call : Nat} {line : Line}
      (hAnswer : (start options root).answer views call = some (.ok line))
      (hDescended : IsDescended options views ((start options root).lines views call) line) :
      Visits options root views (call + 1) line.path

variable {options : DrawOptions} {root : Path} {views : Nat → View}

/-- What is still to be listed inside a branch is the directory of its innermost line, if this line
is descended into. -/
theorem Branch.pending?_iff {before : List Line} {last : Line} {number : Nat}
    {outer : List Numbered} {frame : Frame} {rest : List Frame}
    (hBranch : Branch options root views (frame :: rest) ((last, number) :: outer))
    (hAround : latest? before (last.depth - 1) = outer.head?) (path : Path) :
    (frame.pending? options).map (·.path) = some path ↔
      IsDescended options views before last ∧ path = last.path := by
  cases hBranch with
  | @cons _ _ parent entry hOuter hHangs hEntry number =>
      have hIff : options.descends entry parent.depth = true ↔
          IsDescended options views before (parent.nextLine entry) :=
        hHangs.descends_iff hOuter hEntry hAround
      rw [Frame.pending?_showNext options hEntry, Option.map_eq_some_iff, ← hIff]
      constructor
      · rintro ⟨descent, hDescent, rfl⟩
        obtain ⟨hDescends, rfl⟩ := descent?_eq_some_iff.1 hDescent
        exact ⟨hDescends, rfl⟩
      · rintro ⟨hDescends, rfl⟩
        exact ⟨_, descent?_eq_some_iff.2 ⟨hDescends, rfl⟩, rfl⟩

theorem Stands.exists_of_running {earlier : List Line} {stack : List Frame}
    {pending : Option Descent}
    (hStands : Stands options root views earlier (running options stack pending))
    (hHistory : History options root views earlier) :
    ∃ before line, earlier = before ++ [line] ∧
      Branch options root views stack
        ((line, before.length) :: (ancestors before line.depth).reverse) ∧
      ∀ path, pending.map (·.path) = some path ↔
        IsDescended options views before line ∧ path = line.path := by
  have hStepped := hStands.stepped rfl
  cases hStands with
  | branch hBranch =>
      rcases List.eq_nil_or_concat earlier with rfl | ⟨before, last, rfl⟩
      · cases hBranch
      · rw [List.concat_eq_append] at *
        have hNested := hHistory.of_append.nested
        have hOpen := hNested.openLines_append_eq hStepped
        have hAround := hNested.latest?_of_openLines_append hStepped hOpen
        -- The innermost open line is the last one, and what is around it has been open before it.
        rw [hOpen] at hBranch
        exact ⟨before, last, rfl, hBranch, hBranch.pending?_iff hAround⟩

/-- The open frames between two calls have answered the latest line and those around it, and what is
still to be listed is the directory of the latest line. -/
theorem exists_of_running {calls : Nat} {stack : List Frame} {pending : Option Descent}
    (hWalk : (start options root).after views calls = running options stack pending) :
    ∃ call line, calls = call + 1 ∧ (start options root).answer views call = some (.ok line) ∧
      Branch options root views stack
        ((line, call) ::
          (ancestors ((start options root).lines views call) line.depth).reverse) ∧
      ∀ path, pending.map (·.path) = some path ↔
        IsDescended options views ((start options root).lines views call) line ∧
          path = line.path := by
  obtain ⟨hStands, hHistory, hLength⟩ := stands_after options root views calls
  have hCalls := hLength (by rw [hWalk])
  rw [hWalk] at hStands
  obtain ⟨before, line, hLines, hBranch, hPending⟩ := hStands.exists_of_running hHistory
  cases calls with
  | zero => cases hWalk
  | succ call =>
      have hLength : before.length = call := by simpa [hLines] using hCalls
      have hAnswer : (start options root).answer views call = some (.ok line) := by
        rw [← getElem?_lines (Nat.lt_succ_self call), hLines, ← hLength]
        simp
      rw [lines_succ_of_ok hAnswer] at hLines
      obtain rfl := (List.append_inj' hLines rfl).1
      rw [hLength] at hBranch
      exact ⟨call, line, rfl, hAnswer, hBranch, hPending⟩

/-- Below the root, a call visits what is still to be listed before it. -/
theorem visits_iff {calls : Nat} {stack : List Frame} {pending : Option Descent}
    (hWalk : (start options root).after views calls = running options stack pending)
    (path : Path) :
    Visits options root views calls path ↔ pending.map (·.path) = some path := by
  obtain ⟨call, line, rfl, hAnswer, -, hPending⟩ := exists_of_running hWalk
  rw [hPending]
  constructor
  · intro hVisits
    cases hVisits with
    | below hLine hDescended =>
        cases hLine.symm.trans hAnswer
        exact ⟨hDescended, rfl⟩
  · rintro ⟨hDescended, rfl⟩
    exact .below hAnswer hDescended

theorem visits_of_pending {calls : Nat} {stack : List Frame} {descent : Descent}
    (hWalk : (start options root).after views calls = running options stack (some descent)) :
    Visits options root views calls descent.path :=
  (visits_iff hWalk _).2 rfl

/-- What a walk is that is about to visit a directory. -/
theorem Visits.after_eq {call : Nat} {path : Path}
    (hVisits : Visits options root views call path) :
    (call = 0 ∧ path = root) ∨ ∃ stack descent, descent.path = path ∧
      (start options root).after views call = running options stack (some descent) := by
  have hSame := hVisits
  cases hVisits with
  | root => exact Or.inl ⟨rfl, rfl⟩
  | @below call line hAnswer hDescended =>
      obtain ⟨stack, pending, hNext⟩ := exists_running_of_next hAnswer
      rw [options_after] at hNext
      have hWalk : (start options root).after views (call + 1) = running options stack pending :=
        hNext
      have hPending := (visits_iff hWalk line.path).1 hSame
      obtain ⟨descent, rfl, hPath⟩ := Option.map_eq_some_iff.1 hPending
      exact Or.inr ⟨stack, descent, hPath, hWalk⟩

theorem Visits.depthLimit_ne {call : Nat} {path : Path}
    (hVisits : Visits options root views (call + 1) path) : options.depthLimit ≠ some 0 := by
  cases hVisits with
  | below _ hDescended =>
      intro hLimit
      exact Nat.not_lt_zero _ (hDescended.2 0 hLimit)

theorem openFrame_eq_of_looksAlike {view other : View} {descent : Descent}
    (hAlike : view.LooksAlike options other descent.path) (hLimit : options.depthLimit ≠ some 0)
    (stack : List Frame) :
    openFrame options other stack descent = openFrame options view stack descent := by
  rw [openFrame, openFrame, hAlike.openDirectory_eq hLimit]

theorem openRoot_eq_of_looksAlike {view other : View}
    (hAlike : view.LooksAlike options other root) :
    openRoot options other [] root = openRoot options view [] root := by
  rw [openRoot, openRoot, hAlike.directory_eq]
  by_cases hLimit : options.depthLimit = some 0
  · simp only [if_pos hLimit]
  · have hDescent : view.LooksAlike options other (⟨root, "", 1⟩ : Descent).path := hAlike
    rw [openFrame_eq_of_looksAlike hDescent hLimit]

/-- Before any call of a run there is nothing but the root, or open directories, or nothing. -/
theorem after_cases (options : DrawOptions) (root : Path) (views : Nat → View) (calls : Nat) :
    (calls = 0 ∧ (start options root).after views calls = start options root) ∨
    (∃ stack pending, (start options root).after views calls = running options stack pending) ∨
    (start options root).after views calls = ended options := by
  obtain ⟨hStands, -, hLength⟩ := stands_after options root views calls
  generalize (start options root).lines views calls = lines at hStands hLength
  generalize (start options root).after views calls = walk at hStands hLength
  cases hStands with
  | fresh => exact Or.inl ⟨(hLength rfl).symm, rfl⟩
  | branch => exact Or.inr (Or.inl ⟨_, _, rfl⟩)
  | finished => exact Or.inr (Or.inr rfl)

theorem opened_eq_of_looksAlike {call : Nat} {other : View}
    (hAlike : ∀ path, Visits options root views call path →
      (views call).LooksAlike options other path) :
    ((start options root).after views call).opened other =
      ((start options root).after views call).opened (views call) := by
  rcases after_cases options root views call with
    ⟨rfl, hWalk⟩ | ⟨stack, pending, hWalk⟩ | hWalk
  · rw [hWalk, opened_start, opened_start, openRoot_eq_of_looksAlike (hAlike root .root)]
  · cases pending with
    | none => rw [hWalk]; rfl
    | some descent =>
        have hVisits := visits_of_pending hWalk
        -- Below the root the limit allows lines, so the views agree on the listing as well.
        have hLimit : options.depthLimit ≠ some 0 := by
          cases call with
          | zero => cases hWalk
          | succ call => exact hVisits.depthLimit_ne
        rw [hWalk, opened_running_some, opened_running_some,
          openFrame_eq_of_looksAlike (hAlike _ hVisits) hLimit]
  · rw [hWalk]
    rfl

theorem next_eq_of_opened_eq {walk : Walk} {view other : View}
    (hOpened : walk.opened other = walk.opened view) : walk.next other = walk.next view := by
  cases hDone : walk.done with
  | true => rw [next_of_done hDone, next_of_done hDone]
  | false => rw [next_of_not_done hDone, next_of_not_done hDone, hOpened]

theorem after_eq_of_looksAlike {others : Nat → View}
    (hAlike : ∀ call path, Visits options root views call path →
      (views call).LooksAlike options (others call) path) (calls : Nat) :
    (start options root).after others calls = (start options root).after views calls := by
  induction calls with
  | zero => rfl
  | succ calls ih =>
      have hOpened := opened_eq_of_looksAlike (hAlike calls)
      rw [after, after, ih, next_eq_of_opened_eq hOpened]

/-- A run answers the same whatever is changed at any time outside of what is visited then: the
views that its calls are given may be replaced by others that agree with them, each on the one
directory that its call visits, or on nothing at all if its call visits none. -/
theorem answer_eq_of_looksAlike (options : DrawOptions) (root : Path) (views others : Nat → View)
    (hAlike : ∀ call path, Visits options root views call path →
      (views call).LooksAlike options (others call) path) (call : Nat) :
    (start options root).answer others call = (start options root).answer views call := by
  rw [answer, answer, after_eq_of_looksAlike hAlike,
    next_eq_of_opened_eq (opened_eq_of_looksAlike (hAlike call))]

/-- What `locked` has become when a call of the walk through it is made. Each time something is gone
where that call does not look, and all of it where the call visits nothing. -/
def lockedElsewhere : Nat → FileSystem
  | 0 => locked.modify 3 (FileSystem.removeName (Octets.ofString "f"))
  | 1 => locked.modify 1 (FileSystem.removeName (Octets.ofString "z"))
  | 3 => locked.modify 1 (FileSystem.removeName (Octets.ofString "l"))
  | 5 => locked.modify 1 (FileSystem.removeName (Octets.ofString "d"))
  | _ => .empty

theorem eq_of_visits_locked {call : Nat} {path : Path}
    (hVisits : Visits unsorted (.ofString ".") (fun _ => locked.view) call path) :
    (call, path) ∈ [(0, .ofString "."), (1, .ofString "./l"), (3, .ofString "./d"),
      (5, .ofString "./z")] := by
  cases hVisits with
  | root => decide
  | @below call line hAnswer hDescended =>
      rw [fails_locked call] at hAnswer
      have hFile : line.kind ≠ .file := by
        intro hFile
        rcases hDescended.1 with hKind | ⟨hKind, -⟩
        · simp [hFile] at hKind
        · simp [hFile] at hKind
      match call with
      | 0 =>
          cases hAnswer
          decide
      | 1 =>
          cases hAnswer
          exact absurd rfl hFile
      | 2 =>
          cases hAnswer
          decide
      | 3 =>
          cases hAnswer
          exact absurd rfl hFile
      | 4 =>
          cases hAnswer
          decide
      | 5 => cases hAnswer
      | call + 6 => simp [linesOfLocked] at hAnswer

theorem looksAlike_lockedElsewhere {call : Nat} {path : Path}
    (hVisits : Visits unsorted (.ofString ".") (fun _ => locked.view) call path) :
    locked.view.LooksAlike unsorted (lockedElsewhere call).view path := by
  rw [View.looksAlike_iff]
  have hMem := eq_of_visits_locked hVisits
  simp only [List.mem_cons, List.not_mem_nil, or_false, Prod.mk.injEq] at hMem
  rcases hMem with ⟨rfl, rfl⟩ | ⟨rfl, rfl⟩ | ⟨rfl, rfl⟩ | ⟨rfl, rfl⟩
  · decide
  · decide
  · decide
  · decide

theorem answer_eq_lockedElsewhere :
    (∀ call path, Visits unsorted (.ofString ".") (fun _ => locked.view) call path →
      locked.view.LooksAlike unsorted (lockedElsewhere call).view path) ∧
    ∀ call, (start unsorted (.ofString ".")).answer (fun call => (lockedElsewhere call).view) call =
      (linesOfLocked.map .ok ++ [.error (.permissionDenied (.ofString "./z"))])[call]? := by
  have hAlike : ∀ call path, Visits unsorted (.ofString ".") (fun _ => locked.view) call path →
      locked.view.LooksAlike unsorted (lockedElsewhere call).view path :=
    fun _ _ => looksAlike_lockedElsewhere
  refine ⟨hAlike, fun call => ?_⟩
  rw [← fails_locked call]
  exact answer_eq_of_looksAlike unsorted (.ofString ".") (fun _ => locked.view)
    (fun call => (lockedElsewhere call).view) hAlike call

end Walk

end HostTree
