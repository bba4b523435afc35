import HostTree.Tree.Line

/-!
A tree drawn line by line. Nothing is read before the first line is asked for, and a directory is
listed only when the line after its own is asked for, so every call may meet another state of the
file system. The first failure ends the walk.
-/

namespace HostTree

/-- A listed directory on the branch that is being drawn. -/
structure Frame where
  directory : Path
  identity : Identity
  lead : String
  depth : Nat
  entries : List Entry
  /-- The number of entries whose lines have been answered. -/
  shown : Nat
deriving DecidableEq

/-- A directory that is to be listed by the next call. -/
structure Descent where
  path : Path
  lead : String
  depth : Nat
deriving DecidableEq

/-- A walk through a tree. Its fields are independent of each other: which of their combinations
occur is a matter of the calls that have been made. -/
structure Walk where
  options : DrawOptions
  /-- The root, which the first call takes. -/
  root : Option Path
  /-- The open directories, the innermost first. -/
  stack : List Frame
  /-- What is still to be listed, which the next call takes. -/
  pending : Option Descent
  /-- Whether nothing is answered any more. -/
  done : Bool
deriving DecidableEq

namespace Walk

/-- A walk that is about to start at a root. -/
def start (options : DrawOptions) (root : Path) : Walk where
  options := options
  root := some root
  stack := []
  pending := none
  done := false

/-- List a directory below the open ones. -/
def openFrame (options : DrawOptions) (view : View) (stack : List Frame) (descent : Descent) :
    Except TreeError Frame :=
  match view.openDirectory options (stack.map (·.identity)) descent.path with
  | .error error => .error error
  | .ok (identity, entries) =>
    .ok
      { directory := descent.path
        identity := identity
        lead := descent.lead
        depth := descent.depth
        entries := entries
        shown := 0 }

/-- The open directories with the root. With a depth limit of zero it is looked at and not
listed. -/
def openRoot (options : DrawOptions) (view : View) (stack : List Frame) (root : Path) :
    Except TreeError (List Frame) :=
  match view.directory root with
  | .error error => .error error
  | .ok _ =>
    if options.depthLimit = some 0 then .ok stack
    else (openFrame options view stack ⟨root, "", 1⟩).map (· :: stack)

/-- Take the root, if it is still there, and open it. -/
def takeRoot (walk : Walk) (view : View) : Option TreeError × Walk :=
  match walk.root with
  | none => (none, walk)
  | some root =>
    match openRoot walk.options view walk.stack root with
    | .error error => (some error, { walk with root := none })
    | .ok stack => (none, { walk with root := none, stack := stack })

/-- Take what is to be listed, if there is something, and list it. -/
def takePending (walk : Walk) (view : View) : Option TreeError × Walk :=
  match walk.pending with
  | none => (none, walk)
  | some descent =>
    match openFrame walk.options view walk.stack descent with
    | .error error => (some error, { walk with pending := none })
    | .ok frame => (none, { walk with pending := none, stack := frame :: walk.stack })

/-- What is listed after the line of an entry. -/
def descent? (options : DrawOptions) (frame : Frame) (entry : Entry) (isLast : Bool) :
    Option Descent :=
  if options.descends entry frame.depth then
    some ⟨entry.path, frame.lead ++ Guide.below isLast, frame.depth + 1⟩
  else none

/-- The next line of the innermost one of some directories that has one left. Directories without
one are closed; if none has one, the walk is done. -/
def advance (walk : Walk) : List Frame → Option Answer × Walk
  | [] => (none, { walk with stack := [], done := true })
  | frame :: rest =>
    match frame.entries[frame.shown]? with
    | none => walk.advance rest
    | some entry =>
      let isLast := frame.shown + 1 = frame.entries.length
      (some (.ok (.ofEntry frame.lead frame.depth entry isLast)),
        { walk with
          stack := { frame with shown := frame.shown + 1 } :: rest
          pending := (descent? walk.options frame entry isLast).or walk.pending })

/-- Answer a failure and be done. -/
def fail (walk : Walk) (error : TreeError) : Option Answer × Walk :=
  (some (.error error), { walk with done := true, stack := [], pending := none })

/-- Answer the next line, the failure that ends the walk, or that it has ended. -/
def next (walk : Walk) (view : View) : Option Answer × Walk :=
  if walk.done then (none, walk)
  else
    match walk.takeRoot view with
    | (some error, taken) => taken.fail error
    | (none, rooted) =>
      match rooted.takePending view with
      | (some error, taken) => taken.fail error
      | (none, listed) => listed.advance listed.stack

/-- The walk after a number of calls, each with a view of its own. -/
def after (walk : Walk) (views : Nat → View) : Nat → Walk
  | 0 => walk
  | calls + 1 => ((walk.after views calls).next (views calls)).2

/-- What the call with a number answers, the first one being number zero. -/
def answer (walk : Walk) (views : Nat → View) (call : Nat) : Option Answer :=
  ((walk.after views call).next (views call)).1

end Walk

end HostTree
