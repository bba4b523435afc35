import HostTree.Tree.Line

/-!
A whole tree drawn at once: the root's entries in their order, each followed by all that is drawn
below it, up to the first failure.
-/

namespace HostTree

/-- The answers of a walk, in their order. A failure can only be the last one. -/
abbrev Drawing := List Answer

namespace Drawing

/-- One drawing and then another. Nothing follows a failure. -/
def followedBy : Drawing → Drawing → Drawing
  | [], later => later
  | .error error :: _, _ => [.error error]
  | .ok line :: rest, later => .ok line :: followedBy rest later

/-- The lines of a directory's entries. Below each line stands what `below` draws for its entry
behind the guides it is given. -/
def siblings (lead : String) (depth : Nat) (below : Entry → String → Drawing) :
    List Entry → Drawing
  | [] => []
  | entry :: rest =>
    let isLast := rest.isEmpty
    .ok (.ofEntry lead depth entry isLast) ::
      (below entry (lead ++ Guide.below isLast)).followedBy (siblings lead depth below rest)

end Drawing

namespace View

/-- Draw what is inside a directory. `active` holds the identities of the directories around it.
Each directory that is entered adds one of the view's identities to them, so there is an end to
it. -/
def drawInside (view : View) (options : DrawOptions) (active : List Identity) (path : Path)
    (lead : String) (depth : Nat) : Drawing :=
  match hOpen : view.openDirectory options active path with
  | .error error => [.error error]
  | .ok (identity, entries) =>
    Drawing.siblings lead depth
      (fun entry below =>
        if options.descends entry depth then
          drawInside view options (identity :: active) entry.path below (depth + 1)
        else [])
      entries
termination_by (view.unopened active).length
decreasing_by
  have ⟨hDirectory, hNew, _⟩ := openDirectory_eq_ok_iff.1 hOpen
  exact length_unopened_cons_lt (mem_identities_of_directory hDirectory) hNew

/-- Draw the tree below a root. -/
def draw (view : View) (options : DrawOptions) (root : Path) : Drawing :=
  match view.directory root with
  | .error error => [.error error]
  | .ok _ =>
    if options.depthLimit = some 0 then []
    else view.drawInside options [] root "" 1

end View

end HostTree
