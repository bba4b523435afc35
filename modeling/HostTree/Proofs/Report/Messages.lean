import HostTree.Program

/-!
What is told of a report that fails, in its words: what was being done, and below it the error of
the tree or of the marker.
-/

namespace HostTree

namespace Failure

/-- A text whose lines stand behind blanks, but for the first. -/
def hanging (blanks text : String) : String :=
  String.ofList (('\n' :: blanks.toList).intercalate (text.toList.splitOn '\n'))

theorem flatMap_eq_intercalate (blanks text : List Char) :
    (text.flatMap fun c => if c = '\n' then '\n' :: blanks else [c]) =
      ('\n' :: blanks).intercalate (text.splitOn '\n') := by
  induction text with
  | nil => rfl
  | cons c text ih =>
      obtain ⟨first, rest, hLines⟩ := List.exists_cons_of_ne_nil (List.splitOn_ne_nil '\n' text)
      rw [hLines] at ih
      rw [List.flatMap_cons, ih, List.splitOn_cons_eq_if_modifyHead, hLines]
      by_cases hNewline : c = '\n'
      · simp [hNewline, List.intercalate_cons_cons]
      · -- The character goes in front of the first line, which may be the only one.
        cases rest with
        | nil => simp [hNewline]
        | cons second rest => simp [hNewline, List.intercalate_cons_cons]

theorem indented_eq (blanks text : String) : indented blanks text = hanging blanks text := by
  rw [indented, flatMap_eq_intercalate, hanging]

/-- How an error of the tree is told below what was being done. Only an error that is passed on has
two parts, which are numbered. -/
def ofTree : TreeError → String
  | .permissionDenied path =>
    "\n\nCaused by:\n    " ++ hanging "    " ("permission denied: " ++ path.display)
  | .notFound path =>
    "\n\nCaused by:\n    " ++ hanging "    " ("no such file or directory: " ++ path.display)
  | .notADirectory path =>
    "\n\nCaused by:\n    " ++ hanging "    " ("not a directory: " ++ path.display)
  | .linkCycle path =>
    "\n\nCaused by:\n    " ++ hanging "    " ("symbolic link cycle at " ++ path.display)
  | .io path cause =>
    "\n\nCaused by:\n    0: " ++ hanging "       " (path.display ++ ": " ++ cause.message) ++
      "\n    1: " ++ hanging "       " cause.message

theorem causes_singleton (cause : String) :
    causes [cause] = "\n\nCaused by:\n    " ++ hanging "    " cause := by
  rw [← indented_eq]
  rfl

theorem causes_pair (cause later : String) :
    causes [cause, later] = "\n\nCaused by:\n    0: " ++ hanging "       " cause ++
      "\n    1: " ++ hanging "       " later := by
  have hCauses : causes [cause, later] =
      "\n\nCaused by:" ++ String.join
        ["\n    " ++ toString 0 ++ ": " ++ indented "       " cause,
          "\n    " ++ toString 1 ++ ": " ++ indented "       " later] := rfl
  have hFirst : "\n\nCaused by:" ++ ("\n    " ++ toString 0 ++ ": ") =
      "\n\nCaused by:\n    0: " := by decide
  have hSecond : "\n    " ++ toString 1 ++ ": " = "\n    1: " := by decide
  rw [hCauses, ← hFirst, ← hSecond, indented_eq, indented_eq]
  simp only [String.join_cons, String.join_nil, String.append_empty, String.append_assoc]

theorem causes_tree (error : TreeError) :
    causes (error.message :: (error.cause?.map IoError.message).toList) = ofTree error := by
  cases error with
  | permissionDenied path | notFound path | notADirectory path | linkCycle path =>
      exact causes_singleton _
  | io path cause => exact causes_pair _ _

theorem report_renderingTree (root : Path) (error : TreeError) :
    report (.during (.renderingTree root) (.tree error)) =
      "Error: rendering tree below " ++ root.display ++ ofTree error ++ "\n" := by
  have hWords : "Error: " ++ ("rendering tree below " ++ root.display) =
      "Error: rendering tree below " ++ root.display := by
    rw [← String.append_assoc]
    exact congrArg (· ++ root.display) (by decide)
  rw [← causes_tree, ← hWords]
  rfl

/-- A path with a newline in it, and what the system reports of it. -/
example : report (.during (.renderingTree (.ofString "a"))
      (.tree (.ofIo (.ofString "a/b\nc") (.system .tooManyLinks)))) =
    "Error: rendering tree below a\n\nCaused by:\n    " ++
      "0: a/b\n       c: Too many levels of symbolic links (os error 40)\n    " ++
      "1: Too many levels of symbolic links (os error 40)\n" := by
  decide +kernel

theorem report_touchingMarker (marker : Path) (error : IoError) :
    report (.during (.touchingMarker marker) (.io error)) =
      "Error: touching marker " ++ marker.display ++
        ("\n\nCaused by:\n    " ++ hanging "    " error.message) ++ "\n" := by
  have hWords : "Error: " ++ ("touching marker " ++ marker.display) =
      "Error: touching marker " ++ marker.display := by
    rw [← String.append_assoc]
    exact congrArg (· ++ marker.display) (by decide)
  rw [← causes_singleton, ← hWords]
  rfl

end Failure

end HostTree
