import HostTree.Proofs.Output.Unlimited
import HostTree.Proofs.Text.Lines
import HostTree.Proofs.Text.Quoted
import HostTree.Report.Section

/-!
The section on the arguments read back. The list stands in a line of its own, whatever characters
the arguments are made of, and this line says what they are.
-/

namespace HostTree

namespace Section

/-- The octets of the list of arguments. -/
def argumentList (arguments : List String) : Octets :=
  Octets.ofChars (Quoted.list (arguments.map String.toList))

theorem newline_notMem_argumentList (arguments : List String) :
    Octets.newline ∉ argumentList arguments :=
  Octets.newline_notMem_ofChars (Quoted.newline_notMem_list _)

/-- The section is made of a blank line, its heading and the list. -/
theorem ofString_argumentsText (arguments : List String) :
    Octets.ofString (argumentsText arguments) =
      Octets.ofLines [[], Octets.ofString "### Arguments ###", argumentList arguments] := by
  have hHeading : Octets.ofString "\n### Arguments ###\n" =
      Octets.ofLines [[], Octets.ofString "### Arguments ###"] := by decide
  have hList : Octets.ofString (String.ofList (Quoted.list (arguments.map String.toList))) =
      argumentList arguments := by
    rw [Octets.ofString, String.toList_ofList, argumentList]
  unfold argumentsText
  rw [Octets.ofString_line, Octets.ofString_append, hHeading, hList]
  simp [Octets.ofLines]

theorem newline_notMem_lines (arguments : List String) :
    ∀ line ∈ [[], Octets.ofString "### Arguments ###", argumentList arguments],
      Octets.newline ∉ line := by
  have hHeading : Octets.newline ∉ Octets.ofString "### Arguments ###" := by decide
  simp [hHeading, newline_notMem_argumentList]

/-- The section on the arguments says what they are. It has three lines, whatever newlines there are
in the arguments: a blank one, the heading, and one that a reader of quoted lists, which knows the
form but not what has been escaped, finds the arguments in. So other arguments, in number or in any
character, never make the same section. -/
theorem arguments_read_back (arguments : List String) :
    ∃ text line,
      (∀ written, Sink.put ⟨written, none⟩ (argumentsText arguments) =
        (.ok (), ⟨written ++ text, none⟩)) ∧
      text.count Octets.newline = 3 ∧
      Octets.lines? text = some [[], Octets.ofString "### Arguments ###", line] ∧
      Quoted.decode? line = some arguments ∧
      ∀ others, Octets.ofString (argumentsText others) = text ↔ others = arguments := by
  refine ⟨Octets.ofString (argumentsText arguments), argumentList arguments,
    fun written => Sink.put_unlimited written _, ?count, ?lines, Quoted.decode?_list arguments,
    fun others => ⟨fun hSame => ?injective, fun hSame => by rw [hSame]⟩⟩
  case count =>
    rw [ofString_argumentsText, Octets.count_newline_ofLines (newline_notMem_lines arguments)]
    rfl
  case lines =>
    rw [ofString_argumentsText, Octets.lines?_ofLines (newline_notMem_lines arguments)]
  case injective =>
    have hLines := Octets.lines?_ofLines (newline_notMem_lines others)
    rw [← ofString_argumentsText, hSame, ofString_argumentsText,
      Octets.lines?_ofLines (newline_notMem_lines arguments)] at hLines
    have hList : argumentList arguments = argumentList others := by simpa using hLines
    have hRead := Quoted.decode?_list arguments
    rw [← argumentList, hList, argumentList, Quoted.decode?_list] at hRead
    exact Option.some.inj hRead

end Section

end HostTree
