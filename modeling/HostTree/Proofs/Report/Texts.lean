import HostTree.Program
import HostTree.Proofs.Drawing.Completeness
import HostTree.Proofs.FileSystem.Marker
import HostTree.Proofs.Output.Pieces
import HostTree.Proofs.Output.Rows
import HostTree.Proofs.Report.Environment
import HostTree.Proofs.Report.Sections
import HostTree.Proofs.Text.Quoted

/-!
The texts of a report in their words, apart from the functions that put them together. What is a
list, a row or a number is said by what a reader makes of it. The main statement, `reports_texts`,
is that a report whose sections end well consists of these texts.
-/

namespace HostTree

namespace Draw

/-- The number that words lead to. Of the product of a word and a thousand, the high half is the
number, unless the low half is too great; then the next word decides. No words are like zeros. -/
inductive LeadsTo : List UInt32 → Nat → Prop where
  | usedUp : LeadsTo [] 0
  | accepted {word : UInt32} {rest : List UInt32}
      (hLow : word.toNat * 1000 % 4294967296 ≤ 4194303999) :
      LeadsTo (word :: rest) (word.toNat * 1000 / 4294967296)
  | refused {word : UInt32} {rest : List UInt32} {number : Nat}
      (hLow : 4194303999 < word.toNat * 1000 % 4294967296) (hRest : LeadsTo rest number) :
      LeadsTo (word :: rest) number

theorem leadsTo_run (words : List UInt32) : LeadsTo words (run words).1 := by
  induction words with
  | nil => exact .usedUp
  | cons word rest ih =>
      by_cases hLow : word.toNat * 1000 % 4294967296 ≤ 4194303999
      · have hWord : ofWord? word = some (word.toNat * 1000 / 4294967296) := if_pos hLow
        rw [run, hWord]
        exact .accepted hLow
      · have hWord : ofWord? word = none := if_neg hLow
        rw [run, hWord]
        exact .refused (Nat.lt_of_not_le hLow) ih

end Draw

namespace ClockTime

/-- Whether digits are as many as given and stand for a number. -/
def IsNumeral (width number : Nat) (digits : List Char) : Prop :=
  digits.length = width ∧ Decimal.digits? digits = some number

/-- Whether a text shows a time: hour, minute and second with two digits each, and six digits for
the microseconds. In a second of double length, the second half counts as one more second. -/
def IsShownAs (time : ClockTime) (text : String) : Prop :=
  ∃ hour minute second fraction, IsNumeral 2 time.hour hour ∧ IsNumeral 2 time.minute minute ∧
    IsNumeral 2 (time.second + time.nanosecond / 1000000000) second ∧
    IsNumeral 6 (time.nanosecond % 1000000000 / 1000) fraction ∧
    text.toList = hour ++ ':' :: minute ++ ':' :: second ++ '.' :: fraction

theorem isNumeral_padded {width number : Nat} (hWidth : 0 < width) (hBound : number < 10 ^ width) :
    IsNumeral width number (Decimal.padded width number).toList := by
  have hDigits : (Nat.toDigits 10 number).length ≤ width :=
    (Nat.length_toDigits_le_iff (by decide) hWidth).2 hBound
  exact ⟨Decimal.length_padded hDigits, Decimal.digits?_padded width number⟩

theorem isShownAs_text (time : ClockTime) : time.IsShownAs time.text := by
  obtain ⟨hour, minute, second, nanosecond, hValid⟩ := time
  have hBounds : hour < 24 ∧ minute < 60 ∧ second < 60 ∧ nanosecond < 2000000000 := by
    simp only [isClockTime, Bool.and_eq_true, decide_eq_true_eq] at hValid
    split at hValid <;> omega
  have hHour : IsNumeral 2 hour (Decimal.padded 2 hour).toList :=
    isNumeral_padded (by decide) (by omega)
  have hMinute : IsNumeral 2 minute (Decimal.padded 2 minute).toList :=
    isNumeral_padded (by decide) (by omega)
  -- The second half of a double second is counted as second sixty at most.
  have hSecond := isNumeral_padded (show 0 < 2 by decide)
    (show second + nanosecond / 1000000000 < 10 ^ 2 by omega)
  have hFraction := isNumeral_padded (show 0 < 6 by decide)
    (show nanosecond % 1000000000 / 1000 < 10 ^ 6 by omega)
  exact ⟨_, _, _, _, hHour, hMinute, hSecond, hFraction, by simp [text]⟩

end ClockTime

namespace Style

/-- What stands in front of a name of a kind, where there are colours. -/
def colour : EntryKind → String
  | .directory => "\x1b[0m\x1b[34m"
  | .link => "\x1b[0m\x1b[36m"
  | _ => ""

/-- What is written of a root and of the lines below it: in the plain style, the root and what is
drawn of each line; in the coloured one, the same with escape sequences around names; as JSON, an
object for the root and one for each line, which say of them what a table of rows does. -/
inductive Draws (root : Path) (lines : List Line) : Style → Octets → Prop where
  | plain :
      Draws root lines .plain
        (Octets.ofString (root.display ++ "\n") ++ lines.flatMap fun line =>
          Octets.ofString (line.lead ++ line.connector ++ line.name ++ "\n"))
  | coloured :
      Draws root lines .coloured
        (Octets.ofString ("\x1b[0m\x1b[1m" ++ root.display ++ "\n\x1b[0m") ++
          lines.flatMap fun line =>
            Octets.ofString
              (line.lead ++ line.connector ++ colour line.kind ++ line.name ++ "\x1b[0m\n"))
  | json {rows : Octets}
      (hRows : rows = Octets.ofLines ((Line.ofRoot root :: lines).map Line.object))
      (hRead : TreeRow.read? rows = some (TreeRow.table root lines)) :
      Draws root lines .json rows

theorem text_map_ok (style : Style) (root : Path) (lines : List Line) :
    style.text root (lines.map .ok) =
      (style.header root).flatMap (·.text) ++ lines.flatMap style.row := by
  rw [text, body_map_ok]
  rfl

theorem header_coloured_eq (root : Path) : (coloured.header root).flatMap (·.text) =
    Octets.ofString ("\x1b[0m\x1b[1m" ++ root.display ++ "\n\x1b[0m") := by
  have hStart : Escape.reset ++ Escape.bold = "\x1b[0m\x1b[1m" := by decide
  have hEnd : "\n" ++ Escape.reset = "\n\x1b[0m" := by decide
  rw [header_coloured, ← hStart, ← hEnd]
  simp only [Octets.ofString_append, List.append_assoc]

theorem row_coloured_eq (line : Line) : coloured.row line = Octets.ofString
    (line.lead ++ line.connector ++ colour line.kind ++ line.name ++ "\x1b[0m\n") := by
  have hColour : String.join (Escape.before line.kind) = colour line.kind := by
    cases line.kind <;> decide
  have hEnd : Escape.reset ++ "\n" = "\x1b[0m\n" := by decide
  rw [row_coloured, ← Octets.ofString_line, Line.renderColoured, hColour, ← hEnd,
    ← String.append_assoc]

/-- What a style writes of a root and lines is what it is to write of them. -/
theorem draws_text (style : Style) (root : Path) (lines : List Line) :
    style.Draws root lines (style.text root (lines.map .ok)) := by
  cases style with
  | plain =>
      have hRow : plain.row = fun line =>
          Octets.ofString (line.lead ++ line.connector ++ line.name ++ "\n") := by
        funext line
        rw [row_plain, ← Octets.ofString_line, Line.render]
      rw [text_map_ok, header_plain, ← Octets.ofString_line, hRow]
      exact .plain
  | coloured =>
      rw [text_map_ok, header_coloured_eq, funext row_coloured_eq]
      exact .coloured
  | json => exact .json (text_json root lines) (TreeRow.read?_text_json root lines)

end Style

open CommandLine Walk

variable {settings : Settings} {surroundings : Surroundings} {fs : FileSystem}

/-- What the sections of a report say that end well. -/
inductive Section.Says (settings : Settings) (surroundings : Surroundings) (fs : FileSystem) :
    Section → Octets → Prop where
  | host {number : Nat} {time : String} (hNumber : Draw.LeadsTo surroundings.words number)
      (hTime : surroundings.time.IsShownAs time) :
      Says settings surroundings fs .host
        (Octets.ofString ("Hello from rust on linux unix\nrandom: " ++ toString number ++
          "\ntime: " ++ time ++ "\n"))
  | arguments {list : Octets}
      (hList : list = Octets.ofChars
        (Quoted.list ((surroundings.arguments.map Utf8.lossy).map String.toList)))
      (hRead : Quoted.decode? list = some (surroundings.arguments.map Utf8.lossy)) :
      Says settings surroundings fs .arguments
        (Octets.ofString "\n### Arguments ###\n" ++ list ++ Octets.ofString "\n")
  | environment {listed : List (String × String)}
      (hListed : Environment.IsListing surroundings.«variables» listed) :
      Says settings surroundings fs .environment
        (Octets.ofString ("\n### Env Vars ###\n" ++
          String.join (listed.map fun (name, value) => name ++ ": " ++ value ++ "\n")))
  | tree {lines : List Line} {drawn : Octets}
      (hCompletes : Completes fs.view settings.drawing settings.treeRoot lines)
      (hDrawn : (settings.style surroundings.«variables»).Draws settings.treeRoot lines drawn) :
      Says settings surroundings fs .tree (Octets.ofString "\n### Recursive Files\n" ++ drawn)
  | firstRun (hMissing : fs.exists? settings.marker = .ok false) :
      Says settings surroundings fs .touch (Octets.ofString "\n### Touch\n")
  | secondRun (hThere : fs.exists? settings.marker = .ok true) :
      Says settings surroundings fs .touch (Octets.ofString "\n### Touch\nsecond run\n")

/-- Whether an output is what some sections say, one after the other, without those that are to be
skipped. -/
inductive Reports (settings : Settings) (surroundings : Surroundings) (fs : FileSystem) :
    List Section → Octets → Prop where
  | nil : Reports settings surroundings fs [] []
  | skipped {part : Section} {rest : List Section} {later : Octets}
      (hSkipped : part ∈ settings.skipped) (hRest : Reports settings surroundings fs rest later) :
      Reports settings surroundings fs (part :: rest) later
  | shown {part : Section} {rest : List Section} {text later : Octets}
      (hShown : part ∉ settings.skipped) (hText : part.Says settings surroundings fs text)
      (hRest : Reports settings surroundings fs rest later) :
      Reports settings surroundings fs (part :: rest) (text ++ later)

namespace Reports

variable {part : Section} {rest : List Section} {output : Octets}
  (hReports : Reports settings surroundings fs (part :: rest) output)
include hReports

theorem of_skipped (hSkipped : part ∈ settings.skipped) :
    Reports settings surroundings fs rest output := by
  cases hReports with
  | skipped _ hRest => exact hRest
  | shown hShown => exact absurd hSkipped hShown

theorem of_shown (hShown : part ∉ settings.skipped) :
    ∃ text later, output = text ++ later ∧ part.Says settings surroundings fs text ∧
      Reports settings surroundings fs rest later := by
  cases hReports with
  | skipped hSkipped => exact absurd hSkipped hShown
  | shown _ hText hRest => exact ⟨_, _, rfl, hText, hRest⟩

end Reports

namespace Program

theorem text_host_eq : (reportOf settings surroundings).text surroundings fs .host =
    Octets.ofString ("Hello from rust on linux unix\nrandom: " ++
      toString (Draw.run surroundings.words).1 ++ "\ntime: " ++ surroundings.time.text ++
        "\n") := by
  have hStart : Section.greeting ++ "random: " = "Hello from rust on linux unix\nrandom: " := by
    decide
  rw [← hStart, Report.text, Section.drawAndTime]
  simp only [Octets.ofString_append, List.append_assoc]

theorem text_arguments_eq : (reportOf settings surroundings).text surroundings fs .arguments =
    Octets.ofString "\n### Arguments ###\n" ++ Octets.ofChars
      (Quoted.list ((surroundings.arguments.map Utf8.lossy).map String.toList)) ++
        Octets.ofString "\n" := by
  change Octets.ofString (Section.argumentsText _) = _
  unfold Section.argumentsText
  rw [Octets.ofString_append, Octets.ofString_append]
  congr 2
  rw [Octets.ofString, String.toList_ofList]

/-- A section that ends well says what it is to say. -/
theorem says_text {part : Section}
    (hOutcome : (reportOf settings surroundings).outcome fs part = .ok ()) :
    part.Says settings surroundings fs
      ((reportOf settings surroundings).text surroundings fs part) := by
  cases part with
  | host =>
      rw [text_host_eq]
      exact .host (Draw.leadsTo_run _) surroundings.time.isShownAs_text
  | arguments =>
      rw [text_arguments_eq]
      exact .arguments rfl (Quoted.decode?_list _)
  | environment => exact .environment (Environment.isListing_sorted _)
  | tree =>
      obtain ⟨lines, hDraw⟩ := (Report.outcome_tree_eq_ok_iff.1 hOutcome).exists_lines
      have hCompletes : Completes fs.view settings.drawing settings.treeRoot lines :=
        completes_iff.2 hDraw
      rw [Report.text, hDraw]
      exact .tree hCompletes (Style.draws_text ..)
  | touch =>
      unfold Report.text
      rcases hTouch : fs.touchMarker (reportOf settings surroundings).marker with ⟨answer, left⟩
      cases answer with
      | error error =>
          rw [Report.outcome, hTouch] at hOutcome
          cases hOutcome
      | ok state =>
          cases state with
          | first => exact .firstRun (FileSystem.touchMarker_eq_first hTouch).missing
          | second => exact .secondRun (FileSystem.touchMarker_eq_second hTouch).2

theorem shows_reportOf_iff {part : Section} :
    (reportOf settings surroundings).shows part = true ↔ part ∉ settings.skipped :=
  decide_eq_true_iff

/-- Sections that end well say, one after the other, what they are to say. -/
theorem reports_texts {parts : List Section}
    (hEndsWell : (reportOf settings surroundings).EndsWell fs parts) :
    Reports settings surroundings fs parts
      ((reportOf settings surroundings).texts surroundings fs parts) := by
  induction parts with
  | nil => exact .nil
  | cons part rest ih =>
      rw [Report.EndsWell, List.forall_mem_cons] at hEndsWell
      have hRest := ih hEndsWell.2
      by_cases hSkipped : part ∈ settings.skipped
      · have hShows : (reportOf settings surroundings).shows part = false :=
          Bool.eq_false_iff.2 fun hShows => shows_reportOf_iff.1 hShows hSkipped
        rw [Report.texts_cons_of_skipped hShows]
        exact .skipped hSkipped hRest
      · have hShows : (reportOf settings surroundings).shows part = true :=
          shows_reportOf_iff.2 hSkipped
        rw [Report.texts_cons_of_shown hShows]
        exact .shown hSkipped (says_text (hEndsWell.1 hShows)) hRest

end Program

end HostTree
