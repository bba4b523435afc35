import HostTree.Proofs.Output.Unlimited
import HostTree.Proofs.Walk.Failure

/-!
The answers of a run as a drawing that can be written: its lines, and the failure behind them if one
has ended the walk. What is written of it is what is written of the lines.
-/

namespace HostTree

namespace Walk

variable {views : Nat → View}

/-- What the first calls have answered. -/
def answers (walk : Walk) (views : Nat → View) (calls : Nat) : Drawing :=
  (List.range calls).filterMap (walk.answer views)

theorem answers_succ (walk : Walk) (calls : Nat) :
    walk.answers views (calls + 1) =
      walk.answers views calls ++ (walk.answer views calls).toList := by
  rw [answers, List.range_succ, List.filterMap_append, answers]
  cases hAnswer : walk.answer views calls with
  | none => simp [hAnswer]
  | some answer => simp [hAnswer]

/-- A call that answers a line adds it to the lines and to the answers. -/
theorem answers_succ_of_ok {walk : Walk} {calls : Nat} {line : Line}
    (hAnswers : walk.answers views calls = (walk.lines views calls).map .ok)
    (hAnswer : walk.answer views calls = some (.ok line)) :
    walk.answers views (calls + 1) = (walk.lines views (calls + 1)).map .ok := by
  rw [answers_succ, hAnswer, hAnswers, lines_succ_of_ok hAnswer, List.map_append]
  rfl

/-- As long as a walk is not done, it has answered nothing but lines. -/
theorem answers_of_not_done {walk : Walk} {calls : Nat}
    (hDone : (walk.after views calls).done = false) :
    walk.answers views calls = (walk.lines views calls).map .ok := by
  induction calls with
  | zero => rfl
  | succ calls ih =>
      have hBefore : (walk.after views calls).done = false := by
        cases hBefore : (walk.after views calls).done with
        | false => rfl
        | true => rwa [after, next_of_done hBefore, hBefore] at hDone
      have hLine : ∃ line, walk.answer views calls = some (.ok line) := by
        by_contra hNone
        rw [after, done_of_next_ne_ok (not_exists.1 hNone)] at hDone
        cases hDone
      obtain ⟨line, hAnswer⟩ := hLine
      exact answers_succ_of_ok (ih hBefore) hAnswer

/-- A walk has answered lines, or lines and a failure. -/
theorem answers_eq (walk : Walk) (views : Nat → View) (calls : Nat) :
    walk.answers views calls = (walk.lines views calls).map .ok ∨
      ∃ error, walk.answers views calls = (walk.lines views calls).map .ok ++ [.error error] := by
  induction calls with
  | zero => exact Or.inl rfl
  | succ calls ih =>
      cases hAnswer : walk.answer views calls with
      | none =>
          rw [answers_succ, lines_succ_of_ne_ok (by simp [hAnswer]), hAnswer, Option.toList_none,
            List.append_nil]
          exact ih
      | some answer =>
          have hAnswers := answers_of_not_done (not_done_of_next hAnswer)
          cases answer with
          | ok line => exact Or.inl (answers_succ_of_ok hAnswers hAnswer)
          | error error =>
              rw [answers_succ, lines_succ_of_ne_ok (by simp [hAnswer]), hAnswer, hAnswers]
              exact Or.inr ⟨error, rfl⟩

/-- What is written of a run where there is room for everything. -/
def written (walk : Walk) (views : Nat → View) (calls : Nat) (style : Style) (shown : Path) :
    Octets :=
  (Sink.unlimited.writeDrawing style shown (walk.answers views calls)).2.written

/-- What is written of a run is what is written of its lines. -/
theorem written_eq (walk : Walk) (views : Nat → View) (calls : Nat) (style : Style)
    (shown : Path) :
    walk.written views calls style shown = style.text shown ((walk.lines views calls).map .ok) := by
  have hWritten : walk.written views calls style shown =
      style.text shown (walk.answers views calls) := by
    rw [written, Sink.unlimited, Sink.writeDrawing_unlimited, List.nil_append]
  rw [hWritten]
  rcases answers_eq walk views calls with hAnswers | ⟨error, hAnswers⟩
  · rw [hAnswers]
  · rw [hAnswers, Style.text_append_error]

end Walk

end HostTree
