import LineShell.Text

/-!
# Lines

A sequence is cut after each break, so the pieces joined again give the sequence back.  The line
of a piece is what is left without its end: a newline, and one carriage return before it.  A
carriage return that no newline follows belongs to the line.
-/

namespace LineShell

def cutAfter {α : Type} (isBreak : α → Bool) : List α → List (List α)
  | [] => []
  | a :: rest =>
      if isBreak a then [a] :: cutAfter isBreak rest
      else
        match cutAfter isBreak rest with
        | [] => [[a]]
        | piece :: later => (a :: piece) :: later

theorem flatten_cutAfter {α : Type} (isBreak : α → Bool) (l : List α) :
    (cutAfter isBreak l).flatten = l := by
  induction l with
  | nil => rfl
  | cons a rest ih =>
      unfold cutAfter
      split
      · simp [ih]
      · split
        · next h => simp [h] at ih; simp [← ih]
        · next piece later h => simp [h] at ih; simp [ih]

namespace Text

def dropLineEnd (piece : Text) : Text :=
  match piece.reverse with
  | '\n' :: '\r' :: rest => rest.reverse
  | '\n' :: rest => rest.reverse
  | _ => piece

def lines (t : Text) : List Text := (cutAfter (· == '\n') t).map dropLineEnd

end Text

end LineShell
