import LineShell.Text.Blank
import LineShell.Text.Lines
import Mathlib.Data.List.Basic

/-!
# Cutting and trimming

What follows an ended line has no part in it, and the line is what stands before its end, but for a
carriage return that stood last.  White space around a text is trimmed with that of the text.
-/

namespace LineShell

theorem cutAfter_append {α : Type} {isBreak : α → Bool} {l : List α}
    (h : ∀ a ∈ l, isBreak a = false) {b : α} (hb : isBreak b = true) (rest : List α) :
    cutAfter isBreak (l ++ b :: rest) = (l ++ [b]) :: cutAfter isBreak rest := by
  induction l with
  | nil => simp [cutAfter, hb]
  | cons a l ih =>
      have hl : ∀ x ∈ l, isBreak x = false := fun x hx => h x (List.mem_cons_of_mem a hx)
      simp [cutAfter, h a List.mem_cons_self, ih hl]

theorem cutAfter_append_break {α : Type} {isBreak : α → Bool} (l : List α) {b : α}
    (hb : isBreak b = true) (rest : List α) :
    cutAfter isBreak (l ++ b :: rest) = cutAfter isBreak (l ++ [b]) ++ cutAfter isBreak rest := by
  induction l with
  | nil => simp [cutAfter, hb]
  | cons a l ih =>
      rw [List.cons_append, List.cons_append, cutAfter, cutAfter, ih]
      split
      · rfl
      · have hne : cutAfter isBreak (l ++ [b]) ≠ [] := by
          intro hnil
          have hflat := flatten_cutAfter isBreak (l ++ [b])
          rw [hnil] at hflat
          simp at hflat
        cases hcut : cutAfter isBreak (l ++ [b]) with
        | nil => exact absurd hcut hne
        | cons piece later => rfl

theorem cutAfter_of_not_break {α : Type} {isBreak : α → Bool} {l : List α}
    (h : ∀ a ∈ l, isBreak a = false) (hne : l ≠ []) : cutAfter isBreak l = [l] := by
  induction l with
  | nil => exact absurd rfl hne
  | cons a l ih =>
      have hl : ∀ x ∈ l, isBreak x = false := fun x hx => h x (List.mem_cons_of_mem a hx)
      rw [cutAfter, h a List.mem_cons_self]
      cases l with
      | nil => rfl
      | cons c l => simp [ih hl (List.cons_ne_nil c l)]

/-- What holds of nothing, of a rest without a break, and of an ended line before whatever it holds
of, holds of all. -/
theorem byBreaks {α : Type} [DecidableEq α] (b : α) {P : List α → Prop} (nil : P [])
    (last : ∀ l, l ≠ [] → b ∉ l → P l) (ended : ∀ l rest, b ∉ l → P rest → P (l ++ b :: rest))
    (l : List α) : P l := by
  induction hlength : l.length using Nat.strongRecOn generalizing l with
  | ind length ih =>
      by_cases hmem : b ∈ l
      · obtain ⟨line, rest, rfl, hline⟩ := List.eq_append_cons_of_mem hmem
        have hshorter : rest.length < length := by
          rw [← hlength, List.length_append, List.length_cons]
          omega
        exact ended line rest hline (ih rest.length hshorter rest rfl)
      · by_cases hne : l = []
        · rw [hne]
          exact nil
        · exact last l hne hmem

theorem beq_eq_false_of_not_mem {α : Type} [DecidableEq α] {b : α} {l : List α} (h : b ∉ l) :
    ∀ a ∈ l, (a == b) = false :=
  fun _ ha => beq_eq_false_iff_ne.mpr fun heq => h (heq ▸ ha)

namespace Text

variable {t p q : Text}

/-! ## Lines -/

theorem lines_append (h : '\n' ∉ t) (rest : Text) :
    lines (t ++ '\n' :: rest) = dropLineEnd (t ++ ['\n']) :: lines rest := by
  unfold lines
  rw [cutAfter_append (beq_eq_false_of_not_mem h) (beq_self_eq_true '\n'), List.map_cons]

def Whole (t : Text) : Prop := t = [] ∨ t.getLast? = some '\n'

theorem Whole.lines_append (h : Whole t) (rest : Text) :
    lines (t ++ rest) = lines t ++ lines rest := by
  rcases h with rfl | hlast
  · rfl
  · obtain ⟨front, rfl⟩ := List.getLast?_eq_some_iff.mp hlast
    have hcut := @cutAfter_append_break Char (· == '\n') front _ (beq_self_eq_true '\n') rest
    unfold lines
    rw [List.append_assoc, List.singleton_append, hcut, List.map_append]

theorem dropLineEnd_return (t : Text) : dropLineEnd (t ++ ['\r', '\n']) = t := by
  simp [dropLineEnd]

theorem dropLineEnd_newline (t : Text) :
    t = dropLineEnd (t ++ ['\n']) ∨ t = dropLineEnd (t ++ ['\n']) ++ ['\r'] := by
  rcases List.eq_nil_or_concat t with rfl | ⟨init, c, rfl⟩
  · exact .inl rfl
  · by_cases hc : c = '\r'
    · right
      simp [dropLineEnd, hc]
    · left
      simp [dropLineEnd, hc]

/-! ## Trimming -/

theorem trimStart_append (hp : ∀ c ∈ p, isBlank c = true) (t : Text) :
    trimStart (p ++ t) = trimStart t :=
  List.dropWhile_append_of_pos hp

theorem trimEnd_append (t : Text) (hq : ∀ c ∈ q, isBlank c = true) :
    trimEnd (t ++ q) = trimEnd t := by
  unfold trimEnd
  rw [List.reverse_append, List.dropWhile_append_of_pos]
  intro c hc
  exact hq c (List.mem_reverse.mp hc)

theorem trimStart_of_blank (hp : ∀ c ∈ p, isBlank c = true) : trimStart p = [] := by
  have := trimStart_append hp []
  rwa [List.append_nil] at this

theorem trimStart_cons {c : Char} (hc : isBlank c = false) (t : Text) :
    trimStart (c :: t) = c :: t := by
  simp [trimStart, hc]

theorem trimEnd_of_last (h : ∀ c ∈ t.getLast?, isBlank c = false) : trimEnd t = t := by
  rcases List.eq_nil_or_concat t with rfl | ⟨init, c, rfl⟩
  · rfl
  · have hc : isBlank c = false := h c (by simp)
    simp [trimEnd, hc]

theorem trimStart_append_blank (t : Text) (hq : ∀ c ∈ q, isBlank c = true) :
    trimStart (t ++ q) = trimStart t ++ q ∨ trimStart (t ++ q) = [] ∧ trimStart t = [] := by
  induction t with
  | nil => exact .inr ⟨trimStart_of_blank hq, rfl⟩
  | cons c t ih =>
      cases hc : isBlank c with
      | true => simpa [trimStart, hc] using ih
      | false =>
          left
          rw [List.cons_append, trimStart_cons hc, trimStart_cons hc, List.cons_append]

theorem trim_append (t : Text) (hq : ∀ c ∈ q, isBlank c = true) : trim (t ++ q) = trim t := by
  unfold trim
  rcases trimStart_append_blank t hq with h | ⟨h, ht⟩
  · rw [h, trimEnd_append _ hq]
  · rw [h, ht]

theorem trim_surround (hp : ∀ c ∈ p, isBlank c = true) (t : Text)
    (hq : ∀ c ∈ q, isBlank c = true) : trim (p ++ t ++ q) = trim t := by
  rw [trim_append _ hq]
  unfold trim
  rw [trimStart_append hp]

end Text

end LineShell
