import LineShell.Proofs.Interpreter.Lines
import LineShell.Proofs.Text.Decoding
import LineShell.Proofs.Text.Replacement

/-!
# Reading to the end

Standard input is read line by line until there is none left, each line decoded by itself.  That
gives the lines of the text that all the octets together are read as: no line is lost, and no
character is, also where a newline breaks one off.
-/

namespace LineShell

open Source (newline)

namespace Text

/-- The lines of a text.  A newline ends a line, with one carriage return in front of it; what
follows the last newline is a line unless it is empty. -/
inductive Lined : Text → List Text → Prop
  | done : Lined [] []
  | last {line : Text} (hne : line ≠ []) (hline : '\n' ∉ line) : Lined line [line]
  | ended {line rest : Text} {lines : List Text} (hline : '\n' ∉ line)
      (hend : line.getLast? ≠ some '\r') (hrest : Lined rest lines) :
      Lined (line ++ '\n' :: rest) (line :: lines)
  | returned {line rest : Text} {lines : List Text} (hline : '\n' ∉ line)
      (hrest : Lined rest lines) : Lined (line ++ '\r' :: '\n' :: rest) (line :: lines)

theorem lines_of_not_mem {line : Text} (hne : line ≠ []) (hline : '\n' ∉ line) :
    lines line = [line] := by
  have hkept : dropLineEnd line = line := by
    unfold dropLineEnd
    split
    · next hreverse => exact absurd (List.mem_reverse.mp (hreverse ▸ List.mem_cons_self)) hline
    · next hreverse => exact absurd (List.mem_reverse.mp (hreverse ▸ List.mem_cons_self)) hline
    · rfl
  rw [lines, cutAfter_of_not_break (beq_eq_false_of_not_mem hline) hne, List.map_singleton, hkept]

theorem dropLineEnd_of_getLast? {line : Text} (hend : line.getLast? ≠ some '\r') :
    dropLineEnd (line ++ ['\n']) = line := by
  rcases dropLineEnd_newline line with hline | hline
  · exact hline.symm
  · exact absurd (by rw [hline]; simp) hend

theorem Lined.lines_eq {t : Text} {ls : List Text} (h : Lined t ls) : lines t = ls := by
  induction h with
  | done => rfl
  | last hne hline => exact lines_of_not_mem hne hline
  | ended hline hend _ ih => rw [lines_append hline, dropLineEnd_of_getLast? hend, ih]
  | @returned line rest ls hline _ ih =>
      have hreturn : '\n' ∉ line ++ ['\r'] := by
        simpa using hline
      rw [List.append_cons, lines_append hreturn, List.append_assoc, List.singleton_append,
        dropLineEnd_return, ih]

theorem exists_lined (t : Text) : ∃ ls, Lined t ls := by
  induction t using byBreaks '\n' with
  | nil => exact ⟨[], .done⟩
  | last line hne hline => exact ⟨[line], .last hne hline⟩
  | ended line rest hline ih =>
      obtain ⟨ls, hrest⟩ := ih
      by_cases hend : line.getLast? = some '\r'
      · obtain ⟨front, rfl⟩ := List.getLast?_eq_some_iff.mp hend
        rw [List.append_assoc]
        exact ⟨_, .returned (fun h => hline (List.mem_append_left _ h)) hrest⟩
      · exact ⟨_, .ended hline hend hrest⟩

theorem lined_iff {t : Text} {ls : List Text} : Lined t ls ↔ lines t = ls := by
  constructor
  · exact Lined.lines_eq
  · rintro rfl
    obtain ⟨ls, hls⟩ := exists_lined t
    rw [hls.lines_eq]
    exact hls

end Text

namespace Source

inductive Answers (prompt : Text) : Source → Host → List Text → Prop
  | done {src src' : Source} {h k : Host} (hread : src.readLine prompt h = (.ok none, src', k)) :
      Answers prompt src h []
  | line {src src' : Source} {h k : Host} {line : Text} {lines : List Text}
      (hread : src.readLine prompt h = (.ok (some line), src', k))
      (hrest : Answers prompt src' k lines) : Answers prompt src h (line :: lines)

variable {prompt : Text} {h : Host} {data : Bytes} {lines : List Text}

theorem readLine_input_ok {line? : Option Text} {src : Source} {k : Host}
    (hread : (input data).readLine prompt h = (.ok line?, src, k)) :
    line? = (inputLines data).head? ∧
      ∃ rest, src = input rest ∧ inputLines rest = (inputLines data).tail := by
  rcases hshown : printPrompt h prompt with ⟨e | _, shown⟩
  · simp only [readLine, hshown] at hread
    cases hread
  · obtain ⟨rest, hread', hrest⟩ := readLine_of_printPrompt hshown data
    rw [hread] at hread'
    cases hread'
    exact ⟨rfl, rest, rfl, hrest⟩

theorem Answers.eq_inputLines (ha : Answers prompt (input data) h lines) :
    lines = inputLines data := by
  generalize hsrc : input data = src at ha
  induction ha generalizing data with
  | done hread =>
      rw [← hsrc] at hread
      obtain ⟨hnone, -⟩ := readLine_input_ok hread
      exact (List.head?_eq_none_iff.mp hnone.symm).symm
  | line hread _ ih =>
      rw [← hsrc] at hread
      obtain ⟨hfirst, rest, rfl, htail⟩ := readLine_input_ok hread
      rw [ih rfl, htail, List.cons_head?_tail hfirst.symm]

theorem answers_inputLines (hroom : ¬ h.OnFull) :
    Answers prompt (input data) h (inputLines data) := by
  generalize hlines : inputLines data = lines
  induction lines generalizing data h with
  | nil =>
      obtain ⟨rest, k, hread, -⟩ := readLine_input hroom prompt data
      rw [hlines] at hread
      exact .done hread
  | cons line lines ih =>
      obtain ⟨rest, k, hread, hrest⟩ := readLine_input hroom prompt data
      have hroom' := Host.kept_not_onFull.readLine hroom prompt (input data)
      rw [hread] at hroom'
      rw [hlines] at hread hrest
      exact .line hread (ih hroom' hrest)

theorem forall₂_decodes_iff {pieces : List Bytes} {texts : List Text} :
    List.Forall₂ Utf8.Decodes pieces texts ↔ texts = pieces.map Utf8.decodeLossy := by
  constructor
  · intro h
    induction h with
    | nil => rfl
    | cons hpiece _ ih => rw [List.map_cons, Utf8.decodes_iff.mp hpiece, ih]
  · rintro rfl
    induction pieces with
    | nil => exact .nil
    | cons piece pieces ih => exact .cons (Utf8.decodes_iff.mpr rfl) ih

/-- Octets are read as one text, which is also what the pieces up to each newline are read as one by
one, and what standard input answers until nothing is left are the lines of that text. -/
theorem answers_iff_lined (prompt : Text) (h : Host) (data : Bytes) :
    (∃! text, Utf8.Decodes data text) ∧
      (∀ text, Utf8.Decodes data text ↔
        ∃ texts, List.Forall₂ Utf8.Decodes (cutAfter (· == newline) data) texts ∧
          texts.flatten = text) ∧
      (∀ lines, Answers prompt (input data) h lines →
        ∃ text, Utf8.Decodes data text ∧ Text.Lined text lines) ∧
      (¬ h.OnFull → ∀ text lines, Utf8.Decodes data text → Text.Lined text lines →
        Answers prompt (input data) h lines) := by
  refine ⟨⟨_, Utf8.decodes_iff.mpr rfl, fun text => Utf8.decodes_iff.mp⟩, fun text => ?_,
    fun lines ha => ?_, fun hroom text lines htext hlines => ?_⟩
  · simp only [forall₂_decodes_iff, exists_eq_left, flatten_decodeLossy_cutAfter,
      Utf8.decodes_iff]
    exact eq_comm
  · refine ⟨_, Utf8.decodes_iff.mpr rfl, Text.lined_iff.mpr ?_⟩
    rw [ha.eq_inputLines, inputLines_eq_lines]
  · rw [Utf8.decodes_iff.mp htext, Text.lined_iff, ← inputLines_eq_lines] at hlines
    rw [← hlines]
    exact answers_inputLines hroom

theorem answers_iff_lined_broken :
    let h := Host.start FileTree.bare Place.root
    let data : Bytes := [0x61, 0x0D, 0x0A, 0xE2, 0x82, 0x0A, 0xED, 0xA0, 0x28, 0x0D]
    let text := "a\r\n\uFFFD\n\uFFFD\uFFFD(\r".toList
    let lines := ["a".toList, "\uFFFD".toList, "\uFFFD\uFFFD(\r".toList]
    (¬ h.OnFull ∧ Utf8.Decodes data text ∧ Text.Lined text lines) ∧
      Answers "$ ".toList (input data) h lines ∧
      ∃ texts, List.Forall₂ Utf8.Decodes (cutAfter (· == newline) data) texts ∧
        texts.flatten = text := by
  intro h data text lines
  have hout : h.OnTerminal .stdout := rfl
  have htext : Utf8.Decodes data text := Utf8.decodes_iff.mpr (by decide +kernel)
  have hlines : Text.Lined text lines := Text.lined_iff.mpr (by decide +kernel)
  obtain ⟨-, hpieces, -, hanswers⟩ := answers_iff_lined "$ ".toList h data
  exact ⟨⟨hout.not_onFull, htext, hlines⟩, hanswers hout.not_onFull text lines htext hlines,
    (hpieces text).mp htext⟩

end Source

end LineShell
