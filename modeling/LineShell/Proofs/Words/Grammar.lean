import LineShell.Words
import Mathlib.Data.List.ReduceOption

/-!
# The grammar of words

A line is a sequence of separators and pieces, and a tail where its end cuts a quotation or an
escape short.  There is one such decomposition of every line, and the scanner returns what the
pieces between two separators stand for.
-/

namespace LineShell.Words

inductive Item where
  | plain (c : Char) (h : c ≠ '"' ∧ c ≠ '\\')
  | pair (c : Char)
  deriving DecidableEq

namespace Item

def text : Item → Text
  | plain c _ => [c]
  | pair c => ['\\', c]

/-- A backslash in double quotes gives way to a double quote or a backslash only. -/
def value : Item → Text
  | plain c _ => [c]
  | pair c => if c = '"' ∨ c = '\\' then [c] else ['\\', c]

end Item

inductive Piece where
  | bare (c : Char) (h : c ≠ ' ' ∧ c ≠ '\'' ∧ c ≠ '"' ∧ c ≠ '\\')
  | escaped (c : Char)
  | single (run : Text) (h : '\'' ∉ run)
  | double (items : List Item)
  deriving DecidableEq

namespace Piece

def text : Piece → Text
  | bare c _ => [c]
  | escaped c => ['\\', c]
  | single run _ => '\'' :: run ++ ['\'']
  | double items => '"' :: items.flatMap Item.text ++ ['"']

def value : Piece → Text
  | bare c _ => [c]
  | escaped c => [c]
  | single run _ => run
  | double items => items.flatMap Item.value

end Piece

/-- A separator is a space that is neither quoted nor escaped. -/
inductive Element where
  | separator
  | piece (p : Piece)
  deriving DecidableEq

namespace Element

def text : Element → Text
  | separator => [' ']
  | piece p => p.text

def value? : Element → Option Text
  | separator => none
  | piece p => some p.value

end Element

def lastBackslash (present : Bool) : Text := if present then ['\\'] else []

inductive Tail where
  | backslash
  | single (run : Text) (h : '\'' ∉ run)
  | double (items : List Item) (backslash : Bool)
  deriving DecidableEq

namespace Tail

def text : Tail → Text
  | backslash => ['\\']
  | single run _ => '\'' :: run
  | double items last => '"' :: items.flatMap Item.text ++ lastBackslash last

def value : Tail → Text
  | backslash => []
  | single run _ => run
  | double items last => items.flatMap Item.value ++ lastBackslash last

end Tail

structure Decomposition where
  elements : List Element
  tail : Option Tail
  deriving DecidableEq

def fields (parts : List (Option Text)) : List Text :=
  (parts.splitOnP Option.isNone).map fun part => part.reduceOption.flatten

namespace Decomposition

def text (d : Decomposition) : Text :=
  d.elements.flatMap Element.text ++ (d.tail.map Tail.text).getD []

def parts (d : Decomposition) : List (Option Text) :=
  d.elements.map Element.value? ++ (d.tail.map fun t => some t.value).toList

def words (d : Decomposition) : List Text := (fields d.parts).filter (· ≠ [])

end Decomposition

/-! ## Scanning a decomposition -/

def prepend (t : Text) (scanned : Text × List Text) : Text × List Text :=
  (t ++ scanned.1, scanned.2)

@[simp] theorem prepend_nil (scanned : Text × List Text) : prepend [] scanned = scanned := rfl

@[simp] theorem prepend_prepend (t u : Text) (scanned : Text × List Text) :
    prepend t (prepend u scanned) = prepend (t ++ u) scanned := by
  simp [prepend]

theorem push_eq_prepend (c : Char) (scanned : Text × List Text) :
    push c scanned = prepend [c] scanned := rfl

theorem scan_single_run {run : Text} (h : '\'' ∉ run) (rest : Text) :
    scan .single (run ++ '\'' :: rest) = prepend run (scan .bare rest) := by
  induction run with
  | nil => simp [scan]
  | cons c run ih =>
      simp only [List.mem_cons, not_or] at h
      simp [scan, Ne.symm h.1, ih h.2, push_eq_prepend]

theorem scan_single_unclosed {run : Text} (h : '\'' ∉ run) : scan .single run = (run, []) := by
  induction run with
  | nil => simp [scan]
  | cons c run ih =>
      simp only [List.mem_cons, not_or] at h
      simp [scan, Ne.symm h.1, ih h.2, push]

theorem scan_item (item : Item) (rest : Text) :
    scan .double (item.text ++ rest) = prepend item.value (scan .double rest) := by
  cases item with
  | plain c h => simp [Item.text, Item.value, scan, h, push_eq_prepend]
  | pair c =>
      by_cases hq : c = '"'
      · simp [Item.text, Item.value, scan, hq, push_eq_prepend]
      · by_cases hb : c = '\\'
        · simp [Item.text, Item.value, scan, hb, push_eq_prepend]
        · simp [Item.text, Item.value, scan, hq, hb, push_eq_prepend]

theorem scan_items (items : List Item) (rest : Text) :
    scan .double (items.flatMap Item.text ++ rest) =
      prepend (items.flatMap Item.value) (scan .double rest) := by
  induction items with
  | nil => simp
  | cons item items ih => simp [List.append_assoc, scan_item, ih]

theorem scan_piece (p : Piece) (rest : Text) :
    scan .bare (p.text ++ rest) = prepend p.value (scan .bare rest) := by
  cases p with
  | bare c h => exact scan_bare_cons h rest
  | escaped c => simp [Piece.text, Piece.value, scan, push_eq_prepend]
  | single run h =>
      simpa [Piece.text, Piece.value, scan] using scan_single_run h rest
  | double items =>
      have hrun := scan_items items ('"' :: rest)
      simpa [Piece.text, Piece.value, scan] using hrun

theorem scan_tail (t : Tail) : scan .bare t.text = (t.value, []) := by
  cases t with
  | backslash => simp [Tail.text, Tail.value, scan]
  | single run h => simpa [Tail.text, Tail.value, scan] using scan_single_unclosed h
  | double items last =>
      have hrun := scan_items items (lastBackslash last)
      cases last <;> simpa [Tail.text, Tail.value, scan, lastBackslash, prepend] using hrun

@[simp] theorem fields_nil : fields [] = [[]] := rfl

@[simp] theorem fields_none_cons (parts : List (Option Text)) :
    fields (none :: parts) = [] :: fields parts := by
  simp [fields, List.splitOnP_cons_eq_if_modifyHead]

theorem fields_ne_nil (parts : List (Option Text)) : fields parts ≠ [] := by
  simp [fields]

@[simp] theorem fields_some_cons (t : Text) (parts : List (Option Text)) :
    fields (some t :: parts) = (fields parts).modifyHead (t ++ ·) := by
  simp only [fields, List.splitOnP_cons_eq_if_modifyHead, Option.isNone_some, Bool.false_eq_true,
    if_false]
  cases h : parts.splitOnP Option.isNone with
  | nil => exact absurd h (List.splitOnP_ne_nil _ _)
  | cons part later => simp [List.reduceOption_cons_of_some]

def readFields (fs : List Text) : Text × List Text := (fs.headD [], fs.tail.filter (· ≠ []))

theorem close_readFields {fs : List Text} (h : fs ≠ []) :
    close (readFields fs) = fs.filter (· ≠ []) := by
  cases fs with
  | nil => exact absurd rfl h
  | cons field later => cases field <;> simp [readFields, close]

theorem readFields_modifyHead {fs : List Text} (h : fs ≠ []) (t : Text) :
    readFields (fs.modifyHead (t ++ ·)) = prepend t (readFields fs) := by
  cases fs with
  | nil => exact absurd rfl h
  | cons field later => simp [readFields, prepend]

theorem scan_text (d : Decomposition) : scan .bare d.text = readFields (fields d.parts) := by
  obtain ⟨elements, tail⟩ := d
  induction elements with
  | nil =>
      cases tail with
      | none => simp [Decomposition.text, Decomposition.parts, scan, readFields]
      | some t => simp [Decomposition.text, Decomposition.parts, scan_tail, readFields]
  | cons e elements ih =>
      simp only [Decomposition.text, Decomposition.parts] at ih
      cases e with
      | separator =>
          simp only [Decomposition.text, Decomposition.parts, List.flatMap_cons, Element.text,
            List.cons_append, List.nil_append, List.map_cons, Element.value?, fields_none_cons,
            scan, ih, close_readFields (fields_ne_nil _)]
          rfl
      | piece p =>
          simp only [Decomposition.text, Decomposition.parts, List.flatMap_cons, Element.text,
            List.append_assoc, List.cons_append, List.map_cons, Element.value?, fields_some_cons,
            scan_piece, ih, readFields_modifyHead (fields_ne_nil _)]

theorem ofLine_text (d : Decomposition) : ofLine d.text = d.words := by
  rw [ofLine, scan_text, close_readFields (fields_ne_nil _), Decomposition.words]

end LineShell.Words
