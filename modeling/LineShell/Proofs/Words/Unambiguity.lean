import LineShell.Proofs.Words.Grammar
import Mathlib.Logic.ExistsUnique

/-!
# One decomposition of each line

Elements can be told apart by their first characters, and each ends where its own text says so.
The texts of a double-quoted run end at a quote or with the line, and so the line determines its
decomposition.
-/

namespace LineShell.Words

inductive RunEnd where
  | closed (rest : Text)
  | unclosed (backslash : Bool)
  deriving DecidableEq

def RunEnd.text : RunEnd → Text
  | closed rest => '"' :: rest
  | unclosed last => lastBackslash last

theorem exists_items :
    ∀ t : Text, ∃ (items : List Item) (e : RunEnd), t = items.flatMap Item.text ++ e.text
  | [] => ⟨[], .unclosed false, rfl⟩
  | ['\\'] => ⟨[], .unclosed true, rfl⟩
  | '\\' :: c :: rest => by
      obtain ⟨items, e, h⟩ := exists_items rest
      exact ⟨.pair c :: items, e, by simp [Item.text, h]⟩
  | c :: rest => by
      by_cases hq : c = '"'
      · exact ⟨[], .closed rest, by simp [RunEnd.text, hq]⟩
      · by_cases hb : c = '\\'
        · cases rest with
          | nil => exact ⟨[], .unclosed true, by simp [RunEnd.text, lastBackslash, hb]⟩
          | cons d rest =>
              obtain ⟨items, e, h⟩ := exists_items rest
              exact ⟨.pair d :: items, e, by simp [Item.text, hb, h]⟩
        · obtain ⟨items, e, h⟩ := exists_items rest
          exact ⟨.plain c ⟨hq, hb⟩ :: items, e, by simp [Item.text, h]⟩

theorem text_runEnd_ne (e : RunEnd) (item : Item) (t : Text) : e.text ≠ item.text ++ t := by
  cases item with
  | plain c h =>
      cases e with
      | closed rest => simp [RunEnd.text, Item.text, Ne.symm h.1]
      | unclosed last => cases last <;> simp [RunEnd.text, lastBackslash, Item.text, Ne.symm h.2]
  | pair c =>
      cases e with
      | closed rest => simp [RunEnd.text, Item.text]
      | unclosed last => cases last <;> simp [RunEnd.text, lastBackslash, Item.text]

theorem text_item_inj {item item' : Item} {t t' : Text}
    (h : item.text ++ t = item'.text ++ t') : item = item' ∧ t = t' := by
  cases item with
  | plain c hc =>
      cases item' with
      | plain c' hc' => simpa [Item.text] using h
      | pair c' => exact absurd (List.cons.inj h).1 hc.2
  | pair c =>
      cases item' with
      | plain c' hc' => exact absurd (List.cons.inj h).1.symm hc'.2
      | pair c' => simpa [Item.text] using h

theorem text_runEnd_inj {e e' : RunEnd} (h : e.text = e'.text) : e = e' := by
  cases e with
  | closed rest =>
      cases e' with
      | closed rest' => simpa [RunEnd.text] using h
      | unclosed last => cases last <;> simp [RunEnd.text, lastBackslash] at h
  | unclosed last =>
      cases e' with
      | closed rest' => cases last <;> simp [RunEnd.text, lastBackslash] at h
      | unclosed last' =>
          cases last <;> cases last' <;> simp [RunEnd.text, lastBackslash] at h ⊢

/-- The items of a double-quoted run can be told from its text, and so can its end. -/
theorem text_items_inj {items items' : List Item} {e e' : RunEnd}
    (h : items.flatMap Item.text ++ e.text = items'.flatMap Item.text ++ e'.text) :
    items = items' ∧ e = e' := by
  induction items generalizing items' with
  | nil =>
      cases items' with
      | nil => exact ⟨rfl, text_runEnd_inj h⟩
      | cons item' items' =>
          refine absurd ?_ (text_runEnd_ne e item' (items'.flatMap Item.text ++ e'.text))
          simpa using h
  | cons item items ih =>
      cases items' with
      | nil =>
          refine absurd ?_ (text_runEnd_ne e' item (items.flatMap Item.text ++ e.text))
          simpa using h.symm
      | cons item' items' =>
          simp only [List.flatMap_cons, List.append_assoc] at h
          obtain ⟨rfl, hrest⟩ := text_item_inj h
          obtain ⟨rfl, rfl⟩ := ih hrest
          exact ⟨rfl, rfl⟩

theorem text_element_ne_nil (e : Element) : e.text ≠ [] := by
  cases e with
  | separator => simp [Element.text]
  | piece p => cases p <;> simp [Element.text, Piece.text]

theorem text_tail_ne_nil (t : Tail) : t.text ≠ [] := by
  cases t <;> simp [Tail.text]

theorem append_quote_inj {run run' t t' : Text} (h : '\'' ∉ run) (h' : '\'' ∉ run')
    (heq : run ++ '\'' :: t = run' ++ '\'' :: t') : run = run' ∧ t = t' := by
  have hsplit := Text.splitFirst?_append t h
  rw [heq, Text.splitFirst?_append t' h'] at hsplit
  simpa [eq_comm] using hsplit

theorem text_piece_inj {p p' : Piece} {t t' : Text} (h : p.text ++ t = p'.text ++ t') :
    p = p' ∧ t = t' := by
  cases p with
  | bare c hc =>
      cases p' with
      | bare c' hc' => simpa [Piece.text] using h
      | _ => grind [Piece.text]
  | escaped c =>
      cases p' with
      | escaped c' => simpa [Piece.text] using h
      | _ => grind [Piece.text]
  | single run hr =>
      cases p' with
      | single run' hr' =>
          have hrun : run ++ '\'' :: t = run' ++ '\'' :: t' := by simpa [Piece.text] using h
          obtain ⟨rfl, rfl⟩ := append_quote_inj hr hr' hrun
          exact ⟨rfl, rfl⟩
      | _ => grind [Piece.text]
  | double items =>
      cases p' with
      | double items' =>
          have hrun : items.flatMap Item.text ++ (RunEnd.closed t).text =
              items'.flatMap Item.text ++ (RunEnd.closed t').text := by
            simpa [Piece.text, RunEnd.text] using h
          obtain ⟨rfl, hend⟩ := text_items_inj hrun
          exact ⟨rfl, RunEnd.closed.inj hend⟩
      | _ => grind [Piece.text]

theorem text_element_inj {e e' : Element} {t t' : Text} (h : e.text ++ t = e'.text ++ t') :
    e = e' ∧ t = t' := by
  cases e with
  | separator =>
      cases e' with
      | separator => simpa [Element.text] using h
      | piece p' => cases p' <;> grind [Element.text, Piece.text]
  | piece p =>
      cases e' with
      | separator => cases p <;> grind [Element.text, Piece.text]
      | piece p' =>
          obtain ⟨rfl, rfl⟩ := text_piece_inj h
          exact ⟨rfl, rfl⟩

theorem text_tail_ne (t : Tail) (e : Element) (rest : Text) : t.text ≠ e.text ++ rest := by
  intro h
  cases e with
  | separator => cases t <;> simp [Tail.text, Element.text] at h
  | piece p =>
      cases t with
      | backslash => cases p <;> grind [Tail.text, Element.text, Piece.text]
      | single run hr =>
          cases p with
          | single run' hr' =>
              have hrun : run = run' ++ '\'' :: rest := by
                simpa [Tail.text, Element.text, Piece.text] using h
              exact hr (by simp [hrun])
          | _ => grind [Tail.text, Element.text, Piece.text]
      | double items last =>
          cases p with
          | double items' =>
              have hrun : items.flatMap Item.text ++ (RunEnd.unclosed last).text =
                  items'.flatMap Item.text ++ (RunEnd.closed rest).text := by
                simpa [Tail.text, Element.text, Piece.text, RunEnd.text] using h
              exact RunEnd.noConfusion (text_items_inj hrun).2
          | _ => grind [Tail.text, Element.text, Piece.text]

theorem text_tail_inj {t t' : Tail} (h : t.text = t'.text) : t = t' := by
  cases t with
  | backslash => cases t' <;> simp_all [Tail.text]
  | single run hr => cases t' <;> simp_all [Tail.text]
  | double items last =>
      cases t' with
      | double items' last' =>
          have hrun : items.flatMap Item.text ++ (RunEnd.unclosed last).text =
              items'.flatMap Item.text ++ (RunEnd.unclosed last').text := by
            simpa [Tail.text, RunEnd.text] using h
          obtain ⟨rfl, hend⟩ := text_items_inj hrun
          rw [RunEnd.unclosed.inj hend]
      | _ => simp_all [Tail.text]

theorem text_optionTail_ne (tail : Option Tail) (e : Element) (rest : Text) :
    (tail.map Tail.text).getD [] ≠ e.text ++ rest := by
  cases tail with
  | none => simp [text_element_ne_nil]
  | some t => exact text_tail_ne t e rest

theorem text_inj {d d' : Decomposition} (h : d.text = d'.text) : d = d' := by
  obtain ⟨elements, tail⟩ := d
  obtain ⟨elements', tail'⟩ := d'
  induction elements generalizing elements' with
  | nil =>
      cases elements' with
      | nil =>
          cases tail with
          | none => cases tail' <;> simp_all [Decomposition.text, text_tail_ne_nil]
          | some t =>
              cases tail' with
              | none => simp_all [Decomposition.text, text_tail_ne_nil]
              | some t' =>
                  have ht : t = t' := text_tail_inj (by simpa [Decomposition.text] using h)
                  rw [ht]
      | cons e' elements' =>
          exact absurd (by simpa [Decomposition.text] using h) (text_optionTail_ne tail e' _)
  | cons e elements ih =>
      cases elements' with
      | nil =>
          exact absurd (by simpa [Decomposition.text] using h.symm) (text_optionTail_ne tail' e _)
      | cons e' elements' =>
          simp only [Decomposition.text, List.flatMap_cons, List.append_assoc] at h
          obtain ⟨rfl, hrest⟩ := text_element_inj h
          have heq := ih elements' hrest
          cases heq
          rfl

theorem exists_element {line : Text} (h : line ≠ []) :
    (∃ (e : Element) (rest : Text), line = e.text ++ rest) ∨ ∃ t : Tail, line = t.text := by
  cases line with
  | nil => exact absurd rfl h
  | cons c rest =>
      by_cases hspace : c = ' '
      · exact .inl ⟨.separator, rest, by simp [Element.text, hspace]⟩
      · by_cases hback : c = '\\'
        · cases rest with
          | nil => exact .inr ⟨.backslash, by simp [Tail.text, hback]⟩
          | cons d rest =>
              exact .inl ⟨.piece (.escaped d), rest, by simp [Element.text, Piece.text, hback]⟩
        · by_cases hsingle : c = '\''
          · by_cases hclosed : '\'' ∈ rest
            · obtain ⟨run, later, rfl, hrun⟩ := List.eq_append_cons_of_mem hclosed
              exact .inl ⟨.piece (.single run hrun), later,
                by simp [Element.text, Piece.text, hsingle]⟩
            · exact .inr ⟨.single rest hclosed, by simp [Tail.text, hsingle]⟩
          · by_cases hdouble : c = '"'
            · obtain ⟨items, e, rfl⟩ := exists_items rest
              cases e with
              | closed later =>
                  exact .inl ⟨.piece (.double items), later,
                    by simp [Element.text, Piece.text, RunEnd.text, hdouble]⟩
              | unclosed last =>
                  exact .inr ⟨.double items last, by simp [Tail.text, RunEnd.text, hdouble]⟩
            · exact .inl ⟨.piece (.bare c ⟨hspace, hsingle, hdouble, hback⟩), rest,
                by simp [Element.text, Piece.text]⟩

theorem exists_text_eq (line : Text) : ∃ d : Decomposition, d.text = line := by
  by_cases hnil : line = []
  · exact ⟨⟨[], none⟩, by simp [Decomposition.text, hnil]⟩
  · rcases exists_element hnil with ⟨e, rest, hline⟩ | ⟨t, hline⟩
    · obtain ⟨d, hd⟩ := exists_text_eq rest
      exact ⟨⟨e :: d.elements, d.tail⟩, by rw [hline, ← hd]; simp [Decomposition.text]⟩
    · exact ⟨⟨[], some t⟩, by simp [Decomposition.text, hline]⟩
termination_by line.length
decreasing_by
  have hpos := List.length_pos_of_ne_nil (text_element_ne_nil e)
  rw [hline, List.length_append]
  omega

/-- A line has exactly one decomposition, and its words are those of that one. -/
theorem existsUnique_decomposition (line : Text) :
    (∃! d : Decomposition, d.text = line) ∧
      ∀ d : Decomposition, d.text = line → ofLine line = d.words := by
  obtain ⟨d, hd⟩ := exists_text_eq line
  refine ⟨⟨d, hd, fun d' hd' => text_inj (hd'.trans hd.symm)⟩, ?_⟩
  intro d' hd'
  rw [← hd', ofLine_text]

end LineShell.Words
