import LineShell.Config
import LineShell.Proofs.Dictionary
import LineShell.Proofs.Text.Lines

/-!
# Written settings

A configuration is written with one row for each setting, in any order, among comments and blank
rows.  A row may have white space before its key, between the key and the equals sign, and around
a value that is trimmed, and it ends in a newline or in a carriage return and a newline.  However
that is done, reading the text gives the configuration back.
-/

namespace LineShell

open Text

namespace EofPolicy

def text : EofPolicy → Text
  | exit => "exit".toList
  | proceed => "continue".toList

theorem ofText?_text (policy : EofPolicy) : ofText? policy.text = some policy := by
  cases policy <;> decide

theorem trim_text (policy : EofPolicy) : policy.text.trim = policy.text := by
  cases policy <;> decide

theorem text_inLine (policy : EofPolicy) : '\n' ∉ policy.text := by
  cases policy <;> decide

end EofPolicy

/-- A value that a line keeps as it stands.  Its line would lose a carriage return at its end. -/
structure Verbatim (value : Text) : Prop where
  inLine : '\n' ∉ value
  last : value.getLast? ≠ some '\r'

structure Nameable (name : Text) : Prop where
  inLine : '\n' ∉ name
  inKey : '=' ∉ name
  last : ∀ c ∈ name.getLast?, isBlank c = false
  unmarked : ¬ "env.".toList <+: name

structure Blanks where
  text : Text
  blank : ∀ c ∈ text, isBlank c = true
  inLine : '\n' ∉ text

/-- The white space of a row: before the key, between the key and the equals sign, and on both sides
of a value that is trimmed. -/
structure Spacing where
  before : Blanks
  between : Blanks
  left : Blanks
  right : Blanks

inductive LineEnd where
  | newline
  | returnNewline

def LineEnd.text : LineEnd → Text
  | newline => ['\n']
  | returnNewline => ['\r', '\n']

namespace Setting

def Writable : Setting → Prop
  | prompt value => Verbatim value
  | eof _ => True
  | log value => '\n' ∉ value ∧ value.trim = value
  | preset name value => Nameable name ∧ Verbatim value

def key : Setting → Text
  | prompt _ => "prompt".toList
  | eof _ => "eof".toList
  | log _ => "log".toList
  | preset name _ => "env.".toList ++ name

def writtenValue (spacing : Spacing) : Setting → Text
  | prompt value => value
  | eof policy => spacing.left.text ++ policy.text ++ spacing.right.text
  | log value => spacing.left.text ++ value ++ spacing.right.text
  | preset _ value => value

def text (spacing : Spacing) (s : Setting) : Text :=
  spacing.before.text ++ s.key ++ spacing.between.text ++ '=' :: s.writtenValue spacing

end Setting

inductive Row where
  | setting (s : Setting) (spacing : Spacing)
  | comment (before : Blanks) (remark : Text) (inLine : '\n' ∉ remark)
  | blank (content : Blanks)

namespace Row

def setting? : Row → Option Setting
  | setting s _ => some s
  | comment .. => none
  | blank _ => none

def text : Row → Text
  | setting s spacing => s.text spacing
  | comment before remark _ => before.text ++ '#' :: remark
  | blank content => content.text

end Row

namespace Config

def settings (c : Config) : List Setting :=
  [.prompt c.prompt, .eof c.eof, .log c.log] ++
    c.presets.entries.map fun (name, value) => .preset name value

structure Writable (c : Config) : Prop where
  prompt : Verbatim c.prompt
  log : '\n' ∉ c.log ∧ c.log.trim = c.log
  names : ∀ entry ∈ c.presets.entries, Nameable entry.1
  values : ∀ entry ∈ c.presets.entries, Verbatim entry.2

theorem Writable.setting {c : Config} (hc : c.Writable) {s : Setting} (hs : s ∈ c.settings) :
    s.Writable := by
  rcases List.mem_append.mp hs with hs | hs
  · simp only [List.mem_cons, List.not_mem_nil, or_false] at hs
    rcases hs with rfl | rfl | rfl
    · exact hc.prompt
    · trivial
    · exact hc.log
  · obtain ⟨entry, hentry, rfl⟩ := List.mem_map.mp hs
    exact ⟨hc.names entry hentry, hc.values entry hentry⟩

/-- Rows that say what a configuration is: one for each of its settings, in any order, and any
others that say nothing. -/
structure Sheet (c : Config) where
  rows : List (Row × LineEnd)
  complete : (rows.filterMap fun row => row.1.setting?).Perm c.settings

def written (rows : List (Row × LineEnd)) : Text :=
  rows.flatMap fun (row, lineEnd) => row.text ++ lineEnd.text

def Sheet.text {c : Config} (sheet : Sheet c) : Text := written sheet.rows

end Config

/-! ## What a line end leaves -/

def Left (line row : Text) : Prop := row = line ∨ row = line ++ ['\r']

namespace Left

variable {line row value rest : Text}

theorem of_lineEnd (row : Text) (lineEnd : LineEnd) :
    Left (dropLineEnd (row ++ lineEnd.text)) row := by
  cases lineEnd with
  | newline => exact dropLineEnd_newline row
  | returnNewline => exact .inl (dropLineEnd_return row).symm

theorem after_mark {mark : Char} (hmark : mark ≠ '\r') (h : Left line (rest ++ mark :: value)) :
    ∃ kept, line = rest ++ mark :: kept ∧ Left kept value := by
  rcases h with h | h
  · exact ⟨value, h.symm, .inl rfl⟩
  · -- the carriage return that was lost stood behind the mark, which is none itself
    rcases List.eq_nil_or_concat value with rfl | ⟨kept, c, rfl⟩
    · have hlast := congrArg List.getLast? h
      simp only [List.getLast?_append, List.getLast?_singleton, Option.some_or,
        Option.some.injEq] at hlast
      exact absurd hlast hmark
    · rw [List.concat_eq_append, ← List.cons_append, ← List.append_assoc] at h
      obtain ⟨hline, hc⟩ := List.append_inj' h rfl
      exact ⟨kept, hline.symm, .inr (by rw [List.concat_eq_append, hc])⟩

theorem eq_of_verbatim (h : Left line value) (hvalue : Verbatim value) : line = value := by
  rcases h with h | h
  · exact h.symm
  · exact absurd (by simp [h]) hvalue.last

theorem trim_eq (h : Left line value) : line.trim = value.trim := by
  rcases h with rfl | rfl
  · rfl
  · refine (trim_append line fun c hc => ?_).symm
    rw [List.mem_singleton.mp hc]
    decide

theorem trimStart_of_blank (h : Left line row) (hrow : ∀ c ∈ row, isBlank c = true) :
    line.trimStart = [] := by
  apply Text.trimStart_of_blank
  rcases h with rfl | rfl
  · exact hrow
  · exact fun c hc => hrow c (List.mem_append_left _ hc)

end Left

/-! ## Reading a row -/

namespace Setting

theorem unmarked_eq_self {name : Text} (h : ¬ "env.".toList <+: name) : unmarked name = name := by
  unfold unmarked
  split
  · next rest => exact absurd ⟨rest, rfl⟩ h
  · rfl

variable {s : Setting} {spacing : Spacing} {kept : Text}

theorem trim_key (hs : s.Writable) : s.key.trim = s.key := by
  cases s with
  | prompt value => exact (by decide : trim "prompt".toList = "prompt".toList)
  | eof policy => exact (by decide : trim "eof".toList = "eof".toList)
  | log value => exact (by decide : trim "log".toList = "log".toList)
  | preset name value =>
      have hlast : ∀ c ∈ ("env.".toList ++ name).getLast?, isBlank c = false := by
        intro c hc
        rw [List.getLast?_append] at hc
        cases hname : name.getLast? with
        | none =>
            rw [hname] at hc
            cases hc
            decide
        | some last =>
            rw [hname] at hc
            cases hc
            exact hs.1.last c hname
      exact trimEnd_of_last hlast

theorem ofKey_key (hs : s.Writable) (hkept : Left kept (s.writtenValue spacing)) :
    ofKey s.key kept = .ok s := by
  have hpadded (t : Text) : (spacing.left.text ++ t ++ spacing.right.text).trim = t.trim :=
    trim_surround spacing.left.blank t spacing.right.blank
  cases s with
  | prompt value =>
      have hvalue : kept = value := hkept.eq_of_verbatim hs
      change ofKey "prompt".toList kept = _
      rw [ofKey, if_pos rfl, hvalue]
  | eof policy =>
      have hvalue : kept.trim = policy.text := hkept.trim_eq.trans
        ((hpadded policy.text).trans policy.trim_text)
      change ofKey "eof".toList kept = _
      simp [ofKey, hvalue, policy.ofText?_text]
  | log value =>
      have hvalue : kept.trim = value := hkept.trim_eq.trans ((hpadded value).trans hs.2)
      change ofKey "log".toList kept = _
      simp [ofKey, hvalue]
  | preset name value =>
      have hvalue : kept = value := hkept.eq_of_verbatim hs.2
      have hname : unmarked ("env.".toList ++ name) = name := unmarked_eq_self hs.1.unmarked
      have hmarked : "env.".toList.isPrefixOf ("env.".toList ++ name) = true := by
        simp
      have hprompt : "env.".toList ++ name ≠ "prompt".toList := by
        simp
      have heof : "env.".toList ++ name ≠ "eof".toList := by
        simp
      have hlog : "env.".toList ++ name ≠ "log".toList := by
        simp
      change ofKey ("env.".toList ++ name) kept = _
      rw [ofKey, if_neg hprompt, if_neg heof, if_neg hlog, if_pos hmarked, hname, hvalue]

theorem first_key (s : Setting) : ∃ c rest, s.key = c :: rest ∧ isBlank c = false ∧ c ≠ '#' := by
  cases s with
  | prompt value => exact ⟨'p', "rompt".toList, rfl, by decide, by decide⟩
  | eof policy => exact ⟨'e', "of".toList, rfl, by decide, by decide⟩
  | log value => exact ⟨'l', "og".toList, rfl, by decide, by decide⟩
  | preset name value => exact ⟨'e', "nv.".toList ++ name, rfl, by decide, by decide⟩

theorem not_mem_key {c : Char} (hprompt : c ∉ "prompt".toList) (heof : c ∉ "eof".toList)
    (hlog : c ∉ "log".toList) (hmark : c ∉ "env.".toList)
    (hname : ∀ name value, s = .preset name value → c ∉ name) : c ∉ s.key := by
  cases s with
  | prompt value => exact hprompt
  | eof policy => exact heof
  | log value => exact hlog
  | preset name value => exact List.not_mem_append hmark (hname name value rfl)

theorem equals_not_mem_key (hs : s.Writable) : '=' ∉ s.key := by
  refine not_mem_key (by decide) (by decide) (by decide) (by decide) ?_
  rintro name value rfl
  exact hs.1.inKey

theorem newline_not_mem_writtenValue (hs : s.Writable) (spacing : Spacing) :
    '\n' ∉ s.writtenValue spacing := by
  have hpadded {t : Text} (ht : '\n' ∉ t) : '\n' ∉ spacing.left.text ++ t ++ spacing.right.text :=
    List.not_mem_append (List.not_mem_append spacing.left.inLine ht) spacing.right.inLine
  cases s with
  | prompt value => exact hs.inLine
  | eof policy => exact hpadded policy.text_inLine
  | log value => exact hpadded hs.1
  | preset name value => exact hs.2.inLine

theorem newline_not_mem_text (hs : s.Writable) (spacing : Spacing) : '\n' ∉ s.text spacing := by
  have hkey : '\n' ∉ s.key := by
    refine not_mem_key (by decide) (by decide) (by decide) (by decide) ?_
    rintro name value rfl
    exact hs.1.inLine
  have hvalue : '\n' ∉ '=' :: s.writtenValue spacing :=
    List.not_mem_cons_of_ne_of_not_mem (by decide) (newline_not_mem_writtenValue hs spacing)
  have hbefore := List.not_mem_append spacing.before.inLine hkey
  exact List.not_mem_append (List.not_mem_append hbefore spacing.between.inLine) hvalue

theorem ofLine_text (hs : s.Writable) {line : Text} (h : Left line (s.text spacing)) :
    ofLine line = .ok (some s) := by
  obtain ⟨value, rfl, hvalue⟩ := h.after_mark (by decide)
  obtain ⟨c, rest, hkey, hc, hmark⟩ := s.first_key
  have hstart : trimStart (spacing.before.text ++ s.key ++ spacing.between.text ++ '=' :: value) =
      c :: (rest ++ spacing.between.text ++ '=' :: value) := by
    rw [List.append_assoc, List.append_assoc, trimStart_append spacing.before.blank, hkey,
      List.cons_append, trimStart_cons hc, List.append_assoc]
  have hsplit : splitFirst? '=' (spacing.before.text ++ s.key ++ spacing.between.text ++
      '=' :: value) = some (spacing.before.text ++ s.key ++ spacing.between.text, value) := by
    apply splitFirst?_append
    simp only [List.mem_append, not_or]
    refine ⟨⟨fun h => ?_, equals_not_mem_key hs⟩, fun h => ?_⟩
    · exact absurd (spacing.before.blank _ h) (by decide)
    · exact absurd (spacing.between.blank _ h) (by decide)
  have htrim : trim (spacing.before.text ++ s.key ++ spacing.between.text) = s.key := by
    rw [trim_surround spacing.before.blank _ spacing.between.blank, trim_key hs]
  unfold ofLine
  rw [hstart]
  split
  · next heq => cases heq
  · next heq =>
      cases heq
      exact absurd rfl hmark
  · rw [hsplit]
    simp only [htrim, ofKey_key hs hvalue]
    rfl

end Setting

namespace Row

theorem newline_not_mem_text {row : Row} (hrow : ∀ s ∈ row.setting?, s.Writable) :
    '\n' ∉ row.text := by
  cases row with
  | setting s spacing => exact Setting.newline_not_mem_text (hrow s rfl) spacing
  | comment before remark hremark => simpa [text, before.inLine] using hremark
  | blank content => exact content.inLine

theorem ofLine_text {row : Row} (hrow : ∀ s ∈ row.setting?, s.Writable) {line : Text}
    (h : Left line row.text) : Setting.ofLine line = .ok row.setting? := by
  cases row with
  | setting s spacing => exact Setting.ofLine_text (hrow s rfl) h
  | comment before remark hremark =>
      obtain ⟨kept, rfl, -⟩ := h.after_mark (by decide)
      have hstart : trimStart (before.text ++ '#' :: kept) = '#' :: kept := by
        rw [trimStart_append before.blank, trimStart_cons (by decide)]
      simp only [Setting.ofLine, hstart]
      rfl
  | blank content =>
      simp only [Setting.ofLine, h.trimStart_of_blank content.blank]
      rfl

end Row

/-! ## Reading rows -/

theorem lines_lineEnd {row : Text} (h : '\n' ∉ row) (lineEnd : LineEnd) (rest : Text) :
    lines (row ++ lineEnd.text ++ rest) = dropLineEnd (row ++ lineEnd.text) :: lines rest := by
  cases lineEnd with
  | newline =>
      rw [LineEnd.text, List.append_assoc]
      exact lines_append h rest
  | returnNewline =>
      have hreturn : '\n' ∉ row ++ ['\r'] := by simpa using h
      have hlines := lines_append hreturn rest
      rw [List.append_assoc, List.append_assoc] at hlines
      rw [LineEnd.text, List.append_assoc]
      exact hlines

namespace Config

theorem applyLines_written (rows : List (Row × LineEnd))
    (hrows : ∀ s ∈ rows.filterMap (fun row => row.1.setting?), s.Writable) (number : Nat)
    (c : Config) :
    applyLines number (lines (written rows)) c =
      .ok ((rows.filterMap fun row => row.1.setting?).foldl apply c) := by
  induction rows generalizing number c with
  | nil => rfl
  | cons first rest ih =>
      obtain ⟨row, lineEnd⟩ := first
      have hrow : ∀ s ∈ row.setting?, s.Writable := fun s hs =>
        hrows s (List.mem_filterMap.mpr ⟨(row, lineEnd), List.mem_cons_self, hs⟩)
      have hrest : ∀ s ∈ rest.filterMap (fun row => row.1.setting?), s.Writable := by
        intro s hs
        obtain ⟨other, hother, hset⟩ := List.mem_filterMap.mp hs
        exact hrows s (List.mem_filterMap.mpr ⟨other, List.mem_cons_of_mem _ hother, hset⟩)
      have hlines : lines (written ((row, lineEnd) :: rest)) =
          dropLineEnd (row.text ++ lineEnd.text) :: lines (written rest) := by
        rw [written, List.flatMap_cons]
        exact lines_lineEnd (Row.newline_not_mem_text hrow) lineEnd _
      rw [hlines, applyLines, Row.ofLine_text hrow (.of_lineEnd row.text lineEnd),
        List.filterMap_cons]
      cases hset : row.setting? with
      | none => exact ih hrest _ _
      | some s => exact ih hrest _ _

/-! ## Settings in any order -/

theorem foldl_preset (entries : List (Text × Text)) (c : Config) :
    (entries.map fun (name, value) => Setting.preset name value).foldl apply c =
      { c with presets := entries.foldl (fun d entry => d.insert entry.1 entry.2) c.presets } := by
  induction entries generalizing c with
  | nil => rfl
  | cons entry rest ih => rw [List.map_cons, List.foldl_cons, ih]; rfl

theorem foldl_settings (c : Config) : c.settings.foldl apply default = c := by
  have hpresets := Dictionary.ofList_entries c.presets
  unfold Dictionary.ofList at hpresets
  rw [settings, List.foldl_append, foldl_preset]
  simp only [List.foldl_cons, List.foldl_nil, apply, default, hpresets]

theorem settings_comm {c : Config} {s t : Setting} (hs : s ∈ c.settings) (ht : t ∈ c.settings)
    (d : Config) : (d.apply s).apply t = (d.apply t).apply s := by
  -- settings under different keys set different parts of a configuration
  cases s <;> cases t <;> try rfl
  case prompt.prompt a b =>
    have ha : a = c.prompt := by simpa [settings] using hs
    have hb : b = c.prompt := by simpa [settings] using ht
    rw [ha, hb]
  case eof.eof a b =>
    have ha : a = c.eof := by simpa [settings] using hs
    have hb : b = c.eof := by simpa [settings] using ht
    rw [ha, hb]
  case log.log a b =>
    have ha : a = c.log := by simpa [settings] using hs
    have hb : b = c.log := by simpa [settings] using ht
    rw [ha, hb]
  case preset.preset a x b y =>
    have ha : (a, x) ∈ c.presets.entries := by simpa [settings] using hs
    have hb : (b, y) ∈ c.presets.entries := by simpa [settings] using ht
    by_cases hab : a = b
    · subst hab
      have hx := Dictionary.get?_eq_some_iff.mpr ha
      rw [Dictionary.get?_eq_some_iff.mpr hb] at hx
      cases hx
      rfl
    · simp only [apply, Dictionary.insert_comm d.presets hab]

/-- A written configuration reads as itself. -/
theorem ofText_text {c : Config} (hc : c.Writable) (sheet : Sheet c) :
    ofText sheet.text = .ok c := by
  have hwritable : ∀ s ∈ sheet.rows.filterMap (fun row => row.1.setting?), s.Writable :=
    fun s hs => hc.setting (sheet.complete.mem_iff.mp hs)
  have horder : (sheet.rows.filterMap fun row => row.1.setting?).foldl apply default =
      c.settings.foldl apply default :=
    sheet.complete.foldl_eq' (fun s hs t ht d => settings_comm (sheet.complete.mem_iff.mp hs)
      (sheet.complete.mem_iff.mp ht) d) default
  rw [ofText, Sheet.text, applyLines_written _ hwritable, horder, foldl_settings]

def sample : Config :=
  ⟨"> ".toList, .proceed, "a=b".toList, .ofList [(" A".toList, " =1".toList)]⟩

def noBlanks : Blanks := ⟨[], List.forall_mem_nil _, List.not_mem_nil⟩

def space : Blanks := ⟨[' '], List.forall_mem_singleton.mpr (by decide), by decide⟩

def tab : Blanks := ⟨['\t'], List.forall_mem_singleton.mpr (by decide), by decide⟩

def sampleSheet : Sheet sample where
  rows :=
    [(.comment space "prompt=$".toList (by decide), .newline),
     (.setting (.preset " A".toList " =1".toList) ⟨tab, space, noBlanks, noBlanks⟩, .returnNewline),
     (.setting (.eof .proceed) ⟨noBlanks, tab, space, tab⟩, .newline),
     (.blank tab, .returnNewline),
     (.setting (.prompt "> ".toList) ⟨space, noBlanks, noBlanks, noBlanks⟩, .newline),
     (.setting (.log "a=b".toList) ⟨noBlanks, noBlanks, tab, noBlanks⟩, .returnNewline)]
  complete := by decide

theorem ofText_text_sample :
    sample.Writable ∧
      sampleSheet.text =
        " #prompt=$\n\tenv. A = =1\r\neof\t= continue\t\n\t\r\n prompt=> \nlog=\ta=b\r\n".toList ∧
      ofText sampleSheet.text = .ok sample := by
  have hentries : sample.presets.entries = [(" A".toList, " =1".toList)] := by decide
  have hwritable : sample.Writable := by
    refine ⟨⟨by decide, by decide⟩, ⟨by decide, by decide⟩, fun entry hentry => ?_,
      fun entry hentry => ?_⟩
    · rw [hentries, List.mem_singleton] at hentry
      subst hentry
      have hlast : ∀ c ∈ " A".toList.getLast?, isBlank c = false := by
        intro c hc
        cases hc
        decide
      exact ⟨by decide, by decide, hlast, by decide⟩
    · rw [hentries, List.mem_singleton] at hentry
      subst hentry
      exact ⟨by decide, by decide⟩
  exact ⟨hwritable, by decide, ofText_text hwritable sampleSheet⟩

end Config

end LineShell
