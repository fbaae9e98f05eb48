import LineShell.Config
import LineShell.Proofs.Text.Lines
import Mathlib.Data.List.TakeWhile

/-!
# What lines assign

A line that is neither blank nor a comment assigns what stands behind its first equals sign to what
stands before it, without the white space around that.  A text is read line by line, and what a
configuration holds under a kind of keys is said by the last line with such a key.
-/

namespace LineShell

open Text

inductive EofPolicy.Means : Text → EofPolicy → Prop
  | exit : Means "exit".toList .exit
  | proceed : Means "continue".toList .proceed

theorem EofPolicy.ofText?_eq_some_iff {t : Text} {policy : EofPolicy} :
    ofText? t = some policy ↔ Means t policy := by
  constructor
  · intro h
    unfold ofText? at h
    split at h
    · next ht =>
        cases h
        exact ht ▸ .exit
    · split at h
      · next ht =>
          cases h
          exact ht ▸ .proceed
      · cases h
  · rintro (_ | _) <;> decide

namespace Config

def mark : Text := "env.".toList

inductive Makes : Text → Text → Setting → Prop
  | prompt (value : Text) : Makes "prompt".toList value (.prompt value)
  | eof {value : Text} {policy : EofPolicy} (h : EofPolicy.Means value.trim policy) :
      Makes "eof".toList value (.eof policy)
  | log (value : Text) : Makes "log".toList value (.log value.trim)
  | preset {key : Text} (h : mark <+: key) (value : Text) :
      Makes key value (.preset (Setting.unmarked key) value)

structure Unknown (key : Text) : Prop where
  prompt : key ≠ "prompt".toList
  eof : key ≠ "eof".toList
  log : key ≠ "log".toList
  preset : ¬ mark <+: key

def Idle (line : Text) : Prop :=
  (∀ c ∈ line, isBlank c = true) ∨
    ∃ before remark, line = before ++ '#' :: remark ∧ ∀ c ∈ before, isBlank c = true

structure Assigns (line key value : Text) : Prop where
  busy : ¬ Idle line
  cut : ∃ before, line = before ++ '=' :: value ∧ '=' ∉ before ∧ before.trim = key

variable {line key value key' value' : Text}

theorem idle_iff : Idle line ↔ line.trimStart = [] ∨ ∃ rest, line.trimStart = '#' :: rest := by
  constructor
  · rintro (hblank | ⟨before, remark, rfl, hbefore⟩)
    · exact .inl (trimStart_of_blank hblank)
    · right
      exact ⟨remark, by rw [trimStart_append hbefore, trimStart_cons (by decide)]⟩
  · have hfront : ∀ c ∈ line.takeWhile isBlank, isBlank c = true :=
      fun c hc => List.mem_takeWhile_imp hc
    have hcut : line.takeWhile isBlank ++ line.trimStart = line := List.takeWhile_append_dropWhile
    rintro (hnil | ⟨rest, hrest⟩)
    · rw [hnil, List.append_nil] at hcut
      exact .inl (hcut ▸ hfront)
    · rw [hrest] at hcut
      exact .inr ⟨_, rest, hcut.symm, hfront⟩

theorem line_cases (line : Text) :
    Idle line ∨ (¬ Idle line ∧ '=' ∉ line) ∨ ∃ key value, Assigns line key value := by
  by_cases hidle : Idle line
  · exact .inl hidle
  · right
    by_cases hmark : '=' ∈ line
    · obtain ⟨before, value, hline, hbefore⟩ := List.eq_append_cons_of_mem hmark
      exact .inr ⟨trim before, value, hidle, before, hline, hbefore, rfl⟩
    · exact .inl ⟨hidle, hmark⟩

theorem Assigns.unique (h : Assigns line key value) (h' : Assigns line key' value') :
    key = key' ∧ value = value' := by
  obtain ⟨before, hline, hbefore, rfl⟩ := h.cut
  obtain ⟨before', hline', hbefore', rfl⟩ := h'.cut
  have hsplit := splitFirst?_append value hbefore
  rw [← hline, hline', splitFirst?_append value' hbefore'] at hsplit
  cases hsplit
  exact ⟨rfl, rfl⟩

/-! ## The setting of a line -/

theorem ofLine_idle (h : Idle line) : Setting.ofLine line = .ok none := by
  unfold Setting.ofLine
  rcases idle_iff.mp h with hnil | ⟨rest, hrest⟩
  · rw [hnil]
  · rw [hrest]
    rfl

theorem ofLine_busy (h : ¬ Idle line) :
    Setting.ofLine line =
      match line.splitFirst? '=' with
      | none => .error (.noEqualsSign line)
      | some (key, value) => (Setting.ofKey key.trim value).map some := by
  unfold Setting.ofLine
  split
  · next hnil => exact absurd (idle_iff.mpr (.inl hnil)) h
  · next rest hrest => exact absurd (idle_iff.mpr (.inr ⟨rest, hrest⟩)) h
  · rfl

theorem ofLine_unsigned (hbusy : ¬ Idle line) (hmark : '=' ∉ line) :
    Setting.ofLine line = .error (.noEqualsSign line) := by
  rw [ofLine_busy hbusy]
  cases hsplit : line.splitFirst? '=' with
  | none => rfl
  | some cut =>
      obtain ⟨before, value⟩ := cut
      have hline := eq_append_of_splitFirst? hsplit
      exact absurd (hline ▸ List.mem_append_right before List.mem_cons_self) hmark

theorem ofLine_assigns (h : Assigns line key value) :
    Setting.ofLine line = (Setting.ofKey key value).map some := by
  obtain ⟨before, hline, hbefore, rfl⟩ := h.cut
  rw [ofLine_busy h.busy, hline, splitFirst?_append value hbefore]

theorem ne_of_mark (h : mark <+: key) :
    key ≠ "prompt".toList ∧ key ≠ "eof".toList ∧ key ≠ "log".toList := by
  refine ⟨?_, ?_, ?_⟩ <;> rintro rfl <;> revert h <;> decide

theorem ofKey_cases (key value : Text) :
    (∃ setting, Makes key value setting ∧ Setting.ofKey key value = .ok setting) ∨
      (key = "eof".toList ∧ (∀ policy, ¬ EofPolicy.Means value.trim policy) ∧
        Setting.ofKey key value = .error (.invalidEofPolicy value.trim)) ∨
      (Unknown key ∧ Setting.ofKey key value = .error (.unknownKey key)) := by
  unfold Setting.ofKey
  split
  · next hkey => exact .inl ⟨_, hkey ▸ .prompt value, rfl⟩
  · next hprompt =>
      split
      · next hkey =>
          cases hpolicy : EofPolicy.ofText? value.trim with
          | some policy =>
              have hmeans := EofPolicy.ofText?_eq_some_iff.mp hpolicy
              exact .inl ⟨_, hkey ▸ .eof hmeans, rfl⟩
          | none =>
              refine .inr (.inl ⟨hkey, fun policy hmeans => ?_, rfl⟩)
              rw [EofPolicy.ofText?_eq_some_iff.mpr hmeans] at hpolicy
              cases hpolicy
      · next heof =>
          split
          · next hkey => exact .inl ⟨_, hkey ▸ .log value, rfl⟩
          · next hlog =>
              split
              · next hmark =>
                  exact .inl ⟨_, .preset (List.isPrefixOf_iff_prefix.mp hmark) value, rfl⟩
              · next hmark =>
                  have hplain : ¬ mark <+: key := fun h => hmark (List.isPrefixOf_iff_prefix.mpr h)
                  exact .inr (.inr ⟨⟨hprompt, heof, hlog, hplain⟩, rfl⟩)

theorem Makes.ofKey {setting : Setting} (h : Makes key value setting) :
    Setting.ofKey key value = .ok setting := by
  cases h with
  | prompt => rfl
  | eof hmeans =>
      have hpolicy := EofPolicy.ofText?_eq_some_iff.mpr hmeans
      simp [Setting.ofKey, hpolicy]
  | log => rfl
  | preset hmark =>
      obtain ⟨hprompt, heof, hlog⟩ := ne_of_mark hmark
      have hprefix : "env.".toList.isPrefixOf key = true := List.isPrefixOf_iff_prefix.mpr hmark
      rw [Setting.ofKey, if_neg hprompt, if_neg heof, if_neg hlog, if_pos hprefix]

theorem makes_of_ofKey {setting : Setting} (h : Setting.ofKey key value = .ok setting) :
    Makes key value setting := by
  rcases ofKey_cases key value with ⟨other, hmakes, hok⟩ | ⟨-, -, herror⟩ | ⟨-, herror⟩
  · rw [hok] at h
    cases h
    exact hmakes
  · rw [herror] at h
    cases h
  · rw [herror] at h
    cases h

/-! ## Lines one after another -/

theorem applyLines_append (number : Nat) (front back : List Text) (c : Config) :
    applyLines number (front ++ back) c =
      match applyLines number front c with
      | .error o => .error o
      | .ok d => applyLines (number + front.length) back d := by
  induction front generalizing number c with
  | nil => rfl
  | cons line rest ih =>
      rw [List.cons_append, applyLines, applyLines, List.length_cons, ← Nat.add_assoc,
        Nat.add_right_comm]
      cases Setting.ofLine line with
      | error fault => rfl
      | ok setting =>
          cases setting with
          | none => exact ih (number + 1) c
          | some s => exact ih (number + 1) (c.apply s)

def Unset (kind : Text → Prop) (lines : List Text) : Prop :=
  ∀ line ∈ lines, ∀ key value, Assigns line key value → ¬ kind key

def LastValue (kind : Text → Prop) (lines : List Text) (value : Text) : Prop :=
  ∃ before line after key, lines = before ++ line :: after ∧ Assigns line key value ∧ kind key ∧
    Unset kind after

variable {kind : Text → Prop} {lines : List Text}

theorem unset_cons : Unset kind (line :: lines) ↔
    (∀ key value, Assigns line key value → ¬ kind key) ∧ Unset kind lines :=
  List.forall_mem_cons

theorem LastValue.cons (h : LastValue kind lines value) (line : Text) :
    LastValue kind (line :: lines) value := by
  obtain ⟨before, last, after, key, rfl, hlast⟩ := h
  exact ⟨line :: before, last, after, key, rfl, hlast⟩

theorem LastValue.not_unset (h : LastValue kind lines value) : ¬ Unset kind lines := by
  obtain ⟨before, line, after, key, rfl, hline, hkey, -⟩ := h
  intro hunset
  exact hunset line (List.mem_append_right before List.mem_cons_self) key value hline hkey

theorem lastValue_cons : LastValue kind (line :: lines) value ↔
    LastValue kind lines value ∨
      Unset kind lines ∧ ∃ key, Assigns line key value ∧ kind key := by
  constructor
  · rintro ⟨before, last, after, key, hlines, hlast, hkey, hafter⟩
    cases before with
    | nil =>
        cases hlines
        exact .inr ⟨hafter, key, hlast, hkey⟩
    | cons first before =>
        cases hlines
        exact .inl ⟨before, last, after, key, rfl, hlast, hkey, hafter⟩
  · rintro (h | ⟨hunset, key, hline, hkey⟩)
    · exact h.cons line
    · exact ⟨[], line, lines, key, rfl, hline, hkey, hunset⟩

theorem exists_lastValue (h : ¬ Unset kind lines) : ∃ value, LastValue kind lines value := by
  induction lines with
  | nil => exact absurd (fun line hline => absurd hline List.not_mem_nil) h
  | cons line rest ih =>
      by_cases hrest : Unset kind rest
      · have hline : ∃ key value, Assigns line key value ∧ kind key := by
          by_contra hnone
          refine h (unset_cons.mpr ⟨fun key value hassigns hkind => ?_, hrest⟩)
          exact hnone ⟨key, value, hassigns, hkind⟩
        obtain ⟨key, value, hassigns, hkind⟩ := hline
        exact ⟨value, lastValue_cons.mpr (.inr ⟨hrest, key, hassigns, hkind⟩)⟩
      · obtain ⟨value, hlast⟩ := ih hrest
        exact ⟨value, hlast.cons line⟩

theorem lastValue_congr {other : Text → Prop}
    (h : ∀ line ∈ lines, ∀ key value, Assigns line key value → (kind key ↔ other key)) :
    LastValue kind lines value ↔ LastValue other lines value := by
  have himp {P Q : Text → Prop}
      (hPQ : ∀ line ∈ lines, ∀ key value, Assigns line key value → (P key ↔ Q key)) :
      LastValue P lines value → LastValue Q lines value := by
    rintro ⟨before, line, after, key, rfl, hline, hkey, hafter⟩
    refine ⟨before, line, after, key, rfl, hline, ?_, fun l hl k v ha hQ => ?_⟩
    · exact (hPQ line (List.mem_append_right before List.mem_cons_self) key value hline).mp hkey
    · have hmem := List.mem_append_right before (List.mem_cons_of_mem line hl)
      exact hafter l hl k v ha ((hPQ l hmem k v ha).mpr hQ)
  exact ⟨himp h, himp fun line hline key value ha => (h line hline key value ha).symm⟩

theorem LastValue.unique (h : LastValue kind lines value) (h' : LastValue kind lines value') :
    value = value' := by
  induction lines with
  | nil =>
      obtain ⟨before, line, after, key, hnil, -⟩ := h
      cases before <;> cases hnil
  | cons line rest ih =>
      rcases lastValue_cons.mp h with h | ⟨hunset, key, hline, -⟩
      · rcases lastValue_cons.mp h' with h' | ⟨hunset, -⟩
        · exact ih h h'
        · exact absurd hunset h.not_unset
      · rcases lastValue_cons.mp h' with h' | ⟨-, key', hline', -⟩
        · exact absurd hunset h'.not_unset
        · exact (hline.unique hline').2

/-- What the last line with a key of a kind tells, or else what stood there before. -/
def Settled {α : Type} (kind : Text → Prop) (tells : Text → α → Prop) (lines : List Text)
    (before after : α) : Prop :=
  (∃ value, LastValue kind lines value ∧ tells value after) ∨ Unset kind lines ∧ after = before

/-- A part of a configuration that the lines with keys of a kind set, and no others. -/
structure Governs {α : Type} (kind : Text → Prop) (tells : Text → α → Prop) (part : Config → α) :
    Prop where
  sets : ∀ {key value setting} (c : Config), Makes key value setting → kind key →
    tells value (part (c.apply setting))
  keeps : ∀ {key value setting} (c : Config), Makes key value setting → ¬ kind key →
    part (c.apply setting) = part c

/-- The last of the lines that set a part of the configuration decides it. -/
theorem Governs.settled {α : Type} {tells : Text → α → Prop} {part : Config → α}
    (hg : Governs kind tells part) {number : Nat} {c d : Config}
    (h : applyLines number lines c = .ok d) : Settled kind tells lines (part c) (part d) := by
  induction lines generalizing number c with
  | nil =>
      cases h
      exact .inr ⟨fun line hline => absurd hline List.not_mem_nil, rfl⟩
  | cons line rest ih =>
      rw [applyLines] at h
      rcases line_cases line with hidle | ⟨hbusy, hmark⟩ | ⟨key, value, hline⟩
      · rw [ofLine_idle hidle] at h
        rcases ih h with ⟨value, hlast, htells⟩ | ⟨hunset, hpart⟩
        · exact .inl ⟨value, hlast.cons line, htells⟩
        · exact .inr ⟨unset_cons.mpr ⟨fun _ _ ha => absurd hidle ha.busy, hunset⟩, hpart⟩
      · rw [ofLine_unsigned hbusy hmark] at h
        cases h
      · rw [ofLine_assigns hline] at h
        cases hkey : Setting.ofKey key value with
        | error fault =>
            rw [hkey] at h
            cases h
        | ok setting =>
            rw [hkey] at h
            -- this line counts only if no later one sets the part
            rcases ih h with ⟨value, hlast, htells⟩ | ⟨hunset, hpart⟩
            · exact .inl ⟨value, hlast.cons line, htells⟩
            · by_cases hkind : kind key
              · left
                refine ⟨value, lastValue_cons.mpr (.inr ⟨hunset, key, hline, hkind⟩), ?_⟩
                rw [hpart]
                exact hg.sets c (makes_of_ofKey hkey) hkind
              · right
                refine ⟨unset_cons.mpr ⟨fun other _ ha => ?_, hunset⟩, ?_⟩
                · rw [(ha.unique hline).1]
                  exact hkind
                · rw [hpart, hg.keeps c (makes_of_ofKey hkey) hkind]

theorem Settled.eq_some_iff {before after : Option Text}
    (h : Settled kind (fun value part => part = some value) lines before after)
    (hbefore : before = none) (value : Text) : after = some value ↔ LastValue kind lines value := by
  rcases h with ⟨value', hlast, htells⟩ | ⟨hunset, hafter⟩
  · rw [htells, Option.some.injEq]
    exact ⟨fun heq => heq ▸ hlast, fun h => hlast.unique h⟩
  · rw [hafter, hbefore]
    exact ⟨fun h => (by cases h), fun h => absurd hunset h.not_unset⟩

end Config

end LineShell
