import LineShell.Proofs.Config.Assignments

/-!
# Accepted texts and first offences

A text is accepted if each of its lines is idle or sets a key that there is to a value that it can
have.  Otherwise the first line that does neither decides the error, and the number of that line is
its place among all lines.  So what follows that line has no part in it, and what follows an
accepted text is judged as it would be alone.
-/

namespace LineShell

open Text

namespace Config

variable {line key value : Text} {lines before after : List Text}

inductive Settable : Text → Text → Prop
  | prompt (value : Text) : Settable "prompt".toList value
  | log (value : Text) : Settable "log".toList value
  | eof {value : Text} (h : value.trim = "exit".toList ∨ value.trim = "continue".toList) :
      Settable "eof".toList value
  | preset {key : Text} (h : "env.".toList <+: key) (value : Text) : Settable key value

def Accepted (line : Text) : Prop :=
  Idle line ∨ ∃ key value, Assigns line key value ∧ Settable key value

inductive Offends (line : Text) : Fault → Prop
  | noEqualsSign (hbusy : ¬ Idle line) (hmark : '=' ∉ line) : Offends line (.noEqualsSign line)
  | invalidEofPolicy {value : Text} (hline : Assigns line "eof".toList value)
      (hexit : value.trim ≠ "exit".toList) (hcontinue : value.trim ≠ "continue".toList) :
      Offends line (.invalidEofPolicy value.trim)
  | unknownKey {key value : Text} (hline : Assigns line key value) (hkey : Unknown key) :
      Offends line (.unknownKey key)

theorem settable_iff : Settable key value ↔ ∃ setting, Makes key value setting := by
  constructor
  · rintro (_ | _ | hvalue | hmark)
    · exact ⟨_, .prompt value⟩
    · exact ⟨_, .log value⟩
    · rcases hvalue with hexit | hcontinue
      · exact ⟨.eof .exit, .eof (hexit ▸ .exit)⟩
      · exact ⟨.eof .proceed, .eof (hcontinue ▸ .proceed)⟩
    · exact ⟨_, .preset hmark value⟩
  · rintro ⟨setting, _ | hmeans | _ | hmark⟩
    · exact .prompt value
    · refine .eof ?_
      generalize value.trim = t at hmeans
      cases hmeans with
      | exit => exact .inl rfl
      | proceed => exact .inr rfl
    · exact .log value
    · exact .preset hmark value

theorem Unknown.not_settable (h : Unknown key) : ¬ Settable key value := by
  rintro (_ | _ | _ | hmark)
  · exact h.prompt rfl
  · exact h.log rfl
  · exact h.eof rfl
  · exact h.preset hmark

theorem Settable.policy (h : Settable key value) (hkey : key = "eof".toList) :
    value.trim = "exit".toList ∨ value.trim = "continue".toList := by
  cases h with
  | prompt | log => exact absurd hkey (by decide)
  | eof hvalue => exact hvalue
  | preset hmark => exact absurd hkey (ne_of_mark hmark).2.1

theorem Accepted.ofLine (h : Accepted line) : ∃ setting?, Setting.ofLine line = .ok setting? := by
  rcases h with hidle | ⟨key, value, hline, hset⟩
  · exact ⟨none, ofLine_idle hidle⟩
  · obtain ⟨setting, hmakes⟩ := settable_iff.mp hset
    exact ⟨some setting, by rw [ofLine_assigns hline, hmakes.ofKey]; rfl⟩

theorem Offends.ofLine {fault : Fault} (h : Offends line fault) :
    Setting.ofLine line = .error fault := by
  cases h with
  | noEqualsSign hbusy hmark => exact ofLine_unsigned hbusy hmark
  | @invalidEofPolicy value hline hexit hcontinue =>
      rw [ofLine_assigns hline]
      rcases ofKey_cases "eof".toList value with ⟨setting, hmakes, -⟩ | ⟨-, -, herror⟩ | ⟨hkey, -⟩
      · have hset := settable_iff.mpr ⟨setting, hmakes⟩
        exact absurd (hset.policy rfl) (not_or.mpr ⟨hexit, hcontinue⟩)
      · rw [herror]
        rfl
      · exact absurd rfl hkey.eof
  | @unknownKey key value hline hkey =>
      rw [ofLine_assigns hline]
      rcases ofKey_cases key value with ⟨setting, hmakes, -⟩ | ⟨rfl, -, -⟩ | ⟨-, herror⟩
      · exact absurd (settable_iff.mpr ⟨setting, hmakes⟩) hkey.not_settable
      · exact absurd rfl hkey.eof
      · rw [herror]
        rfl

theorem accepted_or_offends (line : Text) : Accepted line ∨ ∃ fault, Offends line fault := by
  rcases line_cases line with hidle | ⟨hbusy, hmark⟩ | ⟨key, value, hline⟩
  · exact .inl (.inl hidle)
  · exact .inr ⟨_, .noEqualsSign hbusy hmark⟩
  · rcases ofKey_cases key value with ⟨setting, hmakes, -⟩ | ⟨rfl, hpolicy, -⟩ | ⟨hkey, -⟩
    · exact .inl (.inr ⟨key, value, hline, settable_iff.mpr ⟨setting, hmakes⟩⟩)
    · right
      refine ⟨_, .invalidEofPolicy hline ?_ ?_⟩
      · exact fun h => hpolicy .exit (h ▸ .exit)
      · exact fun h => hpolicy .proceed (h ▸ .proceed)
    · exact .inr ⟨_, .unknownKey hline hkey⟩

/-! ## Lines one after another -/

def FirstOffence (lines : List Text) (o : Offence) : Prop :=
  ∃ before line after, lines = before ++ line :: after ∧ (∀ l ∈ before, Accepted l) ∧
    Offends line o.fault ∧ o.line = before.length + 1

theorem applyLines_accepted (h : ∀ l ∈ lines, Accepted l) (number : Nat) (c : Config) :
    ∃ d, applyLines number lines c = .ok d := by
  induction lines generalizing number c with
  | nil => exact ⟨c, rfl⟩
  | cons line rest ih =>
      obtain ⟨hline, hrest⟩ := List.forall_mem_cons.mp h
      obtain ⟨setting, hok⟩ := hline.ofLine
      rw [applyLines, hok]
      cases setting with
      | none => exact ih hrest (number + 1) c
      | some s => exact ih hrest (number + 1) (c.apply s)

theorem applyLines_offence (hbefore : ∀ l ∈ before, Accepted l) {fault : Fault}
    (hline : Offends line fault) (number : Nat) (c : Config) :
    applyLines number (before ++ line :: after) c = .error ⟨number + before.length, fault⟩ := by
  obtain ⟨d, hok⟩ := applyLines_accepted hbefore number c
  rw [applyLines_append, hok]
  simp only [applyLines, hline.ofLine]

theorem accepted_or_firstOffence (lines : List Text) :
    (∀ l ∈ lines, Accepted l) ∨ ∃ o, FirstOffence lines o := by
  induction lines with
  | nil => exact .inl (List.forall_mem_nil _)
  | cons line rest ih =>
      rcases accepted_or_offends line with haccepted | ⟨fault, hoffends⟩
      · rcases ih with hrest | ⟨o, before, last, after, rfl, hbefore, hlast, -⟩
        · exact .inl (List.forall_mem_cons.mpr ⟨haccepted, hrest⟩)
        · have hfront := List.forall_mem_cons.mpr ⟨haccepted, hbefore⟩
          exact .inr ⟨⟨(line :: before).length + 1, o.fault⟩, line :: before, last, after, rfl,
            hfront, hlast, rfl⟩
      · exact .inr ⟨⟨_, fault⟩, [], line, rest, rfl, List.forall_mem_nil _, hoffends, rfl⟩

theorem FirstOffence.applyLines {o : Offence} (h : FirstOffence lines o) (c : Config) :
    applyLines 1 lines c = .error o := by
  obtain ⟨before, line, after, rfl, hbefore, hline, hnumber⟩ := h
  rw [applyLines_offence hbefore hline, Nat.add_comm, ← hnumber]

theorem FirstOffence.not_accepted {o : Offence} (h : FirstOffence lines o) :
    ¬ ∀ l ∈ lines, Accepted l := by
  intro haccepted
  obtain ⟨d, hok⟩ := applyLines_accepted haccepted 1 default
  rw [h.applyLines] at hok
  cases hok

theorem FirstOffence.unique {o p : Offence} (h : FirstOffence lines o) (h' : FirstOffence lines p) :
    o = p := by
  have heq := (h.applyLines default).symm.trans (h'.applyLines default)
  exact Except.error.inj heq

theorem FirstOffence.of_take {o : Offence} {other : List Text} (h : FirstOffence lines o)
    (hother : other.take o.line = lines.take o.line) : FirstOffence other o := by
  obtain ⟨before, line, after, rfl, hbefore, hline, hnumber⟩ := h
  have hfront : (before ++ line :: after).take o.line = before ++ [line] := by
    rw [hnumber, List.take_length_add_append, List.take_succ_cons, List.take_zero]
  -- the offence is the last of the lines that both texts begin with
  refine ⟨before, line, other.drop o.line, ?_, hbefore, hline, hnumber⟩
  rw [← List.singleton_append, ← List.append_assoc, ← hfront, ← hother, List.take_append_drop]

theorem FirstOffence.append {p : Offence} (h : FirstOffence after p)
    (hbefore : ∀ l ∈ before, Accepted l) :
    FirstOffence (before ++ after) ⟨before.length + p.line, p.fault⟩ := by
  obtain ⟨front, line, rest, rfl, hfront, hline, hnumber⟩ := h
  refine ⟨before ++ front, line, rest, (List.append_assoc ..).symm, ?_, hline, ?_⟩
  · exact List.forall_mem_append.mpr ⟨hbefore, hfront⟩
  · rw [List.length_append, hnumber, Nat.add_assoc]

theorem firstOffence_append_iff {o : Offence} (hbefore : ∀ l ∈ before, Accepted l) :
    FirstOffence (before ++ after) o ↔
      ∃ p, FirstOffence after p ∧ o = ⟨before.length + p.line, p.fault⟩ := by
  constructor
  · intro h
    rcases accepted_or_firstOffence after with hafter | ⟨p, hp⟩
    · exact absurd (List.forall_mem_append.mpr ⟨hbefore, hafter⟩) h.not_accepted
    · exact ⟨p, hp, h.unique (hp.append hbefore)⟩
  · rintro ⟨p, hp, rfl⟩
    exact hp.append hbefore

/-! ## Texts -/

variable {src : Text}

theorem ofText_error_iff {o : Offence} : ofText src = .error o ↔ FirstOffence src.lines o := by
  refine ⟨fun herror => ?_, fun h => h.applyLines default⟩
  rcases accepted_or_firstOffence src.lines with haccepted | ⟨p, hp⟩
  · obtain ⟨c, hok⟩ := applyLines_accepted haccepted 1 default
    rw [ofText, hok] at herror
    cases herror
  · rw [ofText, hp.applyLines] at herror
    cases herror
    exact hp

theorem ofText_ok_iff : (∃ c, ofText src = .ok c) ↔ ∀ l ∈ src.lines, Accepted l := by
  refine ⟨fun ⟨c, hok⟩ => ?_, fun h => applyLines_accepted h 1 default⟩
  rcases accepted_or_firstOffence src.lines with haccepted | ⟨p, hp⟩
  · exact haccepted
  · rw [ofText, hp.applyLines] at hok
    cases hok

theorem governs_prompt : Governs (· = "prompt".toList) (fun value part => part = value) prompt where
  sets := by
    rintro key value setting c (_ | _ | _ | hmark) hkey
    · rfl
    · exact absurd hkey (by decide)
    · exact absurd hkey (by decide)
    · exact absurd hkey (ne_of_mark hmark).1
  keeps := by
    rintro key value setting c (_ | _ | _ | _) hkey
    · exact absurd rfl hkey
    · rfl
    · rfl
    · rfl

theorem governs_eof :
    Governs (· = "eof".toList) (fun value => EofPolicy.Means value.trim) Config.eof where
  sets := by
    rintro key value setting c (_ | hmeans | _ | hmark) hkey
    · exact absurd hkey (by decide)
    · exact hmeans
    · exact absurd hkey (by decide)
    · exact absurd hkey (ne_of_mark hmark).2.1
  keeps := by
    rintro key value setting c (_ | _ | _ | _) hkey
    · rfl
    · exact absurd rfl hkey
    · rfl
    · rfl

theorem governs_log : Governs (· = "log".toList) (fun value part => part = value.trim) log where
  sets := by
    rintro key value setting c (_ | _ | _ | hmark) hkey
    · exact absurd hkey (by decide)
    · exact absurd hkey (by decide)
    · rfl
    · exact absurd hkey (ne_of_mark hmark).2.2
  keeps := by
    rintro key value setting c (_ | _ | _ | _) hkey
    · rfl
    · rfl
    · exact absurd rfl hkey
    · rfl

/-- Which texts are accepted, what they set, and what the others are refused for. -/
theorem ofText_by_lines (src : Text) :
    ((∃ c, ofText src = .ok c) ↔ ∀ line ∈ src.lines, Accepted line) ∧
      (∀ c, ofText src = .ok c →
        Settled (· = "prompt".toList) (fun value part => part = value) src.lines
          default.prompt c.prompt ∧
        Settled (· = "eof".toList) (fun value => EofPolicy.Means value.trim) src.lines
          default.eof c.eof ∧
        Settled (· = "log".toList) (fun value part => part = value.trim) src.lines
          default.log c.log) ∧
      (∀ o, ofText src = .error o ↔ FirstOffence src.lines o) ∧
      (∀ o other, ofText src = .error o → other.lines.take o.line = src.lines.take o.line →
        ofText other = .error o) ∧
      ∀ c, ofText src = .ok c → src.Whole → ∀ rest o,
        ofText (src ++ rest) = .error o ↔
          ∃ p, ofText rest = .error p ∧ o = ⟨src.lines.length + p.line, p.fault⟩ := by
  refine ⟨ofText_ok_iff, fun c hc => ?_, fun o => ofText_error_iff, fun o other ho hother => ?_,
    fun c hc hwhole rest o => ?_⟩
  · exact ⟨governs_prompt.settled hc, governs_eof.settled hc, governs_log.settled hc⟩
  · exact ofText_error_iff.mpr ((ofText_error_iff.mp ho).of_take hother)
  · simp only [ofText_error_iff, hwhole.lines_append]
    exact firstOffence_append_iff (ofText_ok_iff.mp ⟨c, hc⟩)

theorem ofText_by_lines_appended :
    let src : Text := "# \n\nprompt=> \nprompt=\r\n".toList
    let rest : Text := "eof=no\nlog".toList
    (∃ c, ofText src = .ok c ∧ c.prompt = []) ∧ src.Whole ∧
      ofText rest = .error ⟨1, .invalidEofPolicy "no".toList⟩ ∧
      ofText (src ++ rest) = .error ⟨5, .invalidEofPolicy "no".toList⟩ ∧
      ofText (src ++ "eof=no".toList) = .error ⟨5, .invalidEofPolicy "no".toList⟩ := by
  intro src rest
  have hok : ofText src = .ok { default with prompt := [] } := by decide
  have hwhole : src.Whole := .inr (by decide)
  have hrest : ofText rest = .error ⟨1, .invalidEofPolicy "no".toList⟩ := by decide
  have hboth := ((ofText_by_lines src).2.2.2.2 _ hok hwhole rest _).mpr ⟨_, hrest, rfl⟩
  refine ⟨⟨_, hok, rfl⟩, hwhole, hrest, hboth, ?_⟩
  exact (ofText_by_lines (src ++ rest)).2.2.2.1 _ _ hboth (by decide)

end Config

end LineShell
