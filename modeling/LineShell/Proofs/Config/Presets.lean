import LineShell.Proofs.Config.Assignments
import LineShell.Proofs.Config.RoundTrip

/-!
# Preset variables

A key presets the name that stands behind its marks, behind all of them.  So a name is preset by the
last line that has it behind one mark or several, and a key with a name behind one mark presets that
very name only if the name has no mark of its own.
-/

namespace LineShell

open Text

namespace Config

variable {key name value : Text} {lines : List Text} {src : Text} {c : Config}

def Presets (name key : Text) : Prop :=
  ∃ marks, key = (List.replicate (marks + 1) mark).flatten ++ name ∧ ¬ mark <+: name

theorem unmarked_mark (t : Text) : Setting.unmarked (mark ++ t) = Setting.unmarked t := by
  conv_lhs => unfold Setting.unmarked
  rfl

theorem unmarked_marks (marks : Nat) (t : Text) :
    Setting.unmarked ((List.replicate marks mark).flatten ++ t) = Setting.unmarked t := by
  induction marks with
  | zero => rfl
  | succ marks ih =>
      rw [List.replicate_succ, List.flatten_cons, List.append_assoc, unmarked_mark, ih]

theorem exists_marks (key : Text) :
    ∃ marks, key = (List.replicate marks mark).flatten ++ Setting.unmarked key ∧
      ¬ mark <+: Setting.unmarked key := by
  fun_induction Setting.unmarked key with
  | case1 rest ih =>
      obtain ⟨marks, hrest, hbare⟩ := ih
      refine ⟨marks + 1, ?_, hbare⟩
      rw [List.replicate_succ, List.flatten_cons, List.append_assoc, ← hrest]
      rfl
  | case2 name hbare =>
      refine ⟨0, rfl, ?_⟩
      rintro ⟨rest, rfl⟩
      exact hbare rest rfl

theorem Presets.marked (h : Presets name key) : mark <+: key := by
  obtain ⟨marks, rfl, -⟩ := h
  rw [List.replicate_succ, List.flatten_cons, List.append_assoc]
  exact List.prefix_append mark _

theorem presets_iff (hmark : mark <+: key) : Presets name key ↔ Setting.unmarked key = name := by
  constructor
  · rintro ⟨marks, rfl, hbare⟩
    rw [unmarked_marks, Setting.unmarked_eq_self hbare]
  · rintro rfl
    obtain ⟨marks, hkey, hbare⟩ := exists_marks key
    cases marks with
    | zero =>
        have hself : key = Setting.unmarked key := hkey
        exact absurd (hself ▸ hmark) hbare
    | succ marks => exact ⟨marks, hkey, hbare⟩

theorem presets_iff_of_single (h : ¬ mark ++ mark <+: key) :
    Presets name key ↔ key = mark ++ name := by
  constructor
  · rintro ⟨marks, rfl, hbare⟩
    cases marks with
    | zero => rfl
    | succ marks =>
        rw [List.replicate_succ, List.flatten_cons, List.replicate_succ, List.flatten_cons,
          ← List.append_assoc, List.append_assoc] at h
        exact absurd (List.prefix_append _ _) h
  · rintro rfl
    exact ⟨0, rfl, fun hname => h ((List.prefix_append_right_inj mark).mpr hname)⟩

theorem governs_preset (name : Text) :
    Governs (Presets name) (fun value part => part = some value) fun c => c.presets.get? name where
  sets := by
    rintro key value setting c (_ | _ | _ | hmark) hkey
    · exact absurd hkey.marked (by decide)
    · exact absurd hkey.marked (by decide)
    · exact absurd hkey.marked (by decide)
    · exact (Dictionary.get?_insert ..).trans (if_pos ((presets_iff hmark).mp hkey).symm)
  keeps := by
    rintro key value setting c (_ | _ | _ | hmark) hkey
    · rfl
    · rfl
    · rfl
    · have hne : name ≠ Setting.unmarked key := fun heq => hkey ((presets_iff hmark).mpr heq.symm)
      exact (Dictionary.get?_insert ..).trans (if_neg hne)

theorem get?_presets_iff (h : ofText src = .ok c) (name value : Text) :
    c.presets.get? name = some value ↔ LastValue (Presets name) src.lines value :=
  ((governs_preset name).settled h).eq_some_iff rfl value

/-! ## Names behind one mark -/

/-- Every name is preset by the last line that has it behind one mark, and by no other. -/
def Literal (src : Text) (c : Config) : Prop :=
  ∀ name value, c.presets.get? name = some value ↔
    LastValue (· = mark ++ name) src.lines value

theorem Literal.single (h : ofText src = .ok c) (hliteral : Literal src c) :
    Unset (mark ++ mark <+: ·) src.lines := by
  intro line hline key value hassigns hmarks
  obtain ⟨rest, rfl⟩ := hmarks
  have hset : ¬ Unset (· = mark ++ (mark ++ rest)) src.lines := fun hunset =>
    hunset line hline _ value hassigns (List.append_assoc ..)
  obtain ⟨last, hlast⟩ := exists_lastValue hset
  -- the name behind the first mark has a mark itself, so no key presets it
  obtain ⟨-, -, -, other, -, -, hpresets, -⟩ :=
    (get?_presets_iff h _ last).mp ((hliteral _ last).mpr hlast)
  obtain ⟨-, -, hbare⟩ := hpresets
  exact hbare (List.prefix_append mark rest)

theorem literal_of_single (h : ofText src = .ok c)
    (hsingle : Unset (mark ++ mark <+: ·) src.lines) : Literal src c := by
  intro name value
  rw [get?_presets_iff h]
  refine lastValue_congr fun line hline key value hassigns => ?_
  exact presets_iff_of_single (hsingle line hline key value hassigns)

/-- What the presets are; they are as the keys read literally exactly if no key has two marks. -/
theorem presets_literal_iff (h : ofText src = .ok c) :
    (∀ name value, c.presets.get? name = some value ↔
      LastValue (Presets name) src.lines value) ∧
      (Literal src c ↔ Unset (mark ++ mark <+: ·) src.lines) :=
  ⟨get?_presets_iff h, fun hliteral => hliteral.single h, literal_of_single h⟩

theorem presets_literal_iff_marks :
    let src : Text := "env.A=1\n env.env.A\t= 2 \n#env.A=3\nenv.B=4".toList
    ∃ c, ofText src = .ok c ∧ c.presets.get? "A".toList = some " 2 ".toList ∧
      LastValue (Presets "A".toList) src.lines " 2 ".toList ∧
      (Literal src c ↔ Unset (mark ++ mark <+: ·) src.lines) := by
  intro src
  obtain ⟨c, hok, hget⟩ : ∃ c, ofText src = .ok c ∧
      c.presets.get? "A".toList = some " 2 ".toList := by
    refine ⟨{ default with presets := .ofList [("A".toList, " 2 ".toList), ("B".toList, ['4'])] },
      ?_, ?_⟩ <;> decide
  have hpresets := presets_literal_iff hok
  exact ⟨c, hok, hget, (hpresets.1 _ _).mp hget, hpresets.2⟩

/-- A second mark is taken away with the first, so two keys preset one name and the other name
stays unset. -/
theorem not_literal_marks :
    let src : Text := "env.A=1\nenv.env.A=2\n".toList
    ∃ c, ofText src = .ok c ∧ c.presets.get? "A".toList = some "2".toList ∧
      c.presets.get? (mark ++ "A".toList) = none ∧ ¬ Literal src c := by
  intro src
  let c : Config := { default with presets := .ofList [("A".toList, ['2'])] }
  have hok : ofText src = .ok c := by decide
  have hnone : c.presets.get? (mark ++ "A".toList) = none := by decide
  refine ⟨c, hok, by decide, hnone, fun hliteral => ?_⟩
  have hlines : src.lines = ["env.A=1".toList, "env.env.A=2".toList] := by decide
  have hassigns : Assigns "env.env.A=2".toList (mark ++ (mark ++ "A".toList)) "2".toList := by
    refine ⟨fun hidle => ?_, "env.env.A".toList, by decide, by decide, by decide⟩
    have hstart : trimStart "env.env.A=2".toList = 'e' :: "nv.env.A=2".toList := by decide
    rcases idle_iff.mp hidle with hnil | ⟨rest, hcomment⟩
    · rw [hstart] at hnil
      cases hnil
    · rw [hstart] at hcomment
      exact absurd (List.cons.inj hcomment).1 (by decide)
  have hlast : LastValue (· = mark ++ (mark ++ "A".toList)) src.lines "2".toList :=
    ⟨["env.A=1".toList], _, [], _, hlines, hassigns, rfl, fun _ h => absurd h List.not_mem_nil⟩
  have hget := (hliteral (mark ++ "A".toList) "2".toList).mpr hlast
  rw [hnone] at hget
  cases hget

end Config

end LineShell
