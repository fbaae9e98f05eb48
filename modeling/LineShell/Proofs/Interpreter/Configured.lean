import LineShell.Interpreter
import LineShell.Proofs.Environment.Presets

/-!
# Configured sessions

A session begins with the presets of its configuration as exported variables.  In which order the
presets are taken does not matter, and to take them once more changes nothing.
-/

namespace LineShell

namespace Environment

variable {env : Environment} {presets : Dictionary Text} {order again : List (Text × Text)}

theorem cwd_preset (env : Environment) (presets : List (Text × Text)) :
    (env.preset presets).cwd = env.cwd := by
  rw [preset_eq]

theorem status_preset (env : Environment) (presets : List (Text × Text)) :
    (env.preset presets).status = env.status := by
  rw [preset_eq]

theorem eq_of_get? {env env' : Environment}
    (hvars : ∀ name, env.vars.get? name = env'.vars.get? name) (hcwd : env.cwd = env'.cwd)
    (hstatus : env.status = env'.status) : env = env' := by
  obtain ⟨vars, cwd, status⟩ := env
  obtain ⟨vars', cwd', status'⟩ := env'
  obtain rfl := Dictionary.eq_of_get? hvars
  subst hcwd hstatus
  rfl

theorem preset_perm (env : Environment) (horder : order.Perm presets.entries)
    (hagain : again.Perm presets.entries) : env.preset order = env.preset again := by
  apply eq_of_get?
  · intro name
    rw [get?_preset_perm env horder, get?_preset_perm env hagain]
  · rw [cwd_preset, cwd_preset]
  · rw [status_preset, status_preset]

theorem preset_preset (env : Environment) (horder : order.Perm presets.entries)
    (hagain : again.Perm presets.entries) :
    (env.preset order).preset again = env.preset order := by
  apply eq_of_get?
  · intro name
    rw [get?_preset_perm _ hagain, get?_preset_perm env horder]
    cases presets.get? name <;> rfl
  · rw [cwd_preset]
  · rw [status_preset]

end Environment

namespace Session

/-- Whatever the order in which the presets of a configuration are taken, a session begins with each
of them as an exported variable, whether the name was exported, or only set, or not there, and with
everything else as it was.  It would begin so too if they were taken twice. -/
theorem configured_in_any_order {σ : Type} (config : Config) (env : Environment) (host : Host)
    (own : σ) {order : List (Text × Text)} (horder : order.Perm config.presets.entries) :
    let configured := (Session.configured config env host own).env
    env.preset order = configured ∧
    (∀ name value, (name, value) ∈ order →
      configured.vars.get? name = some ⟨value, true⟩) ∧
    (∀ name, (∀ value, (name, value) ∉ order) →
      configured.vars.get? name = env.vars.get? name) ∧
    configured.cwd = env.cwd ∧ configured.status = env.status ∧
    configured.preset order = configured := by
  intro configured
  have hvars := env.get?_preset_perm (.refl config.presets.entries)
  refine ⟨env.preset_perm horder (.refl _), fun name value hmem => ?_, fun name hnone => ?_,
    env.cwd_preset _, env.status_preset _, env.preset_preset (.refl _) horder⟩
  · have hpreset := Dictionary.get?_eq_some_iff.mpr (horder.mem_iff.mp hmem)
    change (env.preset config.presets.entries).vars.get? name = _
    rw [hvars, hpreset]
  · have hpreset : config.presets.get? name = none := by
      rw [Option.eq_none_iff_forall_ne_some]
      intro value hvalue
      exact hnone value (horder.mem_iff.mpr (Dictionary.get?_eq_some_iff.mp hvalue))
    change (env.preset config.presets.entries).vars.get? name = _
    rw [hvars, hpreset]

theorem configured_in_any_order_reversed :
    let entries := [("A".toList, "1".toList), ("B".toList, "2".toList), ("C".toList, "3".toList)]
    let config : Config := { Config.default with presets := .ofList entries }
    let env := ((Environment.ofVariables "/".toList [("A".toList, "old".toList)]).set
      "B".toList "old".toList).set "S".toList "kept".toList
    let order := entries.reverse
    let host := Host.start .bare Place.root
    order.Perm config.presets.entries ∧
      env.preset order = (Session.configured config env host LogState.intact).env ∧
      (env.preset order).exported = entries ∧
      (env.preset order).get? "S".toList = some "kept".toList := by
  intro entries config env order host
  have horder : order.Perm config.presets.entries := by decide +kernel
  obtain ⟨hsame, -⟩ := configured_in_any_order config env host LogState.intact horder
  exact ⟨horder, hsame, by decide +kernel, by decide +kernel⟩

end Session

end LineShell
