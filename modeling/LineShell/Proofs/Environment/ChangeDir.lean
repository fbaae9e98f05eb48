import LineShell.Builtin

/-!
# Changing the working directory

A directory that may be searched becomes the working directory under its own path, if that can be
spelled out, and nothing else of the environment changes.  Of the builtins only a `cd` that prints
nothing gets there.
-/

namespace LineShell

/-- What a path leads to is looked up three times, each time with the same answer. -/
theorem Environment.changeDir_eq (env : Environment) (h : Host) (path : Text) :
    env.changeDir h path =
      match h.find (env.resolve path) with
      | .error e => .error e
      | .ok (p, entry) =>
          if !entry.isDirectory then .error (.os .notDirectory)
          else if !entry.isPassable then .error (.os .accessDenied)
          else if h.tree.isSpellable h.workDir (env.resolve path) then
            .ok { env with cwd := p.path }
          else .error (.os .nameTooLong) := by
  unfold changeDir Host.mayPass Host.canonicalize
  dsimp only
  cases h.find (env.resolve path) with
  | error e => rfl
  | ok found =>
      obtain ⟨p, entry⟩ := found
      dsimp only
      split
      · rfl
      · cases entry.isPassable <;> cases h.tree.isSpellable h.workDir (env.resolve path) <;> rfl

theorem Environment.changeDir_eq_ok_iff {env moved : Environment} {h : Host} {path : Text} :
    env.changeDir h path = .ok moved ↔
      ∃ p mode, h.find (env.resolve path) = .ok (p, .directory mode) ∧ mode.executable = true ∧
        h.tree.isSpellable h.workDir (env.resolve path) = true ∧
        moved = { env with cwd := p.path } := by
  rw [changeDir_eq]
  cases hfind : h.find (env.resolve path) with
  | error e => simp
  | ok found =>
      obtain ⟨p, entry⟩ := found
      cases entry with
      | directory mode =>
          cases hmode : mode.executable with
          | false => simp [Entry.isDirectory, Entry.isPassable, hmode]
          | true =>
              cases hspell : h.tree.isSpellable h.workDir (env.resolve path) with
              | false => simp [Entry.isDirectory, Entry.isPassable, hmode]
              | true =>
                  simp only [Entry.isDirectory, Entry.isPassable, hmode]
                  constructor
                  · intro hmoved
                    cases hmoved
                    exact ⟨p, mode, rfl, hmode, trivial, rfl⟩
                  · rintro ⟨q, mode', hfound, -, -, rfl⟩
                    cases hfound
                    rfl
      | file mode content => simp [Entry.isDirectory]
      | link target => simp [Entry.isDirectory]
      | device device => simp [Entry.isDirectory]

theorem Environment.vars_changeDir {env moved : Environment} {h : Host} {path : Text}
    (hmoved : env.changeDir h path = .ok moved) : moved.vars = env.vars := by
  obtain ⟨p, mode, -, -, -, rfl⟩ := changeDir_eq_ok_iff.mp hmoved
  rfl

theorem Builtin.env_run (b : Builtin) (args : List Text) (env : Environment) (h : Host) :
    (b.run args env h).env = env ∨
      b = .cd ∧ ∃ target moved, env.changeDir h target = .ok moved ∧
        b.run args env h = ⟨[], .code 0, moved⟩ := by
  cases b with
  | exit => exact .inl rfl
  | echo => exact .inl rfl
  | pwd => exact .inl rfl
  | type =>
      left
      unfold run runType
      cases args with
      | nil => rfl
      | cons arg later =>
          dsimp only
          split
          · rfl
          · split <;> rfl
  | cd =>
      unfold run runCd
      cases args with
      | nil => exact .inl rfl
      | cons arg later =>
          dsimp only
          split
          · exact .inl rfl
          · next target htarget =>
              cases hmoved : env.changeDir h target with
              | error e => exact .inl rfl
              | ok moved => exact .inr ⟨rfl, target, moved, hmoved, rfl⟩

end LineShell
