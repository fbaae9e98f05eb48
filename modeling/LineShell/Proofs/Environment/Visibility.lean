import LineShell.Proofs.Dictionary
import LineShell.Proofs.Environment.ChangeDir

/-!
# What is seen of the variables

Programs are given the exported variables, and of the others only the search path and the home
directory are ever looked up.  So environments that are alike in these, in the working directory
and in the status give the same answers, whatever else they hold.
-/

namespace LineShell

namespace Environment

/-- Environments that may differ in the variables that are not exported, but for the search path
and the home directory. -/
structure Alike (env env' : Environment) : Prop where
  exported : ∀ pair, pair ∈ env.exported ↔ pair ∈ env'.exported
  searchPath : env.get? Lookup.searchVariable = env'.get? Lookup.searchVariable
  home : env.get? Builtin.homeVariable = env'.get? Builtin.homeVariable
  cwd : env.cwd = env'.cwd
  status : env.status = env'.status

theorem ordered_exported (env : Environment) : Ordered env.exported := by
  have hfiltered : Ordered (env.vars.entries.filter (·.2.exported)) :=
    env.vars.ordered.filter _
  exact List.pairwise_map.mpr hfiltered

namespace Alike

variable {env env' : Environment}

theorem block_eq (h : Alike env env') : env.block = env'.block := by
  have hexported : env.exported = env'.exported :=
    env.ordered_exported.eq_of_mem_iff env'.ordered_exported h.exported
  rw [block, block, hexported]

theorem resolve_eq (h : Alike env env') (path : Text) : env.resolve path = env'.resolve path := by
  rw [resolve, resolve, h.cwd]

theorem resolveIn_eq (h : Alike env env') (host : Host) (name : Text) :
    Lookup.resolveIn host env name = Lookup.resolveIn host env' name := by
  rw [Lookup.resolveIn, Lookup.resolveIn, h.searchPath, h.cwd]

theorem setStatus (h : Alike env env') (status : Int) :
    Alike (env.setStatus status) (env'.setStatus status) :=
  ⟨h.exported, h.searchPath, h.home, h.cwd, rfl⟩

theorem moveTo (h : Alike env env') (cwd : Text) :
    Alike { env with cwd := cwd } { env' with cwd := cwd } :=
  ⟨h.exported, h.searchPath, h.home, rfl, h.status⟩

theorem changeDir (h : Alike env env') (host : Host) (path : Text) :
    (∃ e, env.changeDir host path = .error e ∧ env'.changeDir host path = .error e) ∨
      ∃ cwd, env.changeDir host path = .ok { env with cwd := cwd } ∧
        env'.changeDir host path = .ok { env' with cwd := cwd } := by
  rw [changeDir_eq, changeDir_eq, ← h.resolve_eq]
  cases host.find (env.resolve path) with
  | error e => exact .inl ⟨e, rfl, rfl⟩
  | ok found =>
      obtain ⟨p, entry⟩ := found
      dsimp only
      split
      · exact .inl ⟨_, rfl, rfl⟩
      · split
        · exact .inl ⟨_, rfl, rfl⟩
        · split
          · exact .inr ⟨p.path, rfl, rfl⟩
          · exact .inl ⟨_, rfl, rfl⟩

end Alike

end Environment

structure BuiltinResult.Alike (r r' : BuiltinResult) : Prop where
  pieces : r.pieces = r'.pieces
  outcome : r.outcome = r'.outcome
  env : r.env.Alike r'.env

namespace Environment.Alike

variable {env env' : Environment}

theorem runCd (h : Alike env env') (args : List Text) (host : Host) :
    (Builtin.runCd args env host).Alike (Builtin.runCd args env' host) := by
  cases args with
  | nil => exact ⟨rfl, rfl, h⟩
  | cons arg later =>
      unfold Builtin.runCd
      dsimp only
      rw [← h.home]
      cases (if arg = ['~'] then env.get? Builtin.homeVariable else some arg) with
      | none => exact ⟨rfl, rfl, h⟩
      | some target =>
          dsimp only
          rcases h.changeDir host target with ⟨e, hrefused, hrefused'⟩ | ⟨cwd, hmoved, hmoved'⟩
          · rw [hrefused, hrefused']
            exact ⟨rfl, rfl, h⟩
          · rw [hmoved, hmoved']
            exact ⟨rfl, rfl, h.moveTo cwd⟩

theorem runType (h : Alike env env') (args : List Text) (host : Host) :
    (Builtin.runType args env host).Alike (Builtin.runType args env' host) := by
  cases args with
  | nil => exact ⟨rfl, rfl, h⟩
  | cons arg later =>
      unfold Builtin.runType
      dsimp only
      rw [← h.resolveIn_eq]
      cases Builtin.ofName? arg with
      | some b => exact ⟨rfl, rfl, h⟩
      | none =>
          dsimp only
          cases Lookup.resolveIn host env arg <;> exact ⟨rfl, rfl, h⟩

theorem runBuiltin (h : Alike env env') (b : Builtin) (args : List Text) (host : Host) :
    (b.run args env host).Alike (b.run args env' host) := by
  cases b with
  | exit | echo => exact ⟨rfl, rfl, h⟩
  | pwd =>
      refine ⟨?_, rfl, h⟩
      simp only [Builtin.run, h.cwd]
  | cd => exact h.runCd args host
  | type => exact h.runType args host

end Environment.Alike

end LineShell
