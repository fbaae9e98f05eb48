import LineShell.Proofs.Environment.ChangeDir
import LineShell.Proofs.Environment.Presets
import LineShell.Proofs.Environment.Visibility

/-!
# Histories of an environment

Whatever is done with an environment, in whatever order: a variable has the value that it was given
last, and it is exported if the environment began with it or if it was there at a moment at which it
was exported.  The directory and the status have no part in that, nor the variables in them.
-/

namespace LineShell

namespace Environment

/-- What can be done with an environment.  A move meets the host as it is then. -/
inductive Operation where
  | set (name value : Text)
  | markExported (name : Text)
  | setStatus (status : Int)
  | changeDir (h : Host) (path : Text)

namespace Operation

def value? (name : Text) : Operation → Option Text
  | set other value => if name = other then some value else none
  | _ => none

def status? : Operation → Option Int
  | setStatus status => some status
  | _ => none

def isMove : Operation → Bool
  | changeDir _ _ => true
  | _ => false

def latest? {α : Type} (tells : Operation → Option α) (history : List Operation) : Option α :=
  history.reverse.findSome? tells

theorem latest?_cons {α : Type} (tells : Operation → Option α) (op : Operation)
    (rest : List Operation) : latest? tells (op :: rest) = (latest? tells rest).or (tells op) := by
  simp only [latest?, List.reverse_cons, List.findSome?_append, List.findSome?_singleton]

end Operation

def apply (env : Environment) : Operation → Environment
  | .set name value => env.set name value
  | .markExported name => env.markExported name
  | .setStatus status => env.setStatus status
  | .changeDir h path =>
      match env.changeDir h path with
      | .ok moved => moved
      | .error _ => env

def after (env : Environment) (history : List Operation) : Environment := history.foldl apply env

def Exports (env : Environment) (name : Text) : Prop := ∃ value, (name, value) ∈ env.exported

variable {env : Environment} {name : Text}

theorem exports_iff :
    env.Exports name ↔ (env.vars.get? name).map (·.exported) = some true := by
  simp only [Exports, mem_exported_iff]
  cases env.vars.get? name with
  | none => simp
  | some v =>
      obtain ⟨value, exported⟩ := v
      simp

theorem get?_of_mem_exported {value : Text} (h : (name, value) ∈ env.exported) :
    env.get? name = some value := by
  rw [get?, mem_exported_iff.mp h]
  rfl

theorem nodup_exported (env : Environment) : (env.exported.map (·.1)).Nodup := by
  refine List.pairwise_map.mpr (env.ordered_exported.imp fun {a b} hlt heq => ?_)
  rw [heq] at hlt
  exact List.lt_irrefl _ hlt

/-! ## One operation -/

theorem markExported_eq (env : Environment) (name : Text) :
    env.markExported name = { env with vars := (env.markExported name).vars } := by
  unfold markExported
  split <;> rfl

theorem get?_vars_markExported (env : Environment) (name other : Text) :
    (env.markExported name).vars.get? other =
      if other = name then (env.vars.get? name).map fun v => { v with exported := true }
      else env.vars.get? other := by
  unfold markExported
  split
  · next hnone =>
      split
      · next heq =>
          rw [heq, hnone]
          rfl
      · rfl
  · next v hsome =>
      rw [Dictionary.get?_insert, hsome]
      rfl

/-- Where a move ends: in the directory that the path leads to, if it may be searched and its path
be spelled out, or else where it started. -/
def arrival (h : Host) (cwd path : Text) : Text :=
  match h.find (Path.join cwd path) with
  | .ok (p, .directory mode) =>
      if mode.executable ∧ h.tree.isSpellable h.workDir (Path.join cwd path) then p.path else cwd
  | _ => cwd

theorem apply_changeDir (env : Environment) (h : Host) (path : Text) :
    env.apply (.changeDir h path) = { env with cwd := arrival h env.cwd path } := by
  simp only [apply, changeDir_eq, arrival, resolve]
  cases h.find (Path.join env.cwd path) with
  | error e => rfl
  | ok found =>
      obtain ⟨p, entry⟩ := found
      cases entry with
      | directory mode =>
          by_cases hmode : mode.executable = true <;>
            by_cases hspelled : h.tree.isSpellable h.workDir (Path.join env.cwd path) = true <;>
              simp [Entry.isDirectory, Entry.isPassable, hmode, hspelled]
      | file mode content | link target | device device => rfl

theorem get?_apply (env : Environment) (op : Operation) (name : Text) :
    (env.apply op).get? name = (op.value? name).or (env.get? name) := by
  cases op with
  | set other value =>
      simp only [apply, get?, set, Dictionary.get?_insert, Operation.value?]
      split <;> simp
  | markExported other =>
      simp only [apply, get?, get?_vars_markExported, Operation.value?, Option.none_or]
      split
      · next heq =>
          rw [heq, Option.map_map]
          rfl
      · rfl
  | setStatus status => rfl
  | changeDir h path =>
      rw [apply_changeDir]
      rfl

theorem exports_apply (env : Environment) (op : Operation) (name : Text) :
    (env.apply op).Exports name ↔
      env.Exports name ∨ op = .markExported name ∧ env.get? name ≠ none := by
  simp only [exports_iff]
  cases op with
  | set other value =>
      simp only [apply, set, Dictionary.get?_insert, reduceCtorEq, false_and, or_false]
      split
      · next heq =>
          subst heq
          cases env.vars.get? name <;> simp
      · rfl
  | markExported other =>
      simp only [apply, get?_vars_markExported, Operation.markExported.injEq]
      by_cases heq : name = other
      · subst heq
        cases hvar : env.vars.get? name <;> simp [get?, hvar]
      · simp [heq, Ne.symm heq]
  | setStatus status => simp [apply, setStatus]
  | changeDir h path => simp [apply_changeDir]

theorem status_apply (env : Environment) (op : Operation) :
    (env.apply op).status = (op.status?).getD env.status := by
  cases op with
  | set name value => rfl
  | markExported name =>
      rw [apply, markExported_eq]
      rfl
  | setStatus status => rfl
  | changeDir h path =>
      rw [apply_changeDir]
      rfl

theorem cwd_apply (env : Environment) {op : Operation} (hop : op.isMove = false) :
    (env.apply op).cwd = env.cwd := by
  cases op with
  | set name value => rfl
  | markExported name => rw [apply, markExported_eq]
  | setStatus status => rfl
  | changeDir h path => cases hop

theorem cwd_apply_congr {env' : Environment} {op : Operation} (hop : op.isMove = true)
    (hcwd : env.cwd = env'.cwd) : (env.apply op).cwd = (env'.apply op).cwd := by
  cases op with
  | changeDir h path => rw [apply_changeDir, apply_changeDir, hcwd]
  | _ => cases hop

/-! ## A whole history -/

theorem after_cons (env : Environment) (op : Operation) (rest : List Operation) :
    env.after (op :: rest) = (env.apply op).after rest := rfl

theorem get?_after (env : Environment) (history : List Operation) (name : Text) :
    (env.after history).get? name =
      (Operation.latest? (Operation.value? name) history).or (env.get? name) := by
  induction history generalizing env with
  | nil => rfl
  | cons op rest ih =>
      rw [after_cons, ih, get?_apply, Operation.latest?_cons, Option.or_assoc]

theorem exports_after (env : Environment) (history : List Operation) (name : Text) :
    (env.after history).Exports name ↔ env.Exports name ∨
      ∃ before later, history = before ++ .markExported name :: later ∧
        (env.after before).get? name ≠ none := by
  induction history generalizing env with
  | nil => simp [after]
  | cons op rest ih =>
      rw [after_cons, ih, exports_apply]
      constructor
      · rintro ((hexports | ⟨rfl, hdefined⟩) | ⟨before, later, rfl, hdefined⟩)
        · exact .inl hexports
        · exact .inr ⟨[], rest, rfl, hdefined⟩
        · exact .inr ⟨op :: before, later, rfl, hdefined⟩
      · rintro (hexports | ⟨before, later, hhistory, hdefined⟩)
        · exact .inl (.inl hexports)
        · -- the export that counts is the first operation, or one of those behind it
          cases before with
          | nil =>
              cases hhistory
              exact .inl (.inr ⟨rfl, hdefined⟩)
          | cons first before =>
              cases hhistory
              exact .inr ⟨before, later, rfl, hdefined⟩

theorem status_after (env : Environment) (history : List Operation) :
    (env.after history).status = (Operation.latest? Operation.status? history).getD env.status := by
  induction history generalizing env with
  | nil => rfl
  | cons op rest ih =>
      rw [after_cons, ih, status_apply, Operation.latest?_cons]
      cases Operation.latest? Operation.status? rest <;> rfl

theorem cwd_after {env' : Environment} (hcwd : env.cwd = env'.cwd) (history : List Operation) :
    (env.after history).cwd = (env'.after (history.filter Operation.isMove)).cwd := by
  -- the environments have nothing in common but the directory, which is all that a move needs
  induction history generalizing env env' with
  | nil => exact hcwd
  | cons op rest ih =>
      cases hop : op.isMove with
      | true =>
          rw [List.filter_cons_of_pos hop, after_cons, after_cons]
          exact ih (cwd_apply_congr hop hcwd)
      | false =>
          rw [List.filter_cons_of_neg (by simp [hop]), after_cons]
          exact ih ((cwd_apply env hop).trans hcwd)

/-! ## From the start -/

theorem vars_ofVariables (cwd : Text) (vars : List (Text × Text)) :
    (ofVariables cwd vars).vars = ((ofVariables cwd []).preset vars).vars := by
  rw [preset_eq]
  rfl

theorem get?_vars_ofVariables (cwd : Text) (vars : List (Text × Text)) (name : Text) :
    (ofVariables cwd vars).vars.get? name =
      (vars.reverse.lookup name).map fun value => ⟨value, true⟩ := by
  rw [vars_ofVariables, get?_preset]
  exact Option.or_none

theorem get?_ofVariables (cwd : Text) (vars : List (Text × Text)) (name : Text) :
    (ofVariables cwd vars).get? name = vars.reverse.lookup name := by
  rw [get?, get?_vars_ofVariables]
  cases vars.reverse.lookup name <;> rfl

theorem exports_ofVariables (cwd : Text) (vars : List (Text × Text)) (name : Text) :
    (ofVariables cwd vars).Exports name ↔ ∃ value, (name, value) ∈ vars := by
  rw [exports_iff, get?_vars_ofVariables]
  cases hlookup : vars.reverse.lookup name with
  | none =>
      have hnone := List.lookup_eq_none_iff.mp hlookup
      simp only [Option.map_none, reduceCtorEq, false_iff, not_exists]
      intro value hmem
      simpa using hnone (name, value) (List.mem_reverse.mpr hmem)
  | some value =>
      obtain ⟨before, after, hvars, -⟩ := List.lookup_eq_some_iff.mp hlookup
      have hmem : (name, value) ∈ vars.reverse := by simp [hvars]
      simp only [Option.map_some, true_iff]
      exact ⟨value, List.mem_reverse.mp hmem⟩

/-- What a history leaves of an environment that began with some variables, all of them exported, is
told by the history alone. -/
theorem told_by_history (cwd : Text) (vars : List (Text × Text)) (history : List Operation) :
    let env := (ofVariables cwd vars).after history
    (∀ name, env.get? name =
      (Operation.latest? (Operation.value? name) history).or (vars.reverse.lookup name)) ∧
    (∀ name, env.Exports name ↔ (∃ value, (name, value) ∈ vars) ∨
      ∃ before later, history = before ++ .markExported name :: later ∧
        ((ofVariables cwd vars).after before).get? name ≠ none) ∧
    (env.exported.map (·.1)).Nodup ∧
    (∀ name value, (name, value) ∈ env.exported → env.get? name = some value) ∧
    env.status = (Operation.latest? Operation.status? history).getD 0 ∧
    env.cwd = ((ofVariables cwd []).after (history.filter Operation.isMove)).cwd := by
  intro env
  refine ⟨fun name => ?_, fun name => ?_, nodup_exported env, fun name value => ?_, ?_, ?_⟩
  · rw [get?_after, get?_ofVariables]
  · rw [exports_after, exports_ofVariables]
  · exact get?_of_mem_exported
  · exact status_after _ history
  · have hcwd : (ofVariables cwd vars).cwd = (ofVariables cwd []).cwd := rfl
    exact cwd_after hcwd history

/-- An export that finds no variable is lost, and setting the variable then does not export it. -/
example : ((ofVariables "/".toList [("A".toList, "1".toList)]).after
    [.markExported "B".toList, .set "B".toList "2".toList, .set "A".toList "3".toList]).exported =
      [("A".toList, "3".toList)] := by
  decide +kernel

end Environment

end LineShell
