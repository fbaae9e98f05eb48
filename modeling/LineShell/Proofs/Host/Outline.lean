import LineShell.Builtin
import LineShell.Host.Launch
import Mathlib.Tactic.NormNum

/-!
# What paths and builtins see of a tree

A walk, the checks on a path and the builtins look at directories, links and the permissions of
files, and never at what a file holds.  Two trees that agree in all but that give the same answers.
-/

namespace LineShell

def Mode.permissions (m : Mode) : Mode := m % 0o1000

private theorem sub_bit_mod {n weight : Nat} {lent : Prop} [Decidable lent] (bit : Nat)
    (hweight : 2 ^ bit = weight) (hrest : weight % 0o1000 = 0) (h : lent → n.testBit bit = true) :
    (if lent then n - weight else n) % 0o1000 = n % 0o1000 := by
  split
  · next hlent =>
      have hle := Nat.ge_two_pow_of_testBit (h hlent)
      omega
  · rfl

@[simp] theorem Mode.permissions_afterWrite (m : Mode) :
    m.afterWrite.permissions = m.permissions := by
  have huser : (if m.testBit 11 then m - 0o4000 else m) % 0o1000 = m % 0o1000 :=
    sub_bit_mod 11 (by norm_num) (by norm_num) id
  exact (sub_bit_mod 10 (by norm_num) (by norm_num)
    fun h => (Bool.and_eq_true_iff.mp h).1).trans huser

theorem Mode.executable_permissions (m : Mode) : m.permissions.executable = m.executable := by
  have hbit := Nat.testBit_mod_two_pow m 9 6
  simpa [Mode.permissions, Mode.executable] using hbit

theorem Mode.writable_permissions (m : Mode) : m.permissions.writable = m.writable := by
  have hbit := Nat.testBit_mod_two_pow m 9 7
  simpa [Mode.permissions, Mode.writable] using hbit

namespace Entry

def outline : Entry → Entry
  | file mode _ => file mode.permissions []
  | e => e

theorem outline_cases {a b : Option Entry} (h : a.map outline = b.map outline) :
    a = b ∨ ∃ m c m' c', a = some (.file m c) ∧ b = some (.file m' c') ∧
      m.permissions = m'.permissions := by
  cases a with
  | none => cases b <;> simp_all
  | some a =>
      cases b with
      | none => simp at h
      | some b => cases a <;> cases b <;> simp_all [outline]

theorem isPassable_file {m m' : Mode} (c c' : Bytes) (h : m.permissions = m'.permissions) :
    (file m c).isPassable = (file m' c').isPassable := by
  simp only [isPassable]
  rw [← Mode.executable_permissions m, h, Mode.executable_permissions]

end Entry

namespace FileTree

def SameOutline (t t' : FileTree) : Prop :=
  ∀ p, (t.get? p).map Entry.outline = (t'.get? p).map Entry.outline

namespace SameOutline

variable {t t' : FileTree}

theorem refl (t : FileTree) : t.SameOutline t := fun _ => rfl

theorem isSearchable_eq (h : t.SameOutline t') (p : Place) :
    t.isSearchable p = t'.isSearchable p := by
  unfold isSearchable
  rcases Entry.outline_cases (h p) with heq | ⟨m, c, m', c', hp, hp', -⟩
  · rw [heq]
  · rw [hp, hp']

theorem isWritable_eq (h : t.SameOutline t') (p : Place) : t.isWritable p = t'.isWritable p := by
  unfold isWritable
  rcases Entry.outline_cases (h p) with heq | ⟨m, c, m', c', hp, hp', -⟩
  · rw [heq]
  · rw [hp, hp']

theorem follow_eq (h : t.SameOutline t') {intent : Intent}
    {jump jump' : Place → Text → List Path.Step → Bool → Except Errno Arrival}
    (hjump : ∀ here target rest slash,
      jump here target rest slash = jump' here target rest slash)
    (here : Place) (steps : List Path.Step) (slash : Bool) :
    t.follow intent jump here steps slash = t'.follow intent jump' here steps slash := by
  induction steps generalizing here with
  | nil => simp [follow]
  | cons step rest ih =>
      unfold follow
      rw [h.isSearchable_eq here]
      cases step with
      | stay => simp [ih]
      | up => simp [ih]
      | down name =>
          rcases Entry.outline_cases (h (name :: here)) with heq | ⟨m, c, m', c', hp, hp', -⟩
          · simp only [heq, ih, hjump]
          · simp only [hp, hp']

theorem walk_eq (h : t.SameOutline t') (intent : Intent) (links : Nat) (here : Place)
    (steps : List Path.Step) (slash : Bool) :
    t.walk intent links here steps slash = t'.walk intent links here steps slash := by
  induction links generalizing here steps slash with
  | zero =>
      unfold walk
      exact h.follow_eq (fun _ _ _ _ => rfl) here steps slash
  | succ links ih =>
      unfold walk
      exact h.follow_eq (fun _ _ _ _ => ih _ _ _) here steps slash

theorem locate_eq (h : t.SameOutline t') (start : Place) (intent : Intent) (path : Text) :
    t.locate start intent path = t'.locate start intent path := by
  unfold locate
  rw [h.walk_eq]

theorem spell_eq (h : t.SameOutline t')
    {jump jump' : Place → Text → List Path.Step → Bool → Bool}
    (hjump : ∀ here target rest slash,
      jump here target rest slash = jump' here target rest slash)
    (here : Place) (steps : List Path.Step) (slash : Bool) :
    t.spell jump here steps slash = t'.spell jump' here steps slash := by
  induction steps generalizing here with
  | nil => simp [spell]
  | cons step rest ih =>
      unfold spell
      cases step with
      | stay => exact ih here
      | up => exact ih here.parent
      | down name =>
          rcases Entry.outline_cases (h (name :: here)) with heq | ⟨m, c, m', c', hp, hp', -⟩
          · simp only [heq, ih, hjump]
          · simp only [hp, hp']

theorem spells_eq (h : t.SameOutline t') (links : Nat) (here : Place) (steps : List Path.Step)
    (slash : Bool) : t.spells links here steps slash = t'.spells links here steps slash := by
  induction links generalizing here steps slash with
  | zero =>
      unfold spells
      exact h.spell_eq (fun _ _ _ _ => rfl) here steps slash
  | succ links ih =>
      unfold spells
      exact h.spell_eq (fun _ _ _ _ => ih _ _ _) here steps slash

end SameOutline

theorem sameOutline_put_afterWrite {t : FileTree} {p : Place} {perms : Mode} {content : Bytes}
    (hfile : t.get? p = some (.file perms content)) (after : Bytes) :
    t.SameOutline (t.put p (.file perms.afterWrite after)) := by
  intro q
  rw [get?_put]
  split
  · next heq =>
      rw [heq, hfile]
      simp [Entry.outline]
  · rfl

theorem get?_of_find {t : FileTree} {start p : Place} {path : Text} {e : Entry}
    (h : t.find start path = .ok (p, e)) : t.get? p = some e := by
  unfold find at h
  split at h
  · cases h
  · cases h
  · split at h
    · cases h
    · next q heq e' he =>
        cases h
        exact he

theorem find_cases {t t' : FileTree} (h : t.SameOutline t') (start : Place) (path : Text) :
    t.find start path = t'.find start path ∨
      ∃ p m c m' c', t.find start path = .ok (p, .file m c) ∧
        t'.find start path = .ok (p, .file m' c') ∧ m.permissions = m'.permissions := by
  unfold find
  rw [← h.locate_eq]
  cases t.locate start .find path with
  | error e => exact .inl rfl
  | ok arrival =>
      cases arrival with
      | vacant p => exact .inl rfl
      | found p =>
          rcases Entry.outline_cases (h p) with heq | ⟨m, c, m', c', hp, hp', hm⟩
          · exact .inl (by simp only [heq])
          · exact .inr ⟨p, m, c, m', c', by simp only [hp], by simp only [hp'], hm⟩

end FileTree

namespace Host

structure SameOutline (h k : Host) : Prop where
  workDir : h.workDir = k.workDir
  tree : h.tree.SameOutline k.tree

variable {h k : Host}

theorem SameOutline.find_cases (hk : h.SameOutline k) (path : Text) :
    h.find path = k.find path ∨
      ∃ p m c m' c', h.find path = .ok (p, .file m c) ∧ k.find path = .ok (p, .file m' c') ∧
        m.permissions = m'.permissions := by
  unfold find
  rw [← hk.workDir]
  exact FileTree.find_cases hk.tree h.workDir path

theorem SameOutline.mayPass_eq (hk : h.SameOutline k) (path : Text) :
    h.mayPass path = k.mayPass path := by
  unfold mayPass
  rcases hk.find_cases path with heq | ⟨p, m, c, m', c', hh, hk, hm⟩
  · rw [heq]
  · simp only [hh, hk, Entry.isPassable_file c c' hm]

theorem SameOutline.canonicalize_eq (hk : h.SameOutline k) (path : Text) :
    h.canonicalize path = k.canonicalize path := by
  have hspell : h.tree.isSpellable h.workDir path = k.tree.isSpellable k.workDir path := by
    unfold FileTree.isSpellable
    rw [hk.workDir, hk.tree.spells_eq]
  unfold canonicalize
  rw [hspell]
  rcases hk.find_cases path with heq | ⟨p, m, c, m', c', hh, hk, -⟩
  · rw [heq]
  · rw [hh, hk]

theorem SameOutline.isExecutable_eq (hk : h.SameOutline k) (path : Text) :
    h.isExecutable path = k.isExecutable path := by
  unfold isExecutable
  rw [hk.mayPass_eq]
  rcases hk.find_cases path with heq | ⟨p, m, c, m', c', hh, hk, -⟩
  · rw [heq]
  · rw [hh, hk]

theorem SameOutline.changeDir_eq (hk : h.SameOutline k) (env : Environment) (path : Text) :
    env.changeDir h path = env.changeDir k path := by
  unfold Environment.changeDir
  simp only [hk.mayPass_eq, hk.canonicalize_eq]
  rcases hk.find_cases (env.resolve path) with heq | ⟨p, m, c, m', c', hh, hk, -⟩
  · rw [heq]
  · rw [hh, hk]
    rfl

theorem SameOutline.resolveIn_eq (hk : h.SameOutline k) (env : Environment) (name : Text) :
    Lookup.resolveIn h env name = Lookup.resolveIn k env name := by
  have hexec : h.isExecutable = k.isExecutable := funext hk.isExecutable_eq
  unfold Lookup.resolveIn Lookup.resolve
  rw [hexec]

theorem SameOutline.run_eq (hk : h.SameOutline k) (b : Builtin) (args : List Text)
    (env : Environment) : b.run args env h = b.run args env k := by
  cases b with
  | exit => rfl
  | echo => rfl
  | pwd => rfl
  | cd => simp only [Builtin.run, Builtin.runCd, hk.changeDir_eq]
  | type => simp only [Builtin.run, Builtin.runType, hk.resolveIn_eq]

end Host

end LineShell
