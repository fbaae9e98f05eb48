import LineShell.Proofs.Host.Outline

/-!
# Preparing a process

What a process is made of is decided by the tree and the open files.  The working directory has no
other part in it than its place, once its path leads to a directory that may be searched.  The
process is that of the file that its path leads to from there, or of the interpreter of a script.
-/

namespace LineShell

def Script.argv (script : Script) (path : Text) (args : List Text) : List Text :=
  script.interpreter :: script.argument.toList ++ path :: args

/-- The process that a file comes to on a host, for a path that leads to it and its arguments: its
own, unless it is a script.  A script's process is that of an interpreter, by the name that is its
first argument; its arguments end in those of the script's interpreter, which may be a script
again. -/
structure Process.Runs (p : Process) (h : Host) (path : Text) (argv : List Text) (place : Place)
    (content : Bytes) : Prop where
  own : Script.ofContent? content = none → p.image = place ∧ p.argv = argv
  interpreted : ∀ script, Script.ofContent? content = some script →
    script.argv path argv.tail <:+ p.argv ∧ ∃ name args inner,
      p.argv = name :: args ∧ h.openInterpreter p.workDir name = .ok (p.image, inner)

namespace Process.Runs

variable {h : Host} {place place' : Place} {content content' : Bytes}

theorem program (hscript : Script.ofContent? content = none) (place : Place)
    (argv environ : List Text) (dir : Place) {path : Text} :
    Process.Runs ⟨place, argv, environ, dir⟩ h path argv place content :=
  ⟨fun _ => ⟨rfl, rfl⟩, fun _ hsome => by rw [hscript] at hsome; cases hsome⟩

theorem script {p : Process} {script : Script} {path : Text} {argv : List Text}
    (hopen : h.openInterpreter p.workDir script.interpreter = .ok (place', content'))
    (hruns : p.Runs h script.interpreter (script.argv path argv.tail) place' content')
    (hscript : Script.ofContent? content = some script) : p.Runs h path argv place content where
  own := by
    intro hnone
    rw [hscript] at hnone
    cases hnone
  interpreted := by
    intro script' hscript'
    rw [hscript] at hscript'
    cases hscript'
    cases hinner : Script.ofContent? content' with
    | none =>
        obtain ⟨rfl, hargv⟩ := hruns.own hinner
        exact ⟨hargv ▸ List.suffix_refl _, _, _, content', hargv, hopen⟩
    | some inner =>
        obtain ⟨hsuffix, himage⟩ := hruns.interpreted inner hinner
        exact ⟨(List.suffix_append _ _).trans hsuffix, himage⟩

end Process.Runs

namespace Host

variable {h k : Host}

theorem openProgram_congr (htree : h.tree = k.tree) (hfiles : h.files = k.files) (dir : Place)
    (path : Text) : h.openProgram dir path = k.openProgram dir path := by
  unfold openProgram
  rw [htree, hfiles]

theorem openProgram_ne_of_isWriting {p : Place} (hbusy : h.files.isWriting p = true)
    (dir : Place) (path : Text) (content : Bytes) : h.openProgram dir path ≠ .ok (p, content) := by
  intro hopen
  unfold openProgram at hopen
  split at hopen
  · cases hopen
  · split at hopen
    · cases hopen
    · split at hopen
      · cases hopen
      · next hidle =>
          cases hopen
          exact hidle hbusy
  · cases hopen

section OneFile

variable {f : Place} (htree : ∀ p, p ≠ f → h.tree.get? p = k.tree.get? p)
  (hfiles : ∀ p, p ≠ f → h.files.isWriting p = k.files.isWriting p)
  (hbusy : k.files.isWriting f = true) {dir : Place} {path : Text}
  (hother : ∀ program, h.openProgram dir path ≠ .ok (f, program))

include htree hfiles hbusy hother

theorem openProgram_eq_of_file {p : Place} {mode mode' : Mode} {program program' : Bytes}
    (hmode : mode.permissions = mode'.permissions)
    (hfind : h.tree.find dir path = .ok (p, .file mode program))
    (hfind' : k.tree.find dir path = .ok (p, .file mode' program')) :
    h.openProgram dir path = k.openProgram dir path := by
  have hexec : mode.executable = mode'.executable := by
    rw [← Mode.executable_permissions mode, hmode, Mode.executable_permissions]
  unfold openProgram at hother ⊢
  simp only [hfind, hfind', hexec] at hother ⊢
  by_cases hp : p = f
  · -- the file is written to on both hosts, or is not the program
    subst hp
    cases hmode' : mode'.executable with
    | false => rfl
    | true =>
        cases hwriting : h.files.isWriting p with
        | true => simp [hbusy]
        | false => exact absurd (by simp [hmode', hwriting]) (hother program)
  · have hentry := htree p hp
    rw [FileTree.get?_of_find hfind', FileTree.get?_of_find hfind] at hentry
    cases hentry
    rw [hfiles p hp]

/-- Hosts of one outline that differ in one file only open the same programs, if the second writes
to the file and the first does not open it as a program. -/
theorem SameOutline.openProgram_eq (hk : h.SameOutline k) :
    h.openProgram dir path = k.openProgram dir path := by
  have hprogram := @openProgram_eq_of_file h k f htree hfiles hbusy dir path hother
  rcases FileTree.find_cases hk.tree dir path with heq | ⟨p, m, c, m', c', hh, hk', hm⟩
  · cases hfind : h.tree.find dir path with
    | error e =>
        rw [hfind] at heq
        simp only [openProgram, hfind, ← heq]
    | ok found =>
        obtain ⟨p, entry⟩ := found
        rw [hfind] at heq
        cases entry with
        | file mode program => exact hprogram rfl hfind heq.symm
        | directory mode => simp only [openProgram, hfind, ← heq]
        | link t => simp only [openProgram, hfind, ← heq]
        | device d => simp only [openProgram, hfind, ← heq]
  · exact hprogram hm hh hk'

end OneFile

theorem load_congr {dir : Place} (hopen : ∀ path, h.openProgram dir path = k.openProgram dir path)
    (environ : List Text) (scripts : Nat) (path : Text) (argv : List Text) (place : Place)
    (content : Bytes) :
    h.load dir environ scripts path argv place content =
      k.load dir environ scripts path argv place content := by
  have hinterpreter : ∀ name, h.openInterpreter dir name = k.openInterpreter dir name :=
    fun name => hopen _
  induction scripts generalizing path argv place content with
  | zero =>
      unfold load
      simp only [hinterpreter]
      split
      · rfl
      · split
        · rfl
        · next script _ => cases k.openInterpreter dir script.interpreter <;> rfl
  | succ scripts ih =>
      unfold load
      simp only [hinterpreter]
      split
      · rfl
      · split
        · rfl
        · next script _ =>
            cases k.openInterpreter dir script.interpreter with
            | error e => rfl
            | ok found => simp only [ih]

def prepareIn (h : Host) (dir : Place) (program : Text) (argv environ : List Text) :
    Except IOError Process :=
  if '\x00' ∈ program ∨ (argv ++ environ).any (·.contains '\x00') then .error .nulInData
  else
    match h.openProgram dir program with
    | .error e => .error e
    | .ok (place, content) =>
        if (argv ++ environ).any (Path.isTooLong (maxArgument - 1)) then
          .error (.os .argumentsTooLong)
        else h.load dir environ maxScripts program argv place content

theorem prepare_eq_prepareIn {workDir : Text} {dir : Place} {mode : Mode}
    (hnul : '\x00' ∉ workDir) (hdir : h.find workDir = .ok (dir, .directory mode))
    (hmode : mode.executable = true) (program : Text) (argv environ : List Text) :
    h.prepare program argv environ workDir = h.prepareIn dir program argv environ := by
  simp only [prepare, hdir, hmode, hnul, or_false, Bool.not_true, Bool.false_eq_true, if_false]
  rfl

theorem SameOutline.prepare_eq (hk : h.SameOutline k)
    (hopen : ∀ dir path, h.openProgram dir path = k.openProgram dir path) (program : Text)
    (argv environ : List Text) (workDir : Text) :
    h.prepare program argv environ workDir = k.prepare program argv environ workDir := by
  unfold prepare
  rcases hk.find_cases workDir with heq | ⟨p, m, c, m', c', hh, hk', -⟩
  · simp only [heq, hopen, load_congr (hopen _)]
  · simp only [hh, hk']

theorem prepare_congr (htree : h.tree = k.tree) (hfiles : h.files = k.files)
    (hworkDir : h.workDir = k.workDir) (program : Text) (argv environ : List Text)
    (workDir : Text) :
    h.prepare program argv environ workDir = k.prepare program argv environ workDir :=
  SameOutline.prepare_eq ⟨hworkDir, htree ▸ .refl h.tree⟩ (openProgram_congr htree hfiles) program
    argv environ workDir

/-! ## What a process is -/

theorem ofContent?_image {content : Bytes} (himage : Reporter.image.isPrefixOf content = true) :
    Script.ofContent? content = none := by
  obtain ⟨rest, rfl⟩ := List.isPrefixOf_iff_prefix.mp himage
  rfl

theorem load_cases {dir place : Place} {environ argv : List Text} {scripts : Nat} {path : Text}
    {content : Bytes} {p : Process}
    (hload : h.load dir environ scripts path argv place content = .ok p) :
    Script.ofContent? content = none ∧ p = ⟨place, argv, environ, dir⟩ ∨
      ∃ script fewer place' content', Script.ofContent? content = some script ∧
        scripts = fewer + 1 ∧ h.openInterpreter dir script.interpreter = .ok (place', content') ∧
        h.load dir environ fewer script.interpreter (script.argv path argv.tail) place' content' =
          .ok p := by
  unfold load at hload
  split at hload
  · next himage =>
      cases hload
      exact .inl ⟨ofContent?_image himage, rfl⟩
  · split at hload
    · cases hload
    · next script hscript =>
        split at hload
        · cases hload
        · cases hload
        · next place' content' fewer hopen =>
            exact .inr ⟨script, fewer, place', content', hscript, rfl, hopen, hload⟩

theorem load_eq_ok {dir place : Place} {environ argv : List Text} {scripts : Nat} {path : Text}
    {content : Bytes} {p : Process}
    (hload : h.load dir environ scripts path argv place content = .ok p) :
    p.environ = environ ∧ p.workDir = dir ∧ p.Runs h path argv place content := by
  induction scripts generalizing path argv place content with
  | zero =>
      rcases load_cases hload with ⟨hscript, rfl⟩ | ⟨_, _, _, _, _, hscripts, _, _⟩
      · exact ⟨rfl, rfl, .program hscript place argv environ dir⟩
      · cases hscripts
  | succ scripts ih =>
      rcases load_cases hload with
        ⟨hscript, rfl⟩ | ⟨script, _, place', content', hscript, hscripts, hopen, hnext⟩
      · exact ⟨rfl, rfl, .program hscript place argv environ dir⟩
      · cases hscripts
        obtain ⟨henviron, rfl, hruns⟩ := ih hnext
        exact ⟨henviron, rfl, .script hopen hruns hscript⟩

theorem workDir_of_prepareIn {dir : Place} {program : Text} {argv environ : List Text}
    {p : Process} (hprepare : h.prepareIn dir program argv environ = .ok p) : p.workDir = dir := by
  unfold prepareIn at hprepare
  split at hprepare
  · cases hprepare
  · split at hprepare
    · cases hprepare
    · split at hprepare
      · cases hprepare
      · exact (load_eq_ok hprepare).2.1

theorem openProgram_eq_ok {dir place : Place} {path : Text} {content : Bytes}
    (hopen : h.openProgram dir path = .ok (place, content)) :
    ∃ mode, h.tree.find dir path = .ok (place, .file mode content) ∧ mode.executable = true := by
  unfold openProgram at hopen
  split at hopen
  · cases hopen
  · next found mode content' hfind =>
      split at hopen
      · cases hopen
      · next hmode =>
          split at hopen
          · cases hopen
          · cases hopen
            exact ⟨mode, hfind, by simpa using hmode⟩
  · cases hopen

theorem prepare_eq_ok {program : Text} {argv environ : List Text} {workDir : Text} {p : Process}
    (hprepare : h.prepare program argv environ workDir = .ok p) :
    p.environ = environ ∧
      (∃ mode, h.find workDir = .ok (p.workDir, .directory mode) ∧ mode.executable = true) ∧
      ∃ place mode content, h.tree.find p.workDir program = .ok (place, .file mode content) ∧
        mode.executable = true ∧ p.Runs h program argv place content := by
  unfold prepare at hprepare
  split at hprepare
  · cases hprepare
  · split at hprepare
    · cases hprepare
    · next dir dirMode hdir =>
        split at hprepare
        · cases hprepare
        · next hsearch =>
            split at hprepare
            · cases hprepare
            · next place content hopen =>
                split at hprepare
                · cases hprepare
                · obtain ⟨henviron, rfl, hruns⟩ := load_eq_ok hprepare
                  obtain ⟨mode, hfind, hmode⟩ := openProgram_eq_ok hopen
                  exact ⟨henviron, ⟨dirMode, hdir, by simpa using hsearch⟩,
                    place, mode, content, hfind, hmode, hruns⟩
    · cases hprepare

end Host

end LineShell
