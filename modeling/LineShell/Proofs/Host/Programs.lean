import LineShell.Proofs.Host.Preparation

/-!
# Programs and a file that is written to

A file that is being written to is no program.  So it makes a difference to the processes of a host
that a file is written to, if it is opened to run one of them, and otherwise none.
-/

namespace LineShell.Host

def interpreterPath (script : Script) : Text :=
  if script.interpreter = [] then ['.'] else script.interpreter

/-- The places of the files that are opened in turn to run what a path leads to: its own, and
while that is a script, those of its interpreters. -/
def programPlaces (h : Host) (dir : Place) : Nat → Text → List Place
  | 0, _ => []
  | files + 1, path =>
      match h.openProgram dir path with
      | .error _ => []
      | .ok (place, content) =>
          place :: match Script.ofContent? content with
            | none => []
            | some script => programPlaces h dir files (interpreterPath script)

section

variable {h k : Host} {dir place f : Place} {files : Nat} {path : Text} {content : Bytes}

theorem openProgram_ne (hother : f ∉ h.programPlaces dir (files + 1) path) (content : Bytes) :
    h.openProgram dir path ≠ .ok (f, content) := by
  intro hopen
  unfold programPlaces at hother
  rw [hopen] at hother
  exact hother List.mem_cons_self

theorem programPlaces_script {script : Script}
    (hother : f ∉ h.programPlaces dir (files + 1) path)
    (hopen : h.openProgram dir path = .ok (place, content))
    (hscript : Script.ofContent? content = some script) :
    f ∉ h.programPlaces dir files (interpreterPath script) := by
  intro hmem
  unfold programPlaces at hother
  rw [hopen] at hother
  simp only [hscript] at hother
  exact hother (List.mem_cons_of_mem place hmem)

end

structure Occupied (f : Place) (h k : Host) : Prop where
  workDir : h.workDir = k.workDir
  tree : h.tree = k.tree
  files : ∀ p, p ≠ f → h.files.isWriting p = k.files.isWriting p
  busy : k.files.isWriting f = true

namespace Occupied

variable {f : Place} {h k : Host}

theorem outline (ho : Occupied f h k) : h.SameOutline k :=
  ⟨ho.workDir, ho.tree ▸ .refl h.tree⟩

theorem openProgram_eq (ho : Occupied f h k) {dir : Place} {path : Text}
    (hother : ∀ program, h.openProgram dir path ≠ .ok (f, program)) :
    h.openProgram dir path = k.openProgram dir path :=
  ho.outline.openProgram_eq (fun p _ => by rw [ho.tree]) ho.files ho.busy hother

theorem openInterpreter_eq (ho : Occupied f h k) {dir : Place} {files : Nat} {script : Script}
    (hother : f ∉ h.programPlaces dir (files + 1) (interpreterPath script)) :
    h.openInterpreter dir script.interpreter = k.openInterpreter dir script.interpreter :=
  ho.openProgram_eq (openProgram_ne hother)

theorem load_eq (ho : Occupied f h k) {dir : Place} (environ : List Text) (scripts : Nat)
    (path : Text) (argv : List Text) (place : Place) (program : Bytes)
    (hother : ∀ script, Script.ofContent? program = some script →
      f ∉ h.programPlaces dir (scripts + 1) (interpreterPath script)) :
    h.load dir environ scripts path argv place program =
      k.load dir environ scripts path argv place program := by
  induction scripts generalizing path argv place program with
  | zero =>
      unfold load
      cases hscript : Script.ofContent? program with
      | none => rfl
      | some script =>
          have heq := ho.openInterpreter_eq (hother script hscript)
          simp only [heq]
          cases k.openInterpreter dir script.interpreter <;> rfl
  | succ scripts ih =>
      unfold load
      cases hscript : Script.ofContent? program with
      | none => rfl
      | some script =>
          have heq := ho.openInterpreter_eq (hother script hscript)
          simp only [← heq]
          cases hfound : h.openInterpreter dir script.interpreter with
          | error e => rfl
          | ok found =>
              obtain ⟨place', program'⟩ := found
              have hnext := ih script.interpreter
                (script.interpreter :: script.argument.toList ++ path :: argv.tail) place' program'
                fun script' hscript' =>
                  programPlaces_script (hother script hscript) hfound hscript'
              simp only [hnext]

/-- A process is prepared alike while the file is written to, if it is none of those that are opened
to run it. -/
theorem prepare_eq (ho : Occupied f h k) {program : Text} {argv environ : List Text}
    {workDir : Text}
    (hother : ∀ dir entry, h.find workDir = .ok (dir, entry) →
      f ∉ h.programPlaces dir (maxScripts + 2) program) :
    h.prepare program argv environ workDir = k.prepare program argv environ workDir := by
  have hfound : h.find workDir = k.find workDir := by
    unfold find
    rw [ho.tree, ho.workDir]
  unfold prepare
  rw [← hfound]
  cases hfind : h.find workDir with
  | error e => rfl
  | ok found =>
      obtain ⟨dir, entry⟩ := found
      cases entry with
      | directory mode =>
          have hplaces := hother dir _ hfind
          have hopen := ho.openProgram_eq (openProgram_ne hplaces)
          simp only [← hopen]
          cases hfound : h.openProgram dir program with
          | error e => rfl
          | ok found =>
              obtain ⟨place, image⟩ := found
              have hload := ho.load_eq environ maxScripts program argv place image
                fun script hscript => programPlaces_script hplaces hfound hscript
              simp only [hload]
      | file mode image => rfl
      | link t => rfl
      | device d => rfl

end Occupied

end LineShell.Host
