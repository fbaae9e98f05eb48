import LineShell.Lookup

/-!
# Where programs are found

A name is found as a path that leads, from the working directory, to a regular file that the user
may execute.
-/

namespace LineShell

theorem Host.isExecutable_iff {h : Host} {path : Text} :
    h.isExecutable path = true ↔
      ∃ p mode content, h.find path = .ok (p, .file mode content) ∧ mode.executable = true := by
  unfold isExecutable mayPass
  cases hfind : h.find path with
  | error e => simp
  | ok found =>
      obtain ⟨p, entry⟩ := found
      cases entry with
      | directory mode => simp
      | link target => simp
      | device device => simp
      | file mode content =>
          simp only [Entry.isPassable]
          constructor
          · intro hexec
            cases hmode : mode.executable with
            | true => exact ⟨p, mode, content, rfl, hmode⟩
            | false => simp [hmode, Except.isOk, Except.toBool] at hexec
          · rintro ⟨q, mode', content', hfound, hmode⟩
            cases hfound
            simp [hmode, Except.isOk, Except.toBool]

namespace Lookup

variable {h : Host} {searchPath : Option Text} {cwd name path : Text}

theorem isExecutable_of_resolve (habs : Path.isAbsolute cwd = true)
    (hpath : resolve h searchPath cwd name = some path) :
    '/' ∈ path ∧ h.isExecutable (Path.join cwd path) = true := by
  unfold resolve at hpath
  split at hpath
  · next hslash =>
      split at hpath
      · next hexec =>
          cases hpath
          exact ⟨List.contains_iff_mem.mp hslash, hexec⟩
      · cases hpath
  · cases searchPath with
    | none => cases hpath
    | some searchPath =>
        have hexec := List.find?_some hpath
        obtain ⟨dir, -, hdir⟩ := List.mem_map.mp (List.mem_of_find?_eq_some hpath)
        have hfull : Path.isAbsolute path = true := by
          rw [← hdir]
          exact Path.isAbsolute_join (Path.isAbsolute_join habs dir) name
        refine ⟨Path.slash_mem_of_isAbsolute hfull, ?_⟩
        rw [Path.join_of_isAbsolute cwd hfull]
        exact hexec

end Lookup

end LineShell
