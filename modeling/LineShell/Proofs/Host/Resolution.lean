import LineShell.Proofs.Host.Walk

/-!
# The rules of path resolution

What an absolute path leads to, said in rules: each step is taken from a directory that may be
searched, a link is gone on from along its target, and what can go wrong on the way decides the
error.  By the rules a path comes to one thing, which is what a look-up finds.  Steps behind those
that lead to a directory come to what they come to from there.
-/

namespace LineShell

namespace Entry

def isLast : Entry → Bool
  | file _ _ | device _ => true
  | directory _ | link _ => false

end Entry

namespace FileTree

def anchor (here : Place) (target : Text) : Place :=
  if Path.isAbsolute target then Place.root else here

/-- What steps from a place come to, while so many links may be gone on from and, if the path ends
in a slash, only to a directory. -/
inductive Resolves (t : FileTree) :
    Nat → Place → List Path.Step → Bool → Except Errno (Place × Entry) → Prop
  | arrived {links : Nat} {here : Place} {slash : Bool} {entry : Entry}
      (hentry : t.get? here = some entry) : Resolves t links here [] slash (.ok (here, entry))
  | nowhere {links : Nat} {here : Place} {slash : Bool} (hnone : t.get? here = none) :
      Resolves t links here [] slash (.error .noEntry)
  | barred {links : Nat} {here : Place} {step : Path.Step} {rest : List Path.Step} {slash : Bool}
      (hhere : t.isSearchable here = false) :
      Resolves t links here (step :: rest) slash (.error .accessDenied)
  | stay {links : Nat} {here : Place} {rest : List Path.Step} {slash : Bool}
      {r : Except Errno (Place × Entry)} (hhere : t.isSearchable here = true)
      (hrest : Resolves t links here rest slash r) : Resolves t links here (.stay :: rest) slash r
  | up {links : Nat} {here : Place} {rest : List Path.Step} {slash : Bool}
      {r : Except Errno (Place × Entry)} (hhere : t.isSearchable here = true)
      (hrest : Resolves t links here.parent rest slash r) :
      Resolves t links here (.up :: rest) slash r
  | tooLong {links : Nat} {here : Place} {name : Name} {rest : List Path.Step} {slash : Bool}
      (hhere : t.isSearchable here = true) (hlong : Path.isTooLong Path.maxName name = true) :
      Resolves t links here (.down name :: rest) slash (.error .nameTooLong)
  | missing {links : Nat} {here : Place} {name : Name} {rest : List Path.Step} {slash : Bool}
      (hhere : t.isSearchable here = true) (hshort : Path.isTooLong Path.maxName name = false)
      (hnone : t.get? (name :: here) = none) :
      Resolves t links here (.down name :: rest) slash (.error .noEntry)
  | down {links : Nat} {here : Place} {name : Name} {rest : List Path.Step} {slash : Bool}
      {mode : Mode} {r : Except Errno (Place × Entry)} (hhere : t.isSearchable here = true)
      (hshort : Path.isTooLong Path.maxName name = false)
      (hdir : t.get? (name :: here) = some (.directory mode))
      (hrest : Resolves t links (name :: here) rest slash r) :
      Resolves t links here (.down name :: rest) slash r
  | link {links : Nat} {here : Place} {name : Name} {rest : List Path.Step} {slash : Bool}
      {target : Text} {r : Except Errno (Place × Entry)} (hhere : t.isSearchable here = true)
      (hshort : Path.isTooLong Path.maxName name = false)
      (hlink : t.get? (name :: here) = some (.link target))
      (hrest : Resolves t links (anchor here target) (Path.steps target ++ rest)
        (slash || (rest.isEmpty && Path.endsInSlash target)) r) :
      Resolves t (links + 1) here (.down name :: rest) slash r
  | tooMany {here : Place} {name : Name} {rest : List Path.Step} {slash : Bool} {target : Text}
      (hhere : t.isSearchable here = true) (hshort : Path.isTooLong Path.maxName name = false)
      (hlink : t.get? (name :: here) = some (.link target)) :
      Resolves t 0 here (.down name :: rest) slash (.error .tooManyLinks)
  | last {links : Nat} {here : Place} {name : Name} {entry : Entry}
      (hhere : t.isSearchable here = true) (hshort : Path.isTooLong Path.maxName name = false)
      (hentry : t.get? (name :: here) = some entry) (hlast : entry.isLast = true) :
      Resolves t links here [.down name] false (.ok (name :: here, entry))
  | beyond {links : Nat} {here : Place} {name : Name} {rest : List Path.Step} {slash : Bool}
      {entry : Entry} (hhere : t.isSearchable here = true)
      (hshort : Path.isTooLong Path.maxName name = false)
      (hentry : t.get? (name :: here) = some entry) (hlast : entry.isLast = true)
      (hmore : rest ≠ [] ∨ slash = true) :
      Resolves t links here (.down name :: rest) slash (.error .notDirectory)

inductive Leads (t : FileTree) (path : Text) : Except IOError (Place × Entry) → Prop
  | nul (hnul : '\x00' ∈ path) : Leads t path (.error .nulInPath)
  | tooLong (hnul : '\x00' ∉ path) (hlong : Path.isTooLong (Path.maxPath - 1) path = true) :
      Leads t path (.error (.os .nameTooLong))
  | walked {r : Except Errno (Place × Entry)} (hnul : '\x00' ∉ path)
      (hshort : Path.isTooLong (Path.maxPath - 1) path = false)
      (hwalk : Resolves t maxLinks Place.root (Path.steps path) (Path.endsInSlash path) r) :
      Leads t path (r.mapError .os)

variable {t : FileTree} {links : Nat} {here : Place} {slash : Bool}

/-! ## Walks by steps -/

theorem walk_nil : t.walk .find links here [] slash = .ok (.found here) := by
  cases links <;> rfl

theorem walk_barred (hhere : t.isSearchable here = false) (step : Path.Step)
    (rest : List Path.Step) :
    t.walk .find links here (step :: rest) slash = .error .accessDenied := by
  cases links <;> simp [walk, follow, hhere]

theorem walk_stay (hhere : t.isSearchable here = true) (rest : List Path.Step) :
    t.walk .find links here (.stay :: rest) slash = t.walk .find links here rest slash := by
  cases links <;> simp [walk, follow, hhere]

theorem walk_up (hhere : t.isSearchable here = true) (rest : List Path.Step) :
    t.walk .find links here (.up :: rest) slash = t.walk .find links here.parent rest slash := by
  cases links <;> simp [walk, follow, hhere]

section Down

variable (hhere : t.isSearchable here = true) {name : Name}
  (hshort : Path.isTooLong Path.maxName name = false)

include hhere

theorem walk_tooLong (hlong : Path.isTooLong Path.maxName name = true) (rest : List Path.Step) :
    t.walk .find links here (.down name :: rest) slash = .error .nameTooLong := by
  cases links <;> simp [walk, follow, hhere, hlong]

include hshort

theorem walk_missing (hnone : t.get? (name :: here) = none) (rest : List Path.Step) :
    t.walk .find links here (.down name :: rest) slash =
      if rest = [] then .ok (.vacant (name :: here)) else .error .noEntry := by
  cases links <;> simp [walk, follow, hhere, hshort, hnone]

theorem walk_directory {mode : Mode} (hdir : t.get? (name :: here) = some (.directory mode))
    (rest : List Path.Step) :
    t.walk .find links here (.down name :: rest) slash =
      t.walk .find links (name :: here) rest slash := by
  cases links <;> simp [walk, follow, hhere, hshort, hdir]

theorem walk_link {target : Text} (hlink : t.get? (name :: here) = some (.link target))
    (rest : List Path.Step) :
    t.walk .find (links + 1) here (.down name :: rest) slash =
      t.walk .find links (anchor here target) (Path.steps target ++ rest)
        (slash || (rest.isEmpty && Path.endsInSlash target)) := by
  simp [walk, follow, hhere, hshort, hlink, anchor]

theorem walk_tooMany {target : Text} (hlink : t.get? (name :: here) = some (.link target))
    (rest : List Path.Step) :
    t.walk .find 0 here (.down name :: rest) slash = .error .tooManyLinks := by
  simp [walk, follow, hhere, hshort, hlink]

theorem walk_last {entry : Entry} (hentry : t.get? (name :: here) = some entry)
    (hlast : entry.isLast = true) (rest : List Path.Step) :
    t.walk .find links here (.down name :: rest) slash =
      if rest = [] ∧ slash = false then .ok (.found (name :: here)) else .error .notDirectory := by
  cases entry with
  | directory _ | link _ => cases hlast
  | file _ _ | device _ => cases links <;> simp [walk, follow, hhere, hshort, hentry]

end Down

/-! ## Rules and walks -/

def arrive (t : FileTree) : Except Errno Arrival → Except Errno (Place × Entry)
  | .error e => .error e
  | .ok (.vacant _) => .error .noEntry
  | .ok (.found p) =>
      match t.get? p with
      | none => .error .noEntry
      | some entry => .ok (p, entry)

theorem find_eq_walk {path : Text} (habs : Path.isAbsolute path = true) (start : Place) :
    t.find start path =
      if '\x00' ∈ path then .error .nulInPath
      else if Path.isTooLong (Path.maxPath - 1) path then .error (.os .nameTooLong)
      else (t.arrive (t.walk .find maxLinks Place.root (Path.steps path)
        (Path.endsInSlash path))).mapError .os := by
  have hne : path ≠ [] := by
    rintro rfl
    cases habs
  unfold find locate
  rw [if_neg hne, if_pos habs]
  by_cases hnul : '\x00' ∈ path
  · simp only [if_pos hnul]
  · by_cases hlong : Path.isTooLong (Path.maxPath - 1) path = true
    · simp only [if_neg hnul, if_pos hlong]
    · simp only [if_neg hnul, if_neg hlong]
      rcases t.walk .find maxLinks Place.root (Path.steps path) (Path.endsInSlash path) with
        e | ⟨p⟩ | ⟨p⟩
      · rfl
      · simp only [arrive, Except.mapError]
        cases t.get? p <;> rfl
      · rfl

theorem Resolves.arrive_walk {steps : List Path.Step} {r : Except Errno (Place × Entry)}
    (h : Resolves t links here steps slash r) :
    t.arrive (t.walk .find links here steps slash) = r := by
  induction h with
  | arrived hentry => simp only [walk_nil, arrive, hentry]
  | nowhere hnone => simp only [walk_nil, arrive, hnone]
  | barred hhere => rw [walk_barred hhere, arrive]
  | stay hhere _ ih => rw [walk_stay hhere, ih]
  | up hhere _ ih => rw [walk_up hhere, ih]
  | tooLong hhere hlong => rw [walk_tooLong hhere hlong, arrive]
  | missing hhere hshort hnone =>
      rw [walk_missing hhere hshort hnone]
      split <;> rfl
  | down hhere hshort hdir _ ih => rw [walk_directory hhere hshort hdir, ih]
  | link hhere hshort hlink _ ih => rw [walk_link hhere hshort hlink, ih]
  | tooMany hhere hshort hlink => rw [walk_tooMany hhere hshort hlink, arrive]
  | last hhere hshort hentry hlast =>
      rw [walk_last hhere hshort hentry hlast, if_pos ⟨rfl, rfl⟩]
      simp only [arrive, hentry]
  | beyond hhere hshort hentry hlast hmore =>
      rw [walk_last hhere hshort hentry hlast, if_neg (by simpa [or_iff_not_imp_left] using hmore),
        arrive]

theorem exists_resolves_of_link
    (hjump : ∀ {here : Place} {name : Name} {target : Text} (rest : List Path.Step) (slash : Bool),
      t.isSearchable here = true → Path.isTooLong Path.maxName name = false →
        t.get? (name :: here) = some (.link target) →
          ∃ r, Resolves t links here (.down name :: rest) slash r)
    (here : Place) (steps : List Path.Step) (slash : Bool) :
    ∃ r, Resolves t links here steps slash r := by
  -- only at a link do the steps not get fewer, so that case is left to an induction on the links
  induction steps generalizing here with
  | nil =>
      cases hentry : t.get? here with
      | none => exact ⟨_, .nowhere hentry⟩
      | some entry => exact ⟨_, .arrived hentry⟩
  | cons step rest ih =>
      cases hhere : t.isSearchable here with
      | false => exact ⟨_, .barred hhere⟩
      | true =>
          cases step with
          | stay => exact (ih here).imp fun r hr => .stay hhere hr
          | up => exact (ih here.parent).imp fun r hr => .up hhere hr
          | down name =>
              cases hshort : Path.isTooLong Path.maxName name with
              | true => exact ⟨_, .tooLong hhere hshort⟩
              | false =>
                  cases hentry : t.get? (name :: here) with
                  | none => exact ⟨_, .missing hhere hshort hentry⟩
                  | some entry =>
                      cases entry with
                      | directory mode =>
                          exact (ih (name :: here)).imp fun r hr => .down hhere hshort hentry hr
                      | link target => exact hjump rest slash hhere hshort hentry
                      | file _ _ | device _ =>
                          by_cases hend : rest = [] ∧ slash = false
                          · obtain ⟨rfl, rfl⟩ := hend
                            exact ⟨_, .last hhere hshort hentry rfl⟩
                          · have hmore : rest ≠ [] ∨ slash = true := by
                              simpa [or_iff_not_imp_left] using hend
                            exact ⟨_, .beyond hhere hshort hentry rfl hmore⟩

theorem exists_resolves (t : FileTree) (links : Nat) (here : Place) (steps : List Path.Step)
    (slash : Bool) : ∃ r, Resolves t links here steps slash r := by
  induction links generalizing here steps slash with
  | zero =>
      exact exists_resolves_of_link
        (fun _ _ hhere hshort hlink => ⟨_, .tooMany hhere hshort hlink⟩) here steps slash
  | succ links ih =>
      refine exists_resolves_of_link (fun rest slash hhere hshort hlink => ?_) here steps slash
      exact (ih _ _ _).imp fun r hr => .link hhere hshort hlink hr

/-- By the rules steps come to one thing, which is what a walk along them ends at. -/
theorem resolves_iff {steps : List Path.Step} {r : Except Errno (Place × Entry)} :
    Resolves t links here steps slash r ↔ t.arrive (t.walk .find links here steps slash) = r := by
  constructor
  · exact Resolves.arrive_walk
  · rintro rfl
    obtain ⟨r, hr⟩ := exists_resolves t links here steps slash
    rw [hr.arrive_walk]
    exact hr

theorem leads_iff {path : Text} (habs : Path.isAbsolute path = true) (start : Place)
    {r : Except IOError (Place × Entry)} : t.Leads path r ↔ t.find start path = r := by
  rw [find_eq_walk habs]
  constructor
  · rintro (hnul | ⟨hnul, hlong⟩ | ⟨hnul, hshort, hwalk⟩)
    · rw [if_pos hnul]
    · rw [if_neg hnul, if_pos hlong]
    · rw [if_neg hnul, hshort, hwalk.arrive_walk]
      rfl
  · rintro rfl
    by_cases hnul : '\x00' ∈ path
    · rw [if_pos hnul]
      exact .nul hnul
    · rw [if_neg hnul]
      cases hlong : Path.isTooLong (Path.maxPath - 1) path with
      | true => exact .tooLong hnul hlong
      | false => exact .walked hnul hlong (resolves_iff.mpr rfl)

/-! ## Steps behind a directory -/

/-- Steps that lead to a directory may be taken before others: what is left of the links is then as
many as may be gone on from behind the directory. -/
theorem Resolves.walk_append {steps : List Path.Step} {p : Place} {mode : Mode}
    (h : Resolves t links here steps slash (.ok (p, .directory mode))) :
    ∃ used ≤ links, ∀ (more : Nat) (rest : List Path.Step) (slash : Bool), rest ≠ [] →
      t.walk .find (used + more) here (steps ++ rest) slash = t.walk .find more p rest slash := by
  generalize hr : (.ok (p, .directory mode) : Except Errno (Place × Entry)) = r at h
  induction h with
  | arrived hentry =>
      cases hr
      exact ⟨0, Nat.zero_le _, fun more rest slash _ => by rw [Nat.zero_add, List.nil_append]⟩
  | stay hhere _ ih =>
      obtain ⟨used, hused, hwalk⟩ := ih hr
      refine ⟨used, hused, fun more rest slash hrest => ?_⟩
      rw [List.cons_append, walk_stay hhere, hwalk more rest slash hrest]
  | up hhere _ ih =>
      obtain ⟨used, hused, hwalk⟩ := ih hr
      refine ⟨used, hused, fun more rest slash hrest => ?_⟩
      rw [List.cons_append, walk_up hhere, hwalk more rest slash hrest]
  | down hhere hshort hdir _ ih =>
      obtain ⟨used, hused, hwalk⟩ := ih hr
      refine ⟨used, hused, fun more rest slash hrest => ?_⟩
      rw [List.cons_append, walk_directory hhere hshort hdir, hwalk more rest slash hrest]
  | @link links here name after slash target r hhere hshort hlink _ ih =>
      obtain ⟨used, hused, hwalk⟩ := ih hr
      refine ⟨used + 1, Nat.succ_le_succ hused, fun more rest slash hrest => ?_⟩
      have hbehind : (after ++ rest).isEmpty = false := by simp [hrest]
      rw [Nat.add_right_comm, List.cons_append, walk_link hhere hshort hlink, hbehind,
        Bool.false_and, Bool.or_false, ← List.append_assoc, hwalk more rest slash hrest]
  | last hhere hshort hentry hlast =>
      cases hr
      cases hlast
  | nowhere | barred | tooLong | missing | tooMany | beyond => cases hr

end FileTree

end LineShell
