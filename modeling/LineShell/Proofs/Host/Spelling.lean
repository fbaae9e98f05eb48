import LineShell.Proofs.Host.Resolution
import Mathlib.Data.List.Basic

/-!
# Spelling out where a path leads

A walk that ends at an entry passes others on its way.  The path of the end can be spelled out just
if the path of each of them can be looked up in full, however many links are gone on from.  A path
that is canonical is the longest that it makes one look up.
-/

namespace LineShell

namespace FileTree

/-- An entry that steps from a place lead through, and whether it is a directory behind which the
path goes on. -/
inductive Passes (t : FileTree) : Place → List Path.Step → Bool → Place → Bool → Prop
  | entry {here : Place} {name : Name} {rest : List Path.Step} {slash : Bool} {e : Entry}
      (hentry : t.get? (name :: here) = some e) :
      Passes t here (.down name :: rest) slash (name :: here)
        (e.isDirectory && (!rest.isEmpty || slash))
  | stay {here p : Place} {rest : List Path.Step} {slash goesOn : Bool}
      (hrest : Passes t here rest slash p goesOn) : Passes t here (.stay :: rest) slash p goesOn
  | up {here p : Place} {rest : List Path.Step} {slash goesOn : Bool}
      (hrest : Passes t here.parent rest slash p goesOn) :
      Passes t here (.up :: rest) slash p goesOn
  | down {here p : Place} {name : Name} {rest : List Path.Step} {slash goesOn : Bool} {mode : Mode}
      (hdir : t.get? (name :: here) = some (.directory mode))
      (hrest : Passes t (name :: here) rest slash p goesOn) :
      Passes t here (.down name :: rest) slash p goesOn
  | link {here p : Place} {name : Name} {rest : List Path.Step} {slash goesOn : Bool}
      {target : Text} (hlink : t.get? (name :: here) = some (.link target))
      (hrest : Passes t (anchor here target) (Path.steps target ++ rest)
        (slash || (rest.isEmpty && Path.endsInSlash target)) p goesOn) :
      Passes t here (.down name :: rest) slash p goesOn

def AllFit (t : FileTree) (here : Place) (steps : List Path.Step) (slash : Bool) : Prop :=
  ∀ p goesOn, t.Passes here steps slash p goesOn → fits p goesOn = true

def Spelled (t : FileTree) (path : Text) : Prop :=
  t.AllFit Place.root (Path.steps path) (Path.endsInSlash path)

variable {t : FileTree} {links : Nat} {here p : Place} {name : Name} {slash : Bool}

/-! ## Step by step -/

@[simp] theorem allFit_nil : t.AllFit here [] slash := by
  intro p goesOn hpasses
  cases hpasses

@[simp] theorem allFit_stay (rest : List Path.Step) :
    t.AllFit here (.stay :: rest) slash ↔ t.AllFit here rest slash := by
  constructor
  · exact fun h p goesOn hrest => h p goesOn (.stay hrest)
  · rintro h p goesOn (_ | hrest)
    exact h p goesOn hrest

@[simp] theorem allFit_up (rest : List Path.Step) :
    t.AllFit here (.up :: rest) slash ↔ t.AllFit here.parent rest slash := by
  constructor
  · exact fun h p goesOn hrest => h p goesOn (.up hrest)
  · rintro h p goesOn (_ | _ | hrest)
    exact h p goesOn hrest

theorem allFit_directory {mode : Mode} (hdir : t.get? (name :: here) = some (.directory mode))
    (rest : List Path.Step) :
    t.AllFit here (.down name :: rest) slash ↔
      fits (name :: here) (!rest.isEmpty || slash) = true ∧ t.AllFit (name :: here) rest slash := by
  constructor
  · intro h
    exact ⟨h _ _ (.entry hdir), fun p goesOn hrest => h p goesOn (.down hdir hrest)⟩
  · rintro ⟨hhere, hafter⟩ p goesOn hpasses
    cases hpasses with
    | entry hentry =>
        obtain rfl := Option.some.inj (hdir.symm.trans hentry)
        exact hhere
    | down _ hrest => exact hafter p goesOn hrest
    | link hlink => simp [hdir] at hlink

theorem allFit_link {target : Text} (hlink : t.get? (name :: here) = some (.link target))
    (rest : List Path.Step) :
    t.AllFit here (.down name :: rest) slash ↔
      fits (name :: here) false = true ∧ t.AllFit (anchor here target) (Path.steps target ++ rest)
        (slash || (rest.isEmpty && Path.endsInSlash target)) := by
  constructor
  · intro h
    exact ⟨h _ _ (.entry hlink), fun p goesOn hrest => h p goesOn (.link hlink hrest)⟩
  · rintro ⟨hhere, hafter⟩ p goesOn hpasses
    cases hpasses with
    | entry hentry =>
        obtain rfl := Option.some.inj (hlink.symm.trans hentry)
        exact hhere
    | down hdir => simp [hlink] at hdir
    | link hsame hrest =>
        obtain rfl : target = _ := by simpa using hlink.symm.trans hsame
        exact hafter p goesOn hrest

theorem allFit_last {entry : Entry} (hentry : t.get? (name :: here) = some entry)
    (hlast : entry.isLast = true) (rest : List Path.Step) :
    t.AllFit here (.down name :: rest) slash ↔ fits (name :: here) false = true := by
  have hother : entry.isDirectory = false := by
    cases entry with
    | directory _ | link _ => cases hlast
    | file _ _ | device _ => rfl
  constructor
  · intro h
    simpa [hother] using h _ _ (.entry hentry)
  · rintro h p goesOn hpasses
    cases hpasses with
    | entry hsame =>
        obtain rfl := Option.some.inj (hentry.symm.trans hsame)
        simpa [hother] using h
    | down hdir | link hdir =>
        obtain rfl := Option.some.inj (hentry.symm.trans hdir)
        cases hlast

/-! ## Spelling and walking -/

/-- Along steps that end at an entry, what is spelled out are the entries that they pass. -/
theorem Resolves.spells_iff {steps : List Path.Step} {p : Place} {entry : Entry}
    (h : Resolves t links here steps slash (.ok (p, entry))) :
    t.spells links here steps slash = true ↔ t.AllFit here steps slash := by
  generalize hr : (.ok (p, entry) : Except Errno (Place × Entry)) = r at h
  induction h with
  | @arrived links =>
      cases links <;> simp [spells, spell]
  | @stay links _ _ _ _ _ _ ih =>
      rw [allFit_stay, ← ih hr]
      cases links <;> rfl
  | @up links _ _ _ _ _ _ ih =>
      rw [allFit_up, ← ih hr]
      cases links <;> rfl
  | @down links _ _ _ _ _ _ _ _ hdir _ ih =>
      rw [allFit_directory hdir, ← ih hr]
      cases links <;> simp [spells, spell, hdir]
  | link _ _ hlink _ ih =>
      rw [allFit_link hlink, ← ih hr]
      simp [spells, spell, hlink, anchor]
  | @last links _ _ entry _ _ hentry hlast =>
      rw [allFit_last hentry hlast]
      cases entry with
      | directory _ | link _ => cases hlast
      | file _ _ | device _ => cases links <;> simp [spells, spell, hentry]
  | nowhere | barred | tooLong | missing | tooMany | beyond => cases hr

theorem isSpellable_iff {start : Place} {path : Text} {found : Place × Entry}
    (habs : Path.isAbsolute path = true) (hfind : t.find start path = .ok found) :
    t.isSpellable start path = true ↔ t.Spelled path := by
  have hleads := (leads_iff habs start).mpr hfind
  generalize hr : (.ok found : Except IOError (Place × Entry)) = r at hleads
  cases hleads with
  | nul | tooLong => cases hr
  | @walked r _ _ hwalk =>
      cases r with
      | error e => cases hr
      | ok found' =>
          rw [isSpellable, if_pos habs]
          exact hwalk.spells_iff

theorem Resolves.allFit_append {steps rest : List Path.Step} {slash' : Bool} {p : Place}
    {mode : Mode} (h : Resolves t links here steps slash (.ok (p, .directory mode)))
    (hfits : t.AllFit here steps slash) (hp : fits p true = true) (hrest : rest ≠ []) :
    t.AllFit here (steps ++ rest) slash' ↔ t.AllFit p rest slash' := by
  generalize hr : (.ok (p, .directory mode) : Except Errno (Place × Entry)) = r at h
  induction h with
  | arrived =>
      cases hr
      rw [List.nil_append]
  | stay _ _ ih =>
      rw [List.cons_append, allFit_stay]
      exact ih ((allFit_stay _).mp hfits) hr
  | up _ _ ih =>
      rw [List.cons_append, allFit_up]
      exact ih ((allFit_up _).mp hfits) hr
  | @down links here name after slash _ _ _ _ hdir hafter ih =>
      obtain ⟨hname, hfits'⟩ := (allFit_directory hdir after).mp hfits
      rw [List.cons_append, allFit_directory hdir, ih hfits' hr, and_iff_right_iff_imp]
      intro _
      -- the path goes on behind the directory, as it did unless it ended there
      have hmore : (!(after ++ rest).isEmpty || slash') = true := by simp [hrest]
      rw [hmore]
      cases after with
      | nil =>
          cases hafter with
          | arrived =>
              cases hr
              exact hp
          | nowhere => cases hr
      | cons step later => exact hname
  | @link _ _ _ after _ _ _ _ _ hlink _ ih =>
      obtain ⟨hname, hfits'⟩ := (allFit_link hlink after).mp hfits
      have hbehind : (after ++ rest).isEmpty = false := by simp [hrest]
      rw [List.cons_append, allFit_link hlink, hbehind, Bool.false_and, Bool.or_false,
        ← List.append_assoc, ih hfits' hr, and_iff_right_iff_imp]
      exact fun _ => hname
  | last _ _ _ hlast =>
      cases hr
      cases hlast
  | nowhere | barred | tooLong | missing | tooMany | beyond => cases hr

end FileTree

/-! ## Canonical paths -/

theorem Path.isTooLong_of_prefix {limit : Nat} {front path : Text} (hfront : front <+: path)
    (hpath : isTooLong limit path = false) : isTooLong limit front = false := by
  obtain ⟨rest, rfl⟩ := hfront
  simp only [isTooLong, Utf8.encode_append, List.length_append, decide_eq_false_iff_not] at hpath ⊢
  omega

theorem Place.spelling_prefix {p q : Place} {goesOn : Bool} (hq : q <:+ p) (hroot : q ≠ root)
    (hgoes : goesOn = true → q ≠ p) : FileTree.spelling q goesOn <+: p.path := by
  obtain ⟨below, rfl⟩ := hq
  have hpath (above : Place) : (above ++ q).path =
      q.path ++ above.reverse.flatMap fun name => '/' :: name := by
    cases q with
    | nil => exact absurd rfl hroot
    | cons name rest => cases above <;> simp [path]
  rw [hpath]
  unfold FileTree.spelling
  split
  · next hbehind =>
      cases hbelow : below.reverse with
      | nil =>
          rw [List.reverse_eq_nil_iff] at hbelow
          exact absurd (by rw [hbelow]; rfl) (hgoes hbehind)
      | cons name rest => simp
  · exact List.prefix_append q.path _

theorem Place.endsInSlash_path {p : Place} (hp : p.Usable) (hroot : p ≠ root) :
    Path.endsInSlash p.path = false := by
  cases p with
  | nil => exact absurd rfl hroot
  | cons name above =>
      have hname := hp.names name List.mem_cons_self
      have hlast : (path (name :: above)).getLast? = name.getLast? := by
        rw [path_cons, List.append_cons, List.getLast?_append_of_ne_nil _ hname.nonempty]
      rw [Path.endsInSlash, hlast, beq_eq_false_iff_ne]
      exact fun h => hname.noSlash (List.mem_of_getLast? h)

namespace FileTree

variable {t : FileTree} {p : Place}

theorem fits_of_suffix {q : Place} {goesOn : Bool} (hp : p.Usable) (hq : q <:+ p)
    (hroot : q ≠ Place.root) (hgoes : goesOn = true → q ≠ p) : fits q goesOn = true := by
  rw [fits, Path.isTooLong_of_prefix (Place.spelling_prefix hq hroot hgoes) hp.short]
  rfl

theorem allFit_down (hp : p.Usable) (hdir : t.Enterable p) {names : List Name} {here : Place}
    (hnames : names.reverse ++ here = p) : t.AllFit here (names.map .down) false := by
  induction names generalizing here with
  | nil => exact allFit_nil
  | cons name names ih =>
      have hrest : names.reverse ++ name :: here = p := by simpa using hnames
      have hsuffix : name :: here <:+ p := ⟨names.reverse, hrest⟩
      obtain ⟨mode, hget, -⟩ := isSearchable_iff.mp (hdir (name :: here) hsuffix)
      rw [List.map_cons, allFit_directory hget]
      refine ⟨fits_of_suffix hp hsuffix (List.cons_ne_nil name here) fun hmore => ?_, ih hrest⟩
      rintro rfl
      have hnil : names = [] := by simpa using hrest
      simp [hnil] at hmore

theorem allFit_path (hp : p.Usable) (hdir : t.Enterable p) :
    t.AllFit Place.root (Path.steps p.path) false := by
  rw [Place.steps_path hp]
  refine allFit_down hp hdir ?_
  rw [List.reverse_reverse, Place.root, List.append_nil]

theorem spelled_path (hp : p.Usable) (hdir : t.Enterable p) : t.Spelled p.path := by
  by_cases hroot : p = Place.root
  · rw [hroot]
    exact allFit_nil
  · rw [Spelled, Place.endsInSlash_path hp hroot]
    exact allFit_path hp hdir

theorem fits_of_join (hp : p.Usable) {q : Text} (hrel : Path.isAbsolute q = false)
    (hshort : Path.isTooLong (Path.maxPath - 1) (Path.join p.path q) = false) :
    fits p true = true := by
  by_cases hroot : p = Place.root
  · rw [hroot]
    decide
  · have hends := Place.endsInSlash_path hp hroot
    have hjoin : Path.join p.path q = p.path ++ ['/'] ++ q := by
      rw [Path.endsInSlash, beq_eq_false_iff_ne] at hends
      rw [Path.join, hrel, if_neg Bool.false_ne_true, if_neg (not_or.mpr ⟨p.path_ne_nil, hends⟩)]
      simp
    rw [hjoin] at hshort
    rw [fits, spelling, if_pos rfl, Path.isTooLong_of_prefix (List.prefix_append _ q) hshort]
    rfl

end FileTree

end LineShell
