import LineShell.Host.Walk
import LineShell.Proofs.Host.Outline

/-!
# Where walks lead

A walk searches every directory that it goes down from.  So an absolute path that leads to a
directory that may be searched leads to one whose directories above may be searched too, whatever
links and steps up there are in the path; and the canonical path of such a directory leads to it.
-/

namespace LineShell

structure Name.Proper (name : Name) : Prop where
  nonempty : name ≠ []
  noStay : name ≠ ['.']
  noUp : name ≠ ['.', '.']
  noSlash : '/' ∉ name
  noNul : '\x00' ∉ name
  short : Path.isTooLong Path.maxName name = false

instance (name : Name) : Decidable (Name.Proper name) :=
  decidable_of_iff
    (name ≠ [] ∧ name ≠ ['.'] ∧ name ≠ ['.', '.'] ∧ '/' ∉ name ∧ '\x00' ∉ name ∧
      Path.isTooLong Path.maxName name = false)
    ⟨fun ⟨h, h', h'', hs, hn, hl⟩ => ⟨h, h', h'', hs, hn, hl⟩,
      fun ⟨h, h', h'', hs, hn, hl⟩ => ⟨h, h', h'', hs, hn, hl⟩⟩

structure Place.Usable (p : Place) : Prop where
  names : ∀ name ∈ p, Name.Proper name
  short : Path.isTooLong (Path.maxPath - 1) p.path = false

instance (p : Place) : Decidable p.Usable :=
  decidable_of_iff
    ((∀ name ∈ p, Name.Proper name) ∧ Path.isTooLong (Path.maxPath - 1) p.path = false)
    ⟨fun ⟨hnames, hshort⟩ => ⟨hnames, hshort⟩, fun ⟨hnames, hshort⟩ => ⟨hnames, hshort⟩⟩

namespace FileTree

variable {t : FileTree}

def Enterable (t : FileTree) (p : Place) : Prop :=
  ∀ above : Place, above <:+ p → t.isSearchable above = true

def Accessible (t : FileTree) : Place → Prop
  | [] => True
  | _ :: above => t.Enterable above

theorem isSearchable_iff {p : Place} :
    t.isSearchable p = true ↔
      ∃ mode, t.get? p = some (.directory mode) ∧ mode.executable = true := by
  unfold isSearchable
  split
  · next mode hp => simp [hp]
  · next hp =>
      constructor
      · intro h
        cases h
      · rintro ⟨mode, hdir, -⟩
        exact absurd hdir (hp mode)

theorem enterable_iff {p : Place} :
    t.Enterable p ↔ t.isSearchable p = true ∧ t.Accessible p := by
  cases p with
  | nil => simp [Enterable, Accessible]
  | cons name above => simp [Enterable, Accessible, List.suffix_cons_iff]

theorem Enterable.accessible_cons {here : Place} (h : t.Enterable here) (name : Name) :
    t.Accessible (name :: here) :=
  h

theorem Accessible.parent {p : Place} (hp : t.Accessible p) : t.Accessible p.parent := by
  cases p with
  | nil => exact hp
  | cons name above => exact (enterable_iff.mp hp).2

/-! ## Where a walk ends -/

theorem locate_eq_ok_iff {start : Place} {intent : Intent} {path : Text} {a : Arrival} :
    t.locate start intent path = .ok a ↔
      ('\x00' ∉ path ∧ path ≠ [] ∧ Path.isTooLong (Path.maxPath - 1) path = false) ∧
        t.walk intent maxLinks (if Path.isAbsolute path then Place.root else start)
          (Path.steps path) (Path.endsInSlash path) = .ok a := by
  unfold locate
  split
  · next hnul => simp [hnul]
  · next hnul =>
      split
      · next hempty => simp [hempty]
      · next hempty =>
          split
          · next hlong => simp [hlong]
          · next hlong =>
              cases t.walk intent maxLinks (if Path.isAbsolute path then Place.root else start)
                (Path.steps path) (Path.endsInSlash path) with
              | error e => simp [Except.mapError]
              | ok b => simp [Except.mapError, hnul, hempty, hlong]

/-- What a walk cannot lose: it holds at the root, and stays with every step up and with every step
down from a directory that may be searched. -/
structure Tracks (t : FileTree) (P : Place → Prop) : Prop where
  root : P Place.root
  up : ∀ {here}, P here → P here.parent
  down : ∀ {here}, t.isSearchable here = true → P here → ∀ name, P (name :: here)

/-- An entry found at the end of a walk that does not lose a property, or a place without one. -/
def Arrives (t : FileTree) (P : Place → Prop) : Arrival → Prop
  | .found p => P p
  | .vacant p => t.get? p = none

namespace Tracks

variable {P : Place → Prop} {intent : Intent}

theorem follow (hP : t.Tracks P)
    {jump : Place → Text → List Path.Step → Bool → Except Errno Arrival}
    (hjump : ∀ {here target rest slash a}, P here → jump here target rest slash = .ok a →
      t.Arrives P a)
    {here : Place} {steps : List Path.Step} {slash : Bool} {a : Arrival} (hhere : P here)
    (ha : t.follow intent jump here steps slash = .ok a) : t.Arrives P a := by
  induction steps generalizing here with
  | nil =>
      cases ha
      exact hhere
  | cons step rest ih =>
      unfold FileTree.follow at ha
      cases hsearch : t.isSearchable here with
      | false => simp [hsearch] at ha
      | true =>
          simp only [hsearch, Bool.not_true, Bool.false_eq_true, if_false] at ha
          cases step with
          | stay => exact ih hhere ha
          | up => exact ih (hP.up hhere) ha
          | down name =>
              have hname := hP.down hsearch hhere name
              dsimp only at ha
              split at ha
              · cases ha
              · split at ha
                · cases ha
                · split at ha
                  · next hvacant =>
                      split at ha
                      · cases ha
                        exact hvacant
                      · cases ha
                  · exact ih hname ha
                  · exact hjump hhere ha
                  · split at ha
                    · cases ha
                      exact hname
                    · cases ha

theorem walk (hP : t.Tracks P) {links : Nat} {here : Place} {steps : List Path.Step}
    {slash : Bool} {a : Arrival} (hhere : P here)
    (ha : t.walk intent links here steps slash = .ok a) : t.Arrives P a := by
  induction links generalizing here steps slash a with
  | zero =>
      refine hP.follow ?_ hhere ha
      intro here target rest slash a _ hjump
      cases hjump
  | succ links ih =>
      refine hP.follow ?_ hhere ha
      intro here target rest slash a hhere hjump
      refine ih ?_ hjump
      split
      · exact hP.root
      · exact hhere

theorem locate (hP : t.Tracks P) {start : Place} {path : Text} {a : Arrival}
    (hstart : Path.isAbsolute path = false → P start)
    (ha : t.locate start intent path = .ok a) : t.Arrives P a := by
  refine hP.walk ?_ (locate_eq_ok_iff.mp ha).2
  split
  · exact hP.root
  · next habs => exact hstart (by simpa using habs)

end Tracks

theorem tracks_accessible (t : FileTree) : t.Tracks t.Accessible where
  root := trivial
  up := Accessible.parent
  down := fun hsearch hhere name => (enterable_iff.mpr ⟨hsearch, hhere⟩).accessible_cons name

theorem get?_of_vacant {start p : Place} {intent : Intent} {path : Text}
    (h : t.locate start intent path = .ok (.vacant p)) : t.get? p = none := by
  have htracks : t.Tracks fun _ => True := ⟨trivial, fun _ => trivial, fun _ _ _ => trivial⟩
  exact htracks.locate (fun _ => trivial) h

theorem enterable_of_find {start p : Place} {path : Text} {mode : Mode}
    (habs : Path.isAbsolute path = true) (h : t.find start path = .ok (p, .directory mode))
    (hmode : mode.executable = true) : t.Enterable p := by
  have hsearch := isSearchable_iff.mpr ⟨mode, get?_of_find h, hmode⟩
  unfold find at h
  split at h
  · cases h
  · cases h
  · next q hlocate =>
      have hq : t.Accessible q :=
        (tracks_accessible t).locate (fun hrel => by simp [habs] at hrel) hlocate
      split at h
      · cases h
      · cases h
        exact enterable_iff.mpr ⟨hsearch, hq⟩

end FileTree

/-! ## Canonical paths -/

namespace Place

variable {p : Place}

theorem path_cons (name : Name) (above : Place) :
    path (name :: above) =
      (above.reverse.flatMap fun name => '/' :: name) ++ '/' :: name := by
  simp [path]

theorem isAbsolute_path (p : Place) : Path.isAbsolute p.path = true := by
  cases p with
  | nil => rfl
  | cons name above =>
      rw [path_cons]
      cases above.reverse <;> rfl

theorem path_ne_nil (p : Place) : p.path ≠ [] := by
  intro hnil
  have habs := p.isAbsolute_path
  rw [hnil] at habs
  cases habs

theorem fields_path (hp : ∀ name ∈ p, '/' ∉ name) :
    Text.fields '/' (p.reverse.flatMap fun name => '/' :: name) = [] :: p.reverse := by
  induction p with
  | nil => rfl
  | cons name above ih =>
      have hname := hp name List.mem_cons_self
      have habove := ih fun other hother => hp other (List.mem_cons_of_mem name hother)
      rw [List.reverse_cons, List.flatMap_append, List.flatMap_singleton,
        Text.fields_append_mark, habove, Text.fields_of_not_mem hname, List.cons_append]

theorem steps_path (hp : p.Usable) : Path.steps p.path = p.reverse.map .down := by
  cases p with
  | nil => rfl
  | cons name above =>
      have hfields := fields_path fun other hother => (hp.names other hother).noSlash
      have hfilter : (name :: above).reverse.filter (fun field => !field.isEmpty) =
          (name :: above).reverse := by
        refine List.filter_eq_self.mpr fun field hfield => ?_
        simpa using (hp.names field (List.mem_reverse.mp hfield)).nonempty
      unfold Path.steps path
      rw [hfields, List.filter_cons_of_neg (by simp), hfilter]
      refine List.map_congr_left fun field hfield => ?_
      have hproper := hp.names field (List.mem_reverse.mp hfield)
      rw [Path.Step.ofField, if_neg hproper.noStay, if_neg hproper.noUp]

theorem nul_not_mem_path (hp : p.Usable) : '\x00' ∉ p.path := by
  cases p with
  | nil => decide
  | cons name above =>
      unfold path
      rw [List.mem_flatMap]
      rintro ⟨field, hfield, hmem⟩
      rcases List.mem_cons.mp hmem with hslash | hmem
      · exact absurd hslash (by decide)
      · exact (hp.names field (List.mem_reverse.mp hfield)).noNul hmem

end Place

namespace FileTree

variable {t : FileTree}

theorem follow_down
    {jump : Place → Text → List Path.Step → Bool → Except Errno Arrival} {names : List Name}
    (hnames : ∀ name ∈ names, Name.Proper name) {here : Place}
    (hdir : t.Enterable (names.reverse ++ here)) (slash : Bool) :
    t.follow .find jump here (names.map .down) slash = .ok (.found (names.reverse ++ here)) := by
  induction names generalizing here with
  | nil => rfl
  | cons name names ih =>
      have hsame : (name :: names).reverse ++ here = names.reverse ++ name :: here := by simp
      rw [hsame] at hdir ⊢
      have hhere : t.isSearchable here = true :=
        hdir here ((List.suffix_cons name here).trans (List.suffix_append _ _))
      obtain ⟨mode, hget, -⟩ := isSearchable_iff.mp (hdir (name :: here) (List.suffix_append _ _))
      have hshort := (hnames name List.mem_cons_self).short
      have hrest := ih (fun other hother => hnames other (List.mem_cons_of_mem name hother)) hdir
      rw [List.map_cons, follow]
      simp [hhere, hshort, hget, hrest]

theorem walk_down {names : List Name} (hnames : ∀ name ∈ names, Name.Proper name) {here : Place}
    (hdir : t.Enterable (names.reverse ++ here)) (links : Nat) (slash : Bool) :
    t.walk .find links here (names.map .down) slash = .ok (.found (names.reverse ++ here)) := by
  cases links <;> exact follow_down hnames hdir slash

/-- The canonical path of a directory that may be entered leads there. -/
theorem find_path {p : Place} (hp : p.Usable) (hdir : t.Enterable p) (start : Place) :
    ∃ mode, t.find start p.path = .ok (p, .directory mode) ∧ mode.executable = true := by
  obtain ⟨mode, hget, hmode⟩ := isSearchable_iff.mp (hdir p (List.suffix_refl p))
  have hnames : ∀ name ∈ p.reverse, Name.Proper name :=
    fun name hname => hp.names name (List.mem_reverse.mp hname)
  have hdir' : t.Enterable (p.reverse.reverse ++ Place.root) := by
    simpa [Place.root] using hdir
  have hwalk := walk_down hnames hdir' maxLinks (Path.endsInSlash p.path)
  rw [List.reverse_reverse, Place.root, List.append_nil] at hwalk
  have hlocate : t.locate start .find p.path = .ok (.found p) := by
    refine locate_eq_ok_iff.mpr ⟨⟨Place.nul_not_mem_path hp, p.path_ne_nil, hp.short⟩, ?_⟩
    rw [if_pos p.isAbsolute_path, Place.steps_path hp]
    exact hwalk
  refine ⟨mode, ?_, hmode⟩
  simp only [find, hlocate, hget]

end FileTree

end LineShell
