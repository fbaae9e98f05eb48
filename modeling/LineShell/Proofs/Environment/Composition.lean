import LineShell.Proofs.Environment.ChangeDir
import LineShell.Proofs.Host.Directories
import LineShell.Proofs.Host.Spelling
import Mathlib.Data.List.DropRight

/-!
# Laws of moving

An environment that stands in a directory under the directory's own path stays there for `.`, goes
to the directory above for `..`, and comes back to it from anywhere by that path.  To go along one
path and then along another is to go along both in one, whatever links and steps up are in them.
-/

namespace LineShell

namespace Path

/-- What is left of a path without its last name: the text in front of its last slash, or the root
if there is none. -/
def lexicalParent (path : Text) : Text :=
  let above := (path.rdropWhile (· != '/')).dropLast
  if above = [] then ['/'] else above

theorem lexicalParent_append {name : Name} (hname : '/' ∉ name) (above : Text) :
    lexicalParent (above ++ '/' :: name) = if above = [] then ['/'] else above := by
  have hdropped : (above ++ '/' :: name).rdropWhile (· != '/') = above ++ ['/'] := by
    have hlast : ∀ c ∈ name.reverse, (c != '/') = true := by
      intro c hc
      have hne : c ≠ '/' := fun heq => hname (heq ▸ List.mem_reverse.mp hc)
      exact bne_iff_ne.mpr hne
    rw [List.rdropWhile, List.reverse_append, List.reverse_cons, List.append_assoc,
      List.dropWhile_append_of_pos hlast]
    simp
  simp only [lexicalParent, hdropped, List.dropLast_concat]

theorem steps_append_slash (p q : Text) : steps (p ++ '/' :: q) = steps p ++ steps q := by
  rw [steps, Text.fields_append_mark, List.filter_append, List.map_append]
  rfl

theorem endsInSlash_append_slash (p : Text) {q : Text} (hq : q ≠ []) :
    endsInSlash (p ++ '/' :: q) = endsInSlash q := by
  have hlast : (p ++ '/' :: q).getLast? = q.getLast? := by
    rw [List.append_cons, List.getLast?_append_of_ne_nil _ hq]
  rw [endsInSlash, endsInSlash, hlast]

theorem steps_ne_nil {q : Text} (hq : q ≠ []) (hrel : isAbsolute q = false) : steps q ≠ [] := by
  cases q with
  | nil => exact absurd rfl hq
  | cons c rest =>
      have hc : c ≠ '/' := by simpa [isAbsolute] using hrel
      cases hfields : Text.fields '/' rest with
      | nil => exact absurd hfields (Text.fields_ne_nil '/' rest)
      | cons field later => simp [steps, Text.fields, hc, hfields]

theorem exists_join_eq {base q : Text} (hbase : isAbsolute base = true)
    (hrel : isAbsolute q = false) :
    ∃ front, join base q = front ++ '/' :: q ∧ steps front = steps base ∧ front ⊆ base := by
  rw [join, hrel, if_neg Bool.false_ne_true]
  -- the slash in front of the path is the last character of the base, or is added to it
  by_cases hslash : base.getLast? = some '/'
  · obtain ⟨front, hfront⟩ := List.getLast?_eq_some_iff.mp hslash
    refine ⟨front, ?_, ?_, ?_⟩
    · rw [if_pos (.inr hslash), hfront, List.append_assoc]
      rfl
    · rw [hfront, steps_append_slash]
      exact (List.append_nil _).symm
    · rw [hfront]
      exact List.subset_append_left front ['/']
  · have hne : base ≠ [] := by
      rintro rfl
      cases hbase
    exact ⟨base, if_neg (not_or.mpr ⟨hne, hslash⟩), rfl, List.Subset.refl base⟩

theorem isAbsolute_append {path : Text} (habs : isAbsolute path = true) (rest : Text) :
    isAbsolute (path ++ rest) = true := by
  cases path with
  | nil => cases habs
  | cons c more => exact habs

theorem join_append_slash (base : Text) {p : Text} (hp : p ≠ []) (q : Text) :
    join base (p ++ '/' :: q) = join base p ++ '/' :: q := by
  have habs : isAbsolute (p ++ '/' :: q) = isAbsolute p := by
    rw [isAbsolute, isAbsolute, List.head?_append_of_ne_nil _ hp]
  rw [join, join, habs]
  split
  · rfl
  · split <;> simp

end Path

namespace FileTree

variable {t : FileTree} {p : Place} {mode : Mode} {path q : Text}

/-- More links than a system goes on from would not change where a path leads. -/
def LinksSuffice (t : FileTree) (path : Text) : Prop :=
  ∀ (more : Nat) (r : Except Errno (Place × Entry)),
    Resolves t (maxLinks + more) Place.root (Path.steps path) (Path.endsInSlash path) r →
      Resolves t maxLinks Place.root (Path.steps path) (Path.endsInSlash path) r

/-- What more links do not change unless there were too many. -/
theorem Resolves.more {links : Nat} {here : Place} {steps : List Path.Step} {slash : Bool}
    {r : Except Errno (Place × Entry)} (h : Resolves t links here steps slash r)
    (hr : r ≠ .error .tooManyLinks) (more : Nat) :
    Resolves t (links + more) here steps slash r := by
  induction h with
  | arrived hentry => exact .arrived hentry
  | nowhere hnone => exact .nowhere hnone
  | barred hhere => exact .barred hhere
  | stay hhere _ ih => exact .stay hhere (ih hr)
  | up hhere _ ih => exact .up hhere (ih hr)
  | tooLong hhere hlong => exact .tooLong hhere hlong
  | missing hhere hshort hnone => exact .missing hhere hshort hnone
  | down hhere hshort hdir _ ih => exact .down hhere hshort hdir (ih hr)
  | @link links _ _ _ _ _ _ hhere hshort hlink _ ih =>
      rw [Nat.add_right_comm]
      exact .link hhere hshort hlink (ih hr)
  | tooMany => exact absurd rfl hr
  | last hhere hshort hentry hlast => exact .last hhere hshort hentry hlast
  | beyond hhere hshort hentry hlast hmore => exact .beyond hhere hshort hentry hlast hmore

theorem linksSuffice_of_arrive {r : Except Errno (Place × Entry)}
    (hwalk : t.arrive (t.walk .find maxLinks Place.root (Path.steps path) (Path.endsInSlash path)) =
      r) (hr : r ≠ .error .tooManyLinks) : t.LinksSuffice path := by
  intro more r' hr'
  have hmore := (resolves_iff.mpr hwalk).more hr more
  rw [← hr'.arrive_walk, hmore.arrive_walk]
  exact resolves_iff.mpr hwalk

def findFrom (t : FileTree) (p : Place) (q : Text) : Except IOError (Place × Entry) :=
  if '\x00' ∈ q then .error .nulInPath
  else (t.arrive (t.walk .find maxLinks p (Path.steps q) (Path.endsInSlash q))).mapError .os

theorem find_append_slash {front : Text} (habs : Path.isAbsolute (front ++ '/' :: q) = true)
    (hnul : '\x00' ∉ front) (hq : q ≠ [])
    (hshort : Path.isTooLong (Path.maxPath - 1) (front ++ '/' :: q) = false)
    (hwalk : t.arrive (t.walk .find maxLinks Place.root (Path.steps front ++ Path.steps q)
      (Path.endsInSlash q)) =
        t.arrive (t.walk .find maxLinks p (Path.steps q) (Path.endsInSlash q)))
    (start : Place) : t.find start (front ++ '/' :: q) = t.findFrom p q := by
  have hmem : '\x00' ∈ front ++ '/' :: q ↔ '\x00' ∈ q := by
    simp [hnul]
  rw [find_eq_walk habs, hshort, Path.steps_append_slash, Path.endsInSlash_append_slash front hq,
    hwalk, findFrom]
  simp only [hmem, Bool.false_eq_true, if_false]

theorem resolves_path (hp : p.Usable) (hdir : t.Enterable p) :
    ∃ mode, Resolves t 0 Place.root (Path.steps p.path) false (.ok (p, .directory mode)) := by
  obtain ⟨mode, hget, -⟩ := isSearchable_iff.mp (hdir p (List.suffix_refl p))
  have hnames : ∀ name ∈ p.reverse, Name.Proper name :=
    fun name hname => hp.names name (List.mem_reverse.mp hname)
  have hback : p.reverse.reverse ++ Place.root = p := by simp [Place.root]
  have hwalk := walk_down (t := t) hnames (by rwa [hback]) 0 false
  rw [hback, ← Place.steps_path hp] at hwalk
  refine ⟨mode, resolves_iff.mpr ?_⟩
  rw [hwalk]
  simp only [arrive, hget]

theorem walk_path_append (hp : p.Usable) (hdir : t.Enterable p) {rest : List Path.Step}
    (hrest : rest ≠ []) (slash : Bool) :
    t.walk .find maxLinks Place.root (Path.steps p.path ++ rest) slash =
      t.walk .find maxLinks p rest slash := by
  -- the walk gets there with no links to go on from, so it uses none
  obtain ⟨mode, hresolves⟩ := resolves_path hp hdir
  obtain ⟨used, hused, happend⟩ := hresolves.walk_append
  have h := happend maxLinks rest slash hrest
  rwa [Nat.le_zero.mp hused, Nat.zero_add] at h

theorem find_join_path (hp : p.Usable) (hdir : t.Enterable p) (hq : q ≠ [])
    (hrel : Path.isAbsolute q = false)
    (hshort : Path.isTooLong (Path.maxPath - 1) (Path.join p.path q) = false) (start : Place) :
    t.find start (Path.join p.path q) = t.findFrom p q := by
  have habs := Path.isAbsolute_join p.isAbsolute_path q
  obtain ⟨front, hfront, hsteps, hsub⟩ := Path.exists_join_eq p.isAbsolute_path hrel
  rw [hfront] at habs hshort ⊢
  refine find_append_slash habs (fun hnul => Place.nul_not_mem_path hp (hsub hnul)) hq hshort ?_
    start
  rw [hsteps, walk_path_append hp hdir (Path.steps_ne_nil hq hrel)]

theorem find_append {start : Place} (habs : Path.isAbsolute path = true)
    (hfind : t.find start path = .ok (p, .directory mode)) (hq : q ≠ [])
    (hrel : Path.isAbsolute q = false)
    (hshort : Path.isTooLong (Path.maxPath - 1) (path ++ '/' :: q) = false)
    (hlinks : t.LinksSuffice (path ++ '/' :: q)) :
    t.find start (path ++ '/' :: q) = t.findFrom p q := by
  have hleads := (leads_iff habs start).mpr hfind
  generalize hr : (.ok (p, .directory mode) : Except IOError (Place × Entry)) = r at hleads
  cases hleads with
  | nul | tooLong => cases hr
  | @walked r hnul hlong hwalk =>
      cases r with
      | error e => cases hr
      | ok found =>
          cases hr
          obtain ⟨used, -, happend⟩ := hwalk.walk_append
          refine find_append_slash (Path.isAbsolute_append habs _) hnul hq hshort ?_ start
          -- what the first path uses of the links is missing behind it, and is not needed there
          have hmore := hlinks used _ (resolves_iff.mpr rfl)
          rw [Path.steps_append_slash, Path.endsInSlash_append_slash path hq] at hmore
          rw [hmore.arrive_walk, Nat.add_comm,
            happend _ _ _ (Path.steps_ne_nil hq hrel)]

theorem spelled_append_slash {links : Nat} {slash : Bool} {front : Text}
    (hfront : Resolves t links Place.root (Path.steps front) slash (.ok (p, .directory mode)))
    (hfits : t.AllFit Place.root (Path.steps front) slash) (hp : fits p true = true) (hq : q ≠ [])
    (hrel : Path.isAbsolute q = false) :
    t.Spelled (front ++ '/' :: q) ↔ t.AllFit p (Path.steps q) (Path.endsInSlash q) := by
  rw [Spelled, Path.steps_append_slash, Path.endsInSlash_append_slash front hq]
  exact hfront.allFit_append hfits hp (Path.steps_ne_nil hq hrel)

theorem spelled_join_path (hp : p.Usable) (hdir : t.Enterable p) (hq : q ≠ [])
    (hrel : Path.isAbsolute q = false)
    (hshort : Path.isTooLong (Path.maxPath - 1) (Path.join p.path q) = false) :
    t.Spelled (Path.join p.path q) ↔ t.AllFit p (Path.steps q) (Path.endsInSlash q) := by
  have hfits := fits_of_join hp hrel hshort
  obtain ⟨mode, hresolves⟩ := resolves_path hp hdir
  obtain ⟨front, hfront, hsteps, -⟩ := Path.exists_join_eq p.isAbsolute_path hrel
  have hall := allFit_path hp hdir
  rw [← hsteps] at hresolves hall
  rw [hfront]
  exact spelled_append_slash hresolves hall hfits hq hrel

theorem spelled_append {start : Place} (habs : Path.isAbsolute path = true)
    (hfind : t.find start path = .ok (p, .directory mode)) (hspelled : t.Spelled path)
    (hp : fits p true = true) (hq : q ≠ []) (hrel : Path.isAbsolute q = false) :
    t.Spelled (path ++ '/' :: q) ↔ t.AllFit p (Path.steps q) (Path.endsInSlash q) := by
  have hleads := (leads_iff habs start).mpr hfind
  generalize hr : (.ok (p, .directory mode) : Except IOError (Place × Entry)) = r at hleads
  cases hleads with
  | nul | tooLong => cases hr
  | @walked r _ _ hwalk =>
      cases r with
      | error e => cases hr
      | ok found =>
          cases hr
          exact spelled_append_slash hwalk hspelled hp hq hrel

end FileTree

theorem Place.path_parent {p : Place} (hp : ∀ name ∈ p, '/' ∉ name) :
    p.parent.path = Path.lexicalParent p.path := by
  cases p with
  | nil => decide
  | cons name above =>
      rw [path_cons, Path.lexicalParent_append (hp name List.mem_cons_self)]
      cases above with
      | nil => rfl
      | cons other rest => simp [parent, path]

namespace Environment

variable {env : Environment} {h : Host} {dir : Place}

theorem changeDir_congr {env' : Environment} {path path' : Text}
    (hfind : h.find (env.resolve path) = h.find (env'.resolve path'))
    (hspelled : ∀ found, h.find (env.resolve path) = .ok found →
      h.tree.isSpellable h.workDir (env.resolve path) =
        h.tree.isSpellable h.workDir (env'.resolve path'))
    (hsame : ∀ cwd : Text, { env with cwd := cwd } = { env' with cwd := cwd }) :
    env.changeDir h path = env'.changeDir h path' := by
  rw [changeDir_eq, changeDir_eq, ← hfind]
  cases hfound : h.find (env.resolve path) with
  | error e => rfl
  | ok found =>
      rw [hspelled found hfound]
      simp only [hsame]

theorem changeDir_of_walk (hcwd : env.cwd = dir.path) (hdir : h.tree.Enterable dir)
    (husable : dir.Usable) {q : Text} (hq : q ≠ []) (hrel : Path.isAbsolute q = false)
    (hnul : '\x00' ∉ q) (hshort : Path.isTooLong (Path.maxPath - 1) (env.resolve q) = false)
    {p : Place} (hwalk : h.tree.walk .find FileTree.maxLinks dir (Path.steps q)
      (Path.endsInSlash q) = .ok (.found p))
    (hfits : h.tree.AllFit dir (Path.steps q) (Path.endsInSlash q))
    (hp : h.tree.isSearchable p = true) :
    env.changeDir h q = .ok { env with cwd := p.path } := by
  obtain ⟨mode, hget, hmode⟩ := FileTree.isSearchable_iff.mp hp
  rw [resolve, hcwd] at hshort
  have hfind : h.tree.find h.workDir (Path.join dir.path q) = .ok (p, .directory mode) := by
    rw [FileTree.find_join_path husable hdir hq hrel hshort, FileTree.findFrom, if_neg hnul, hwalk]
    simp only [FileTree.arrive, hget, Except.mapError]
  have hspelled := (FileTree.isSpellable_iff (Path.isAbsolute_join dir.isAbsolute_path q) hfind).mpr
    ((FileTree.spelled_join_path husable hdir hq hrel hshort).mpr hfits)
  rw [← hcwd] at hfind hspelled
  exact changeDir_eq_ok_iff.mpr ⟨p, mode, hfind, hmode, hspelled, rfl⟩

/-- From where a first path leads, a second leads where both lead in one. -/
theorem changeDir_append (hcwd : Path.isAbsolute env.cwd = true) (hlimits : h.tree.WithinLimits)
    {p q : Text} {moved : Environment} (hp : p ≠ []) (hq : q ≠ [])
    (hrel : Path.isAbsolute q = false) (hmoved : env.changeDir h p = .ok moved)
    (hshort : Path.isTooLong (Path.maxPath - 1) (env.resolve (p ++ '/' :: q)) = false)
    (hshort' : Path.isTooLong (Path.maxPath - 1) (moved.resolve q) = false)
    (hlinks : h.tree.LinksSuffice (env.resolve (p ++ '/' :: q))) :
    moved.changeDir h q = env.changeDir h (p ++ '/' :: q) := by
  obtain ⟨d, mode, hfind, hmode, hspelled, rfl⟩ := changeDir_eq_ok_iff.mp hmoved
  have habs := Path.isAbsolute_join hcwd p
  have hdir := FileTree.enterable_of_find habs hfind hmode
  have husable := hlimits.usable hdir
  simp only [resolve, Path.join_append_slash env.cwd hp q] at hshort hshort' hlinks
  have hsame : h.find (Path.join d.path q) = h.find (Path.join env.cwd p ++ '/' :: q) := by
    rw [Host.find, Host.find, FileTree.find_join_path husable hdir hq hrel hshort',
      FileTree.find_append habs hfind hq hrel hshort hlinks]
  have hspelled' := (FileTree.isSpellable_iff habs hfind).mp hspelled
  have hfits := FileTree.fits_of_join husable hrel hshort'
  refine changeDir_congr ?_ (fun found hfound => ?_) fun _ => rfl
  · simp only [resolve, Path.join_append_slash env.cwd hp q]
    exact hsame
  · -- both paths pass what the second one passes from where the first one leads
    simp only [resolve, Path.join_append_slash env.cwd hp q] at hfound ⊢
    rw [Bool.eq_iff_iff, FileTree.isSpellable_iff (Path.isAbsolute_join d.isAbsolute_path q) hfound,
      FileTree.isSpellable_iff (Path.isAbsolute_append habs _) (hsame.symm.trans hfound),
      FileTree.spelled_join_path husable hdir hq hrel hshort',
      FileTree.spelled_append habs hfind hspelled' hfits hq hrel]

/-- The laws of moving, for an environment that stands in a directory under its canonical path. -/
theorem changeDir_laws (hcwd : env.cwd = dir.path) (hdir : h.tree.Enterable dir)
    (hlimits : h.tree.WithinLimits) :
    (Path.isTooLong (Path.maxPath - 1) (env.resolve ".".toList) = false →
        env.changeDir h ".".toList = .ok env) ∧
      (Path.isTooLong (Path.maxPath - 1) (env.resolve "..".toList) = false →
        env.changeDir h "..".toList = .ok { env with cwd := Path.lexicalParent env.cwd }) ∧
      (∀ p moved, env.changeDir h p = .ok moved → ∀ other : Environment,
        other.changeDir h moved.cwd = .ok { other with cwd := moved.cwd }) ∧
      ∀ p q moved, p ≠ [] → q ≠ [] → Path.isAbsolute q = false →
        env.changeDir h p = .ok moved →
        Path.isTooLong (Path.maxPath - 1) (env.resolve (p ++ '/' :: q)) = false →
        Path.isTooLong (Path.maxPath - 1) (moved.resolve q) = false →
        h.tree.LinksSuffice (env.resolve (p ++ '/' :: q)) →
        moved.changeDir h q = env.changeDir h (p ++ '/' :: q) := by
  have husable := hlimits.usable hdir
  have hhere := hdir dir (List.suffix_refl dir)
  have habs : Path.isAbsolute env.cwd = true := by
    rw [hcwd]
    exact dir.isAbsolute_path
  refine ⟨fun hshort => ?_, fun hshort => ?_, ?_, ?_⟩
  · have hstay : h.tree.walk .find FileTree.maxLinks dir [.stay] false =
        h.tree.walk .find FileTree.maxLinks dir [] false := FileTree.walk_stay hhere []
    have hfits : h.tree.AllFit dir [.stay] false :=
      (FileTree.allFit_stay []).mpr FileTree.allFit_nil
    rw [changeDir_of_walk hcwd hdir husable (by decide) (by decide) (by decide) hshort
      (hstay.trans FileTree.walk_nil) hfits hhere, ← hcwd]
  · have hup : h.tree.walk .find FileTree.maxLinks dir [.up] false =
        h.tree.walk .find FileTree.maxLinks dir.parent [] false := FileTree.walk_up hhere []
    have hfits : h.tree.AllFit dir [.up] false := (FileTree.allFit_up []).mpr FileTree.allFit_nil
    have habove := hdir dir.parent (List.tail_suffix dir)
    rw [changeDir_of_walk hcwd hdir husable (by decide) (by decide) (by decide) hshort
      (hup.trans FileTree.walk_nil) hfits habove,
      Place.path_parent fun name hname => (husable.names name hname).noSlash, ← hcwd]
  · intro p moved hmoved other
    obtain ⟨d, mode, hfind, hmode, -, rfl⟩ := changeDir_eq_ok_iff.mp hmoved
    have hd := FileTree.enterable_of_find (Path.isAbsolute_join habs p) hfind hmode
    have husable' := hlimits.usable hd
    obtain ⟨mode', hfind', hmode'⟩ := FileTree.find_path husable' hd h.workDir
    have hspelled := (FileTree.isSpellable_iff d.isAbsolute_path hfind').mpr
      (FileTree.spelled_path husable' hd)
    rw [changeDir_eq_ok_iff, resolve, Path.join_of_isAbsolute _ d.isAbsolute_path]
    exact ⟨d, mode', hfind', hmode', hspelled, rfl⟩
  · intro p q moved hp hq hrel hmoved hshort hshort' hlinks
    exact changeDir_append habs hlimits hp hq hrel hmoved hshort hshort' hlinks

theorem changeDir_laws_link :
    let tree := (FileTree.bare.make ["e".toList, "d".toList] (.directory 0o755)).make
      ["l".toList] (.link "d/./e".toList)
    let h := Host.start tree Place.root
    let env := ofVariables "/dev".toList []
    let moved := ofVariables "/d/e".toList []
    (env.cwd = Place.path ["dev".toList] ∧ tree.Enterable ["dev".toList] ∧ tree.WithinLimits) ∧
      env.changeDir h "..".toList = .ok { env with cwd := "/".toList } ∧
      env.changeDir h "../l".toList = .ok moved ∧
      env.changeDir h "../l/../e/..".toList = .ok { env with cwd := "/d".toList } := by
  intro tree h env moved
  have hlimits : tree.WithinLimits := FileTree.withinLimits_of_entries (by decide +kernel)
  have hroot : tree.Enterable Place.root :=
    FileTree.enterable_iff.mpr ⟨by decide +kernel, trivial⟩
  have hdir : tree.Enterable ["dev".toList] :=
    FileTree.enterable_iff.mpr ⟨by decide +kernel, hroot⟩
  have hcwd : env.cwd = Place.path ["dev".toList] := by decide
  have hmoved : env.changeDir h "../l".toList = .ok moved := by decide +kernel
  have hlinks : tree.LinksSuffice (env.resolve ("../l".toList ++ '/' :: "../e/..".toList)) :=
    FileTree.linksSuffice_of_arrive (r := .ok (["d".toList], .directory 0o755))
      (by decide +kernel) (by decide)
  obtain ⟨-, hup, -, happend⟩ := changeDir_laws (h := h) hcwd hdir hlimits
  have hboth := happend "../l".toList "../e/..".toList moved (by decide) (by decide) (by decide)
    hmoved (by decide +kernel) (by decide +kernel) hlinks
  refine ⟨⟨hcwd, hdir, hlimits⟩, ?_, hmoved, ?_⟩
  · rw [hup (by decide +kernel)]
    decide +kernel
  · change env.changeDir h ("../l".toList ++ '/' :: "../e/..".toList) = _
    rw [← hboth]
    decide +kernel

end Environment

end LineShell
