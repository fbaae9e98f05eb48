import LineShell.Proofs.Host.Directories
import LineShell.Proofs.Host.Targets
import LineShell.Proofs.Lookup

/-!
# What opening and output leave to be found

A file that is made for output can neither be executed nor entered, and what else is opened or
written to keeps its place and its permissions.  So every path that led to a program or a
directory leads there still, and no path leads to a new one.
-/

namespace LineShell

namespace FileTree

/-- The second tree leads wherever the first does, and to nothing else that can be executed or
entered. -/
structure Retains (t t' : FileTree) : Prop where
  found : ∀ {start p : Place} {path : Text} {e : Entry}, t.find start path = .ok (p, e) →
    ∃ e', t'.find start path = .ok (p, e') ∧ e.outline = e'.outline
  passable : ∀ {start p : Place} {path : Text} {e' : Entry}, t'.find start path = .ok (p, e') →
    e'.isPassable = true → ∃ e, t.find start path = .ok (p, e) ∧ e.outline = e'.outline

end FileTree

theorem Entry.isPassable_of_outline {e e' : Entry} (h : e.outline = e'.outline) :
    e.isPassable = e'.isPassable := by
  have hmaps : (some e).map outline = (some e').map outline := congrArg some h
  rcases outline_cases hmaps with heq | ⟨m, c, m', c', he, he', hm⟩
  · rw [Option.some.inj heq]
  · rw [Option.some.inj he, Option.some.inj he', isPassable_file c c' hm]

theorem Entry.directory_of_outline {e : Entry} {mode : Mode}
    (h : e.outline = (directory mode).outline) : e = directory mode := by
  cases e with
  | directory _ => exact h
  | file _ _ | link _ | device _ => cases h

theorem Entry.file_of_outline {e : Entry} {mode : Mode} {content : Bytes}
    (h : e.outline = (file mode content).outline) :
    ∃ mode' content', e = file mode' content' ∧ mode'.executable = mode.executable := by
  cases e with
  | file mode' content' => exact ⟨mode', content', rfl, isPassable_of_outline h⟩
  | directory _ | link _ | device _ => cases h

namespace FileTree

variable {t t' t'' : FileTree} {p : Place}

namespace Retains

theorem refl (t : FileTree) : t.Retains t := ⟨fun h => ⟨_, h, rfl⟩, fun h _ => ⟨_, h, rfl⟩⟩

theorem trans (h : t.Retains t') (h' : t'.Retains t'') : t.Retains t'' where
  found := by
    intro start p path e hfind
    obtain ⟨e', hfind', heq⟩ := h.found hfind
    obtain ⟨e'', hfind'', heq'⟩ := h'.found hfind'
    exact ⟨e'', hfind'', heq.trans heq'⟩
  passable := by
    intro start p path e'' hfind'' hpass
    obtain ⟨e', hfind', heq'⟩ := h'.passable hfind'' hpass
    have hpass' : e'.isPassable = true := (Entry.isPassable_of_outline heq').trans hpass
    obtain ⟨e, hfind, heq⟩ := h.passable hfind' hpass'
    exact ⟨e, hfind, heq.trans heq'⟩

end Retains

theorem SameOutline.retains (h : t.SameOutline t') : t.Retains t' where
  found := by
    intro start p path e hfind
    rcases find_cases h start path with heq | ⟨q, m, c, m', c', ht, ht', hm⟩
    · exact ⟨e, heq ▸ hfind, rfl⟩
    · rw [ht] at hfind
      cases hfind
      exact ⟨_, ht', by simp [Entry.outline, hm]⟩
  passable := by
    intro start p path e' hfind' _
    rcases find_cases h start path with heq | ⟨q, m, c, m', c', ht, ht', hm⟩
    · exact ⟨e', heq ▸ hfind', rfl⟩
    · rw [ht'] at hfind'
      cases hfind'
      exact ⟨_, ht, by simp [Entry.outline, hm]⟩

/-! ## A new file -/

/-- Walks that end alike, or the second of which ends at a place where the first finds nothing. -/
def EndsAt (p : Place) (a b : Except Errno Arrival) : Prop :=
  a = b ∨ (∀ q, a ≠ .ok (.found q)) ∧ ∀ q, b = .ok (.found q) → q = p

theorem EndsAt.error {a : Except Errno Arrival} (ha : ∀ q, a ≠ .ok (.found q)) (e : Errno) :
    EndsAt p a (.error e) :=
  .inr ⟨ha, fun q h => by cases h⟩

theorem EndsAt.found {a : Except Errno Arrival} (ha : ∀ q, a ≠ .ok (.found q)) :
    EndsAt p a (.ok (.found p)) :=
  .inr ⟨ha, fun q h => by cases h; rfl⟩

theorem isSearchable_put_file (hp : t.get? p = none) (mode : Mode) (content : Bytes) (q : Place) :
    (t.put p (.file mode content)).isSearchable q = t.isSearchable q := by
  rw [isSearchable_eq, isSearchable_eq, directory?_put_file (directory?_of_none hp)]

theorem follow_put (hp : t.get? p = none) (mode : Mode) (content : Bytes) {intent : Intent}
    {jump jump' : Place → Text → List Path.Step → Bool → Except Errno Arrival}
    (hjump : ∀ here target rest slash,
      EndsAt p (jump here target rest slash) (jump' here target rest slash))
    (here : Place) (steps : List Path.Step) (slash : Bool) :
    EndsAt p (t.follow intent jump here steps slash)
      ((t.put p (.file mode content)).follow intent jump' here steps slash) := by
  induction steps generalizing here with
  | nil => exact .inl rfl
  | cons step rest ih =>
      unfold follow
      rw [isSearchable_put_file hp]
      split
      · exact .inl rfl
      · cases step with
        | stay => exact ih here
        | up => exact ih here.parent
        | down name =>
            dsimp only
            split
            · exact .inl rfl
            · split
              · exact .inl rfl
              · -- the trees differ in what stands at the place, and only there
                by_cases hnew : name :: here = p
                · rw [hnew, hp, get?_put, if_pos rfl]
                  dsimp only
                  have hmissing : ∀ q, (if rest = [] then .ok (.vacant p) else .error .noEntry :
                      Except Errno Arrival) ≠ .ok (.found q) := by
                    intro q h
                    split at h <;> cases h
                  generalize (if rest = [] then .ok (.vacant p) else .error .noEntry :
                    Except Errno Arrival) = missing at hmissing ⊢
                  split
                  · exact .found hmissing
                  · exact .error hmissing _
                · rw [get?_put, if_neg hnew]
                  cases t.get? (name :: here) with
                  | none => exact .inl rfl
                  | some entry =>
                      cases entry with
                      | directory _ => exact ih (name :: here)
                      | link target => exact hjump here target rest slash
                      | file _ _ | device _ => exact .inl rfl

theorem walk_put (hp : t.get? p = none) (mode : Mode) (content : Bytes) (intent : Intent)
    (links : Nat) (here : Place) (steps : List Path.Step) (slash : Bool) :
    EndsAt p (t.walk intent links here steps slash)
      ((t.put p (.file mode content)).walk intent links here steps slash) := by
  induction links generalizing here steps slash with
  | zero =>
      unfold walk
      exact follow_put hp mode content (fun _ _ _ _ => .inl rfl) here steps slash
  | succ links ih =>
      unfold walk
      exact follow_put hp mode content (fun _ _ _ _ => ih _ _ _) here steps slash

theorem locate_put (hp : t.get? p = none) (mode : Mode) (content : Bytes) (start : Place)
    (path : Text) :
    t.locate start .find path = (t.put p (.file mode content)).locate start .find path ∨
      (∀ q, t.locate start .find path ≠ .ok (.found q)) ∧
        ∀ q, (t.put p (.file mode content)).locate start .find path = .ok (.found q) → q = p := by
  have hmap {a : Except Errno Arrival} {q : Place}
      (h : a.mapError IOError.os = .ok (.found q)) : a = .ok (.found q) := by
    cases a with
    | error e => cases h
    | ok arrival =>
        cases h
        rfl
  unfold locate
  split
  · exact .inl rfl
  · split
    · exact .inl rfl
    · split
      · exact .inl rfl
      · rcases walk_put hp mode content .find maxLinks
            (if Path.isAbsolute path then Place.root else start) (Path.steps path)
            (Path.endsInSlash path) with heq | ⟨hnone, hplace⟩
        · exact .inl (congrArg (Except.mapError IOError.os) heq)
        · exact .inr ⟨fun q h => hnone q (hmap h), fun q h => hplace q (hmap h)⟩

theorem locate_of_find {start q : Place} {path : Text} {e : Entry}
    (h : t.find start path = .ok (q, e)) :
    t.locate start .find path = .ok (.found q) ∧ t.get? q = some e := by
  refine ⟨?_, get?_of_find h⟩
  unfold find at h
  split at h
  · cases h
  · cases h
  · next q' hlocate =>
      split at h
      · cases h
      · cases h
        exact hlocate

theorem find_of_locate {start q : Place} {path : Text} {e : Entry}
    (hlocate : t.locate start .find path = .ok (.found q)) (hentry : t.get? q = some e) :
    t.find start path = .ok (q, e) := by
  simp only [find, hlocate, hentry]

theorem retains_put (hp : t.get? p = none) {mode : Mode} (hmode : mode.executable = false)
    (content : Bytes) : t.Retains (t.put p (.file mode content)) where
  found := by
    intro start q path e hfind
    obtain ⟨hlocate, hentry⟩ := locate_of_find hfind
    have hq : q ≠ p := by
      rintro rfl
      rw [hp] at hentry
      cases hentry
    rcases locate_put hp mode content start path with heq | ⟨hnone, -⟩
    · refine ⟨e, find_of_locate (heq ▸ hlocate) ?_, rfl⟩
      rw [get?_put, if_neg hq, hentry]
    · exact absurd hlocate (hnone q)
  passable := by
    intro start q path e' hfind hpass
    obtain ⟨hlocate, hentry⟩ := locate_of_find hfind
    have hq : q ≠ p := by
      rintro rfl
      rw [get?_put, if_pos rfl] at hentry
      cases hentry
      rw [Entry.isPassable, hmode] at hpass
      cases hpass
    rw [get?_put, if_neg hq] at hentry
    rcases locate_put hp mode content start path with heq | ⟨-, hplace⟩
    · exact ⟨e', find_of_locate (heq.trans hlocate) hentry, rfl⟩
    · exact absurd (hplace q hlocate) hq

end FileTree

namespace Host

variable {h k : Host}

theorem Opening.retains {mode : WriteMode} {path : Text} {sink : Sink} {tree : FileTree}
    (ho : Opening h mode path sink tree) : h.tree.Retains tree := by
  cases ho with
  | created hp hparent =>
      exact FileTree.retains_put (FileTree.get?_of_vacant hp) (by decide) []
  | kept hp hfile hperms hmode => exact .refl h.tree
  | emptied hp hfile hperms hmode => exact (FileTree.sameOutline_put_afterWrite hfile []).retains
  | device hp hdevice => exact .refl h.tree

structure Retains (h k : Host) : Prop where
  workDir : h.workDir = k.workDir
  tree : h.tree.Retains k.tree

namespace Retains

theorem refl (h : Host) : h.Retains h := ⟨rfl, .refl h.tree⟩

theorem trans {k' : Host} (hk : h.Retains k) (hk' : k.Retains k') : h.Retains k' :=
  ⟨hk.workDir.trans hk'.workDir, hk.tree.trans hk'.tree⟩

theorem of_sameOutline (hk : h.SameOutline k) : h.Retains k := ⟨hk.workDir, hk.tree.retains⟩

theorem isExecutable_eq (hk : h.Retains k) (path : Text) :
    k.isExecutable path = h.isExecutable path := by
  apply Bool.eq_iff_iff.mpr
  rw [isExecutable_iff, isExecutable_iff]
  unfold find
  rw [← hk.workDir]
  constructor
  · rintro ⟨p, mode, content, hfind, hmode⟩
    obtain ⟨e, hbefore, houtline⟩ := hk.tree.passable hfind hmode
    obtain ⟨mode', content', rfl, heq⟩ := Entry.file_of_outline houtline
    exact ⟨p, mode', content', hbefore, heq.trans hmode⟩
  · rintro ⟨p, mode, content, hfind, hmode⟩
    obtain ⟨e', hafter, houtline⟩ := hk.tree.found hfind
    obtain ⟨mode', content', rfl, heq⟩ := Entry.file_of_outline houtline.symm
    exact ⟨p, mode', content', hafter, heq.trans hmode⟩

theorem resolveIn_eq (hk : h.Retains k) (env : Environment) (name : Text) :
    Lookup.resolveIn k env name = Lookup.resolveIn h env name := by
  have hexec : k.isExecutable = h.isExecutable := funext hk.isExecutable_eq
  unfold Lookup.resolveIn Lookup.resolve
  rw [hexec]

end Retains

theorem retains_flush (h : Host) : h.Retains h.flush.2 :=
  .of_sameOutline ((kept_sameOutline h).flush ⟨rfl, .refl h.tree⟩)

theorem retains_openTarget {opened : Host} {mode : WriteMode} {path : Text} {file : Descriptor}
    (ho : h.openTarget mode path = (.ok file, opened)) : h.Retains opened := by
  rcases openTarget_cases h mode path with ⟨e, he⟩ | ⟨sink, tree, hopening, hopened⟩
  · rw [he] at ho
    cases ho
  · rw [hopened] at ho
    cases ho
    exact ⟨rfl, hopening.retains⟩

end Host

end LineShell
