import LineShell.Proofs.Host.Custody

/-!
# Orders of release

A descriptor that is open from the beginning is never a file's.  What it stands for and what the
guards on it keep are descriptions that all differ, so nothing is written to a description that is
kept, and the descriptor gets it back as it was.  Guards that are released in the reverse order of
their making nest.  A descriptor that was closed may come to be a file's own; then the guard keeps
what the descriptor already stands for.
-/

namespace LineShell.Custody

open Host

variable {fd : Descriptor} {c : Custody}

def Alike (fd : Descriptor) (h k : Host) : Prop :=
  k.files.number? fd = h.files.number? fd ∧ k.files.description? fd = h.files.description? fd

theorem alike_withOpened {h : Host} (hs : h.Sound) (hne : fd ≠ h.files.firstFree)
    (mode : WriteMode) (sink : Sink) (tree : FileTree) :
    Alike fd h (h.withOpened mode sink tree) := by
  have hnumber : (h.withOpened mode sink tree).files.number? fd = h.files.number? fd :=
    (number?_withOpened ..).trans (if_neg hne)
  refine ⟨hnumber, ?_⟩
  unfold OpenFiles.description?
  rw [hnumber]
  cases hn : h.files.number? fd with
  | none => rfl
  | some n => exact OpenFiles.getElem?_add_of_lt h.files _ (hs.number fd n hn)

theorem files_settle_closed {h : Host} {other : Descriptor}
    (hclosed : h.files.number? other = none) : (h.settle other).files = h.files := by
  unfold Host.settle
  split
  · next hstdout =>
      obtain ⟨waiting, heq⟩ := flush_eq_write h
      rw [heq]
      unfold Host.write
      rw [← hstdout, hclosed]
      split <;> rfl
  · rfl

/-- How an attempt to point a descriptor at a target ends: the descriptor is left as it was, or it
stands for the target, and a guard is held that keeps what it stood for.  If it was closed and the
file got it, that is the target as well. -/
inductive Pointing (fd : Descriptor) (c : Custody) (mode : WriteMode) (path : Text) :
    Except ExecError Unit → Custody → Prop
  | refused {e : ExecError} : Pointing fd c mode path (.error e) c
  | closed {e : ExecError} {h : Host} (hclosed : c.host.files.number? fd = none)
      (halike : Alike fd c.host h) :
      Pointing fd c mode path (.error e) { c with
        host := h, files := c.files ++ [c.host.files.firstFree] }
  | pointed {saved number : Nat} {parked : Descriptor} {sink : Sink} {tree : FileTree}
      {made h : Host} (hopening : Opening c.host mode path sink tree)
      (hnew : number = c.host.files.descriptions.length)
      (hbefore : c.host.files.number? fd = some saved)
      (hsaved : made.files.number? fd = some saved)
      (hnumber : h.files.number? fd = some number)
      (hdescription : h.files.description? fd = some ⟨sink, 0, decide (mode = .append)⟩)
      (hmade : made.files.descriptions[number]? = some ⟨sink, 0, decide (mode = .append)⟩) :
      Pointing fd c mode path (.ok ()) { c with
        host := h
        files := c.files ++ [c.host.files.firstFree]
        held := c.held ++ [⟨⟨fd, parked⟩, number, made⟩] }
  | reopened {number : Nat} {parked : Descriptor} {sink : Sink} {tree : FileTree}
      {made h : Host} (hopening : Opening c.host mode path sink tree)
      (hnew : number = c.host.files.descriptions.length)
      (hbefore : c.host.files.number? fd = none) (hfile : fd = c.host.files.firstFree)
      (hsaved : made.files.number? fd = some number)
      (hnumber : h.files.number? fd = some number)
      (hdescription : ∃ offset,
        h.files.description? fd = some ⟨sink, offset, decide (mode = .append)⟩) :
      Pointing fd c mode path (.ok ()) { c with
        host := h
        files := c.files ++ [c.host.files.firstFree]
        held := c.held ++ [⟨⟨fd, parked⟩, number, made⟩] }

theorem description?_acquired {h : Host} {file : Descriptor} {saved number : Nat}
    (hsaved : h.files.number? fd = some saved) (hfile : h.files.number? file = some number) :
    (h.acquired fd file).files.description? fd = (h.settle fd).files.descriptions[number]? := by
  unfold OpenFiles.description?
  rw [number?_acquired hsaved hfile, if_pos rfl, Option.bind_some, descriptions_acquired]

theorem kind?_acquired_withOpened {h : Host} {mode : WriteMode} {sink : Sink} {tree : FileTree}
    {saved : Nat} (hsaved : (h.withOpened mode sink tree).files.number? fd = some saved) :
    ((h.withOpened mode sink tree).acquired fd h.files.firstFree).files.kind? fd =
      some (sink, decide (mode = .append)) := by
  have hnumber := number?_acquired hsaved (number?_withOpened_firstFree h mode sink tree) fd
  rw [if_pos rfl] at hnumber
  unfold OpenFiles.kind? OpenFiles.kinds
  rw [hnumber, Option.bind_some, descriptions_acquired]
  change (OpenFiles.kinds _)[_]? = _
  rw [(stays_settle ..).kinds, OpenFiles.kinds, List.getElem?_map, getElem?_withOpened,
    Option.map_some]

/-- The flush before a switch goes through the description of before, so the new one is as it was
made. -/
theorem getElem?_settle_withOpened {h : Host} (hs : h.Sound) {saved : Nat}
    (hbefore : h.files.number? fd = some saved) (mode : WriteMode) (sink : Sink)
    (tree : FileTree) :
    ((h.withOpened mode sink tree).settle fd).files.descriptions[h.files.descriptions.length]? =
      some ⟨sink, 0, decide (mode = .append)⟩ := by
  have hconfined : Confined (fun n => (h.withOpened mode sink tree).files.number? fd = some n)
      (h.withOpened mode sink tree) ((h.withOpened mode sink tree).settle fd) :=
    .settle fun _ hn => hn
  refine (hconfined.description _ ?_).trans (getElem?_withOpened h mode sink tree)
  rw [number?_withOpened, if_neg (OpenFiles.ne_firstFree hbefore), hbefore, Option.some.injEq]
  exact Nat.ne_of_lt (hs.number fd saved hbefore)

theorem Secure.pointing (hc : c.Secure fd) (mode : WriteMode) (path : Text) :
    Pointing fd c mode path (c.point fd mode path).1 (c.point fd mode path).2 := by
  rcases point_cases fd c mode path with
    ⟨e, hpoint⟩ | ⟨sink, tree, hopening, ⟨hclosed, hpoint⟩ | ⟨saved, hsaved, hpoint⟩⟩
  · rw [hpoint]
    exact .refused
  · rw [hpoint]
    have hnumber := number?_withOpened c.host mode sink tree fd
    have hne : fd ≠ c.host.files.firstFree := by
      rintro heq
      rw [if_pos heq, hclosed] at hnumber
      cases hnumber
    rw [if_neg hne, hclosed] at hnumber
    have halike := alike_withOpened hc.host hne mode sink tree
    refine .closed hnumber.symm ?_
    unfold Alike
    rw [files_settle_closed hclosed]
    exact halike
  · rw [hpoint]
    have hsettled := stays_settle (c.host.withOpened mode sink tree) fd
    have hfile := number?_withOpened_firstFree c.host mode sink tree
    have hnumber := number?_acquired hsaved hfile fd
    rw [if_pos rfl] at hnumber
    have hbefore := number?_withOpened c.host mode sink tree fd
    rw [hsaved] at hbefore
    by_cases heq : fd = c.host.files.firstFree
    · rw [if_pos heq] at hbefore
      exact .reopened hopening rfl (heq ▸ c.host.files.number?_firstFree) heq
        ((hsettled.number fd).trans (hsaved.trans hbefore)) hnumber
        (OpenFiles.description?_of_kind? (kind?_acquired_withOpened hsaved))
    · rw [if_neg heq] at hbefore
      have hmade := getElem?_settle_withOpened hc.host hbefore.symm mode sink tree
      exact .pointed hopening rfl hbefore.symm ((hsettled.number fd).trans hsaved) hnumber
        ((description?_acquired hsaved hfile).trans hmade) hmade

/-! ## A descriptor that is open -/

/-- The descriptor is open and no file's, and it stands for another description than each that a
guard keeps; these all differ and are as they were. -/
structure Faithful (fd : Descriptor) (c : Custody) : Prop where
  current : c.host.files.number? fd ≠ none
  unfiled : fd ∉ c.files
  apart : ∀ x ∈ c.held, c.host.files.number? fd ≠ x.made.files.number? fd
  distinct : (c.held.map (·.made.files.number? fd)).Nodup
  description : ∀ x ∈ c.held,
    c.host.files.description? x.guard.saved = x.made.files.description? fd

theorem Secure.bound (hc : c.Secure fd) {x : Hold} (hx : x ∈ c.held) {n : Nat}
    (hn : x.made.files.number? fd = some n) : n < c.host.files.descriptions.length := by
  obtain ⟨m, hm, hkept⟩ := hc.kept x hx
  obtain rfl := Option.some.inj (hn.symm.trans hm)
  exact hc.host.number x.guard.saved n hkept

theorem Faithful.of_alike (hf : c.Faithful fd) {h : Host}
    (hnumber : h.files.number? fd = c.host.files.number? fd)
    (halike : ∀ x ∈ c.held, Alike x.guard.saved c.host h) : Faithful fd { c with host := h } := by
  refine ⟨hnumber ▸ hf.current, hf.unfiled, fun x hx => ?_, hf.distinct, fun x hx => ?_⟩
  · dsimp only
    rw [hnumber]
    exact hf.apart x hx
  · exact (halike x hx).2.trans (hf.description x hx)

theorem Faithful.confined (hf : c.Faithful fd) (hc : c.Secure fd) {h : Host}
    (hconfined : Confined (fun n => c.host.files.number? fd = some n) c.host h) :
    Faithful fd { c with host := h } := by
  refine hf.of_alike (hconfined.files.number fd) fun x hx => ?_
  obtain ⟨n, hmade, hn⟩ := hc.kept x hx
  have hapart := hf.apart x hx
  rw [hmade] at hapart
  refine ⟨hconfined.files.number _, ?_⟩
  unfold OpenFiles.description?
  rw [hconfined.files.number, hn, Option.bind_some, Option.bind_some,
    hconfined.description n hapart]

theorem Faithful.settle (hf : c.Faithful fd) (hc : c.Secure fd) :
    Faithful fd { c with host := c.host.settle fd } :=
  hf.confined hc (.settle fun _ hn => hn)

theorem Faithful.ne_firstFree (hf : c.Faithful fd) : fd ≠ c.host.files.firstFree := by
  obtain ⟨n, hn⟩ := Option.ne_none_iff_exists'.mp hf.current
  exact OpenFiles.ne_firstFree hn

theorem Faithful.withOpened (hf : c.Faithful fd) (hc : c.Secure fd) (mode : WriteMode) (sink : Sink)
    (tree : FileTree) :
    Faithful fd { c with
      host := c.host.withOpened mode sink tree, files := c.files ++ [c.host.files.firstFree] } := by
  have hopened : Faithful fd { c with host := c.host.withOpened mode sink tree } := by
    refine hf.of_alike ((number?_withOpened ..).trans (if_neg hf.ne_firstFree)) fun x hx => ?_
    exact alike_withOpened hc.host (hc.ne_firstFree (saved_mem_taken hx)) mode sink tree
  refine { hopened with unfiled := fun hmem => ?_ }
  rcases List.mem_append.mp hmem with hmem | hmem
  · exact hf.unfiled hmem
  · exact hf.ne_firstFree (List.mem_singleton.mp hmem)

theorem Faithful.acquired (hf : c.Faithful fd) (hc : c.Secure fd) {file : Descriptor}
    {saved number target : Nat} (hsaved : c.host.files.number? fd = some saved)
    (hfile : c.host.files.number? file = some number) (hne : number ≠ saved)
    (hfresh : ∀ x ∈ c.held, x.made.files.number? fd ≠ some number) :
    Faithful fd { c with
      host := c.host.acquired fd file
      held := c.held ++ [⟨⟨fd, c.host.files.firstFree⟩, target, c.host.settle fd⟩] } := by
  have hnumber (one : Descriptor) := number?_acquired hsaved hfile one
  have hnow := hnumber fd
  rw [if_pos rfl] at hnow
  have hmade := (stays_settle c.host fd).number fd
  have hsettled := hf.settle hc
  have hfree := OpenFiles.ne_firstFree hsaved
  refine ⟨?_, hf.unfiled, ?_, ?_, ?_⟩
  · dsimp only
    rw [hnow]
    exact nofun
  · dsimp only
    rw [hnow]
    refine List.forall_mem_append.mpr
      ⟨fun x hx => (hfresh x hx).symm, List.forall_mem_singleton.mpr ?_⟩
    rw [hmade, hsaved, ne_eq, Option.some.injEq]
    exact hne
  · -- the new guard keeps the description that no other guard may keep
    rw [List.map_append, List.map_singleton, ← List.concat_eq_append]
    refine hf.distinct.concat fun hmem => ?_
    obtain ⟨x, hx, heq⟩ := List.mem_map.mp hmem
    exact hf.apart x hx (heq.trans hmade).symm
  · refine List.forall_mem_append.mpr ⟨fun x hx => ?_, List.forall_mem_singleton.mpr ?_⟩
    · refine Eq.trans ?_ (hsettled.description x hx)
      unfold OpenFiles.description?
      rw [hnumber, if_neg (hc.guards x hx).2, if_neg (hc.ne_firstFree (saved_mem_taken hx)),
        descriptions_acquired, (stays_settle c.host fd).number]
    · unfold OpenFiles.description?
      rw [hnumber, if_neg hfree.symm, if_pos rfl, descriptions_acquired, hmade, hsaved]

theorem Faithful.close (hf : c.Faithful fd) (hc : c.Secure fd) (i : Nat) :
    (c.close i).Faithful fd := by
  cases hi : c.files[i]? with
  | none => rwa [close_of_none hi]
  | some file =>
      rw [close_of_some hi]
      have hdistinct := (List.nodup_cons.mp (hc.distinct_file hi)).1
      have hnumber (one : Descriptor) (hone : one ≠ file) :
          (c.host.close file).files.number? one = c.host.files.number? one :=
        (OpenFiles.number?_close ..).trans (if_neg hone)
      have hfd : fd ≠ file := fun heq => hf.unfiled (heq ▸ List.mem_of_getElem? hi)
      have herased : Faithful fd { c with files := c.files.eraseIdx i } :=
        { hf with unfiled := fun hmem => hf.unfiled (List.mem_of_mem_eraseIdx hmem) }
      refine herased.of_alike (hnumber fd hfd) fun x hx => ?_
      have hsaved := hnumber x.guard.saved fun heq =>
        hdistinct (heq ▸ List.mem_append_left _ (List.mem_map.mpr ⟨x, hx, rfl⟩))
      refine ⟨hsaved, ?_⟩
      unfold OpenFiles.description?
      rw [hsaved]
      rfl

theorem Faithful.release (hf : c.Faithful fd) (hc : c.Secure fd) (i : Nat) :
    (c.release i).Faithful fd := by
  cases hx : c.held[i]? with
  | none => rwa [release_of_none hx]
  | some x =>
      have hmem := List.mem_of_getElem? hx
      have hback := hc.number?_released hx
      obtain ⟨n, hmade, hn⟩ := hc.kept x hmem
      have hnumber := hc.number?_release hmem hn
      have htaken := (List.nodup_cons.mp (hc.distinct_guard hx)).1
      have hdistinct : ((x :: c.held.eraseIdx i).map (·.made.files.number? fd)).Nodup :=
        ((getElem_cons_eraseIdx_perm hx).map _).nodup_iff.mpr hf.distinct
      rw [List.map_cons, List.nodup_cons] at hdistinct
      rw [release_of_some hx] at hback ⊢
      have hothers : ∀ y ∈ c.held.eraseIdx i, y ∈ c.held := fun y hy =>
        List.mem_of_mem_eraseIdx hy
      refine ⟨?_, hf.unfiled, fun y hy => ?_, hdistinct.2, fun y hy => ?_⟩
      · rw [hback, hmade]
        exact nofun
      · rw [hback]
        exact fun heq => hdistinct.1 (List.mem_map.mpr ⟨y, hy, heq.symm⟩)
      · have hne : y.guard.saved ≠ x.guard.saved := fun heq =>
          htaken (heq ▸ List.mem_append_left _ (List.mem_map.mpr ⟨y, hy, rfl⟩))
        refine Eq.trans ?_ ((hf.settle hc).description y (hothers y hy))
        unfold OpenFiles.description?
        dsimp only
        rw [hnumber, if_neg hne, if_neg (hc.guards y (hothers y hy)).2, descriptions_release,
          (hc.guards x hmem).1, (stays_settle c.host fd).number]

theorem Faithful.point (hf : c.Faithful fd) (hc : c.Secure fd) (mode : WriteMode) (path : Text) :
    (c.point fd mode path).2.Faithful fd := by
  rcases point_cases fd c mode path with
    ⟨e, hpoint⟩ | ⟨sink, tree, hopening, ⟨-, hpoint⟩ | ⟨saved, hsaved, hpoint⟩⟩
  · rw [hpoint]
    exact hf
  · rw [hpoint]
    exact (hf.withOpened hc mode sink tree).settle (hc.withOpened hopening)
  · rw [hpoint]
    have hbefore := number?_withOpened c.host mode sink tree fd
    rw [if_neg hf.ne_firstFree, hsaved] at hbefore
    have hbound := hc.host.number fd saved hbefore.symm
    refine (hf.withOpened hc mode sink tree).acquired (hc.withOpened hopening) hsaved
      (number?_withOpened_firstFree ..) (Nat.ne_of_gt hbound) fun x hx hn => ?_
    exact Nat.lt_irrefl _ (hc.bound hx hn)

theorem Faithful.apply (hf : c.Faithful fd) (hc : c.Secure fd) (step : Step) :
    (step.apply fd c).Faithful fd := by
  cases step with
  | write data => exact hf.confined hc (.write (fun _ hn => hn) data)
  | point mode path => exact hf.point hc mode path
  | close i => exact hf.close hc i
  | release i => exact hf.release hc i

theorem Faithful.run (hf : c.Faithful fd) (hc : c.Secure fd) (steps : List Step) :
    (c.run fd steps).Faithful fd := by
  induction steps generalizing c with
  | nil => exact hf
  | cons step steps ih => exact ih (hf.apply hc step) (hc.apply step)

/-- Whether each of the steps fits the state that it is taken in. -/
def Throughout (fd : Descriptor) (fits : Step → Custody → Prop) : List Step → Custody → Prop
  | [], _ => True
  | step :: steps, c => fits step c ∧ Throughout fd fits steps (step.apply fd c)

theorem Throughout.mono {fits more : Step → Custody → Prop}
    (h : ∀ step c, fits step c → more step c) {steps : List Step}
    (hsteps : Throughout fd fits steps c) : Throughout fd more steps c := by
  induction steps generalizing c with
  | nil => trivial
  | cons step steps ih => exact ⟨h step c hsteps.1, ih hsteps.2⟩

def Nested (fd : Descriptor) : List Step → Custody → Prop :=
  Throughout fd fun step c => ∀ i, step = .release i → c.held.length ≤ i + 1

/-- Whether steps close no file that got the descriptor itself. -/
def Unclosed (fd : Descriptor) : List Step → Custody → Prop :=
  Throughout fd fun step c => ∀ i, step = .close i → c.files[i]? ≠ some fd

/-- Whether steps close no file that got the descriptor itself while no guard is held. -/
def Guarded (fd : Descriptor) : List Step → Custody → Prop :=
  Throughout fd fun step c => ∀ i, step = .close i → c.held = [] → c.files[i]? ≠ some fd

theorem Unclosed.guarded {steps : List Step} (h : Unclosed fd steps c) : Guarded fd steps c :=
  Throughout.mono (fun _ _ hstep i hi _ => hstep i hi) h

theorem number?_close_apart {i : Nat} (hi : c.files[i]? ≠ some fd) :
    (c.close i).host.files.number? fd = c.host.files.number? fd := by
  cases hfile : c.files[i]? with
  | none => rw [close_of_none hfile]
  | some file =>
      rw [close_of_some hfile]
      refine (OpenFiles.number?_close ..).trans (if_neg ?_)
      rintro rfl
      exact hi hfile

theorem held_close (c : Custody) (i : Nat) : (c.close i).held = c.held := by
  unfold Custody.close
  split <;> rfl

theorem released_close (c : Custody) (i : Nat) : (c.close i).released = c.released := by
  unfold Custody.close
  split <;> rfl

/-- Each guard keeps what the one before it pointed the descriptor at, and the first guard what the
descriptor stood for at first. -/
def Stacked (fd : Descriptor) (first : Option Nat) (c : Custody) : Prop :=
  (c.held.map (·.made.files.number? fd)) ++ [c.host.files.number? fd] =
    first :: c.held.map fun x => some x.target

theorem Stacked.number? {first : Option Nat} (hc : Stacked fd first c) :
    c.host.files.number? fd = match c.held.getLast? with
      | some x => some x.target
      | none => first := by
  have hlast := congrArg List.getLast? hc
  rw [List.getLast?_append, List.getLast?_singleton, List.getLast?_cons, List.getLast?_map] at hlast
  cases hheld : c.held.getLast? with
  | none => simpa [hheld] using hlast
  | some x => simpa [hheld] using hlast

theorem Stacked.of_closed {first : Option Nat} (hc : Stacked fd first c)
    (hclosed : c.host.files.number? fd = none) : c.held = [] ∧ first = none := by
  have hnumber := hc.number?
  rw [hclosed] at hnumber
  cases hlast : c.held.getLast? with
  | none =>
      rw [hlast] at hnumber
      exact ⟨List.getLast?_eq_none_iff.mp hlast, hnumber.symm⟩
  | some x =>
      rw [hlast] at hnumber
      cases hnumber

theorem Stacked.pointing {first : Option Nat} (hc : Stacked fd first c) {mode : WriteMode}
    {path : Text} {result : Except ExecError Unit} {after : Custody}
    (hpointing : Pointing fd c mode path result after) :
    ∃ now, Stacked fd now after ∧ (first ≠ none → now = first) := by
  cases hpointing with
  | refused => exact ⟨first, hc, fun _ => rfl⟩
  | closed _ halike =>
      refine ⟨first, ?_, fun _ => rfl⟩
      unfold Stacked at hc ⊢
      rw [halike.1, hc]
  | pointed _ _ hbefore hsaved hnumber =>
      refine ⟨first, ?_, fun _ => rfl⟩
      unfold Stacked at hc ⊢
      rw [hbefore] at hc
      rw [hnumber, List.map_append, List.map_append, List.map_singleton, List.map_singleton, hsaved,
        hc, List.cons_append]
  | @reopened number _ _ _ _ _ _ _ hbefore _ hsaved hnumber =>
      -- no guard is held on a closed descriptor, so the stack begins with this one
      obtain ⟨hnone, hfirst⟩ := hc.of_closed hbefore
      refine ⟨some number, ?_, fun hopen => absurd hfirst hopen⟩
      unfold Stacked
      rw [hnone, hnumber]
      simp only [List.nil_append, List.map_singleton, hsaved, List.singleton_append]

theorem held_eq_concat {i : Nat} {x : Hold} (hx : c.held[i]? = some x)
    (hlast : c.held.length ≤ i + 1) :
    c.held = c.held.dropLast ++ [x] ∧ c.held.eraseIdx i = c.held.dropLast := by
  obtain ⟨hi, hget⟩ := List.getElem?_eq_some_iff.mp hx
  have hindex : i = c.held.length - 1 := by omega
  have hne : c.held ≠ [] := List.ne_nil_of_length_pos (by omega)
  have hsplit := List.dropLast_append_getLast hne
  rw [List.getLast_eq_getElem hne] at hsplit
  simp only [← hindex, hget] at hsplit
  exact ⟨hsplit.symm, by rw [hindex, List.eraseIdx_length_sub_one]⟩

theorem Stacked.release {first : Option Nat} (hsecure : c.Secure fd) (hc : Stacked fd first c)
    {i : Nat} (hlast : c.held.length ≤ i + 1) : Stacked fd first (c.release i) := by
  cases hx : c.held[i]? with
  | none => rwa [release_of_none hx]
  | some x =>
      obtain ⟨hheld, herased⟩ := held_eq_concat hx hlast
      have hnumber := hsecure.number?_released hx
      unfold Stacked at hc ⊢
      rw [hnumber, release_of_some hx]
      dsimp only
      -- both sides of the stack lose their last element: the target of the guard that is released
      rw [herased]
      rw [hheld, List.map_append, List.map_append, List.map_singleton, List.map_singleton,
        ← List.cons_append] at hc
      exact List.append_inj_left' hc rfl

theorem Stacked.apply {first : Option Nat} (hsecure : c.Secure fd) (hc : Stacked fd first c)
    {step : Step} (hclose : ∀ i, step = .close i → c.files[i]? ≠ some fd)
    (hrelease : ∀ i, step = .release i → c.held.length ≤ i + 1) :
    ∃ now, Stacked fd now (step.apply fd c) ∧ (first ≠ none → now = first) := by
  cases step with
  | write data =>
      refine ⟨first, ?_, fun _ => rfl⟩
      unfold Stacked at hc ⊢
      dsimp only [Step.apply]
      rw [(stays_write c.host fd data).number fd, hc]
  | point mode path => exact hc.pointing (hsecure.pointing mode path)
  | close i =>
      refine ⟨first, ?_, fun _ => rfl⟩
      unfold Stacked at hc ⊢
      dsimp only [Step.apply]
      rw [held_close, number?_close_apart (hclose i rfl), hc]
  | release i => exact ⟨first, hc.release hsecure (hrelease i rfl), fun _ => rfl⟩

theorem Stacked.run {first : Option Nat} (hsecure : c.Secure fd) (hc : Stacked fd first c)
    {steps : List Step} (hunclosed : Unclosed fd steps c) (hnested : Nested fd steps c) :
    ∃ now, Stacked fd now (c.run fd steps) ∧ (first ≠ none → now = first) := by
  induction steps generalizing first c with
  | nil => exact ⟨first, hc, fun _ => rfl⟩
  | cons step steps ih =>
      obtain ⟨next, hnext, hfirst⟩ := hc.apply hsecure hunclosed.1 hnested.1
      obtain ⟨now, hnow, hlater⟩ := ih (hsecure.apply step) hnext hunclosed.2 hnested.2
      refine ⟨now, hnow, fun hopen => ?_⟩
      obtain rfl := hfirst hopen
      exact hlater hopen

/-- While no guard is held the descriptor stands for what the guard that was released last kept, or
for what it stood for at first. -/
def Returned (fd : Descriptor) (first : Option Nat) (c : Custody) : Prop :=
  c.held = [] → c.host.files.number? fd = match c.released.head? with
    | some x => x.made.files.number? fd
    | none => first

theorem Returned.pointing {first : Option Nat} (hc : Returned fd first c) {mode : WriteMode}
    {path : Text} {result : Except ExecError Unit} {after : Custody}
    (hpointing : Pointing fd c mode path result after) : Returned fd first after := by
  intro hnone
  cases hpointing with
  | refused => exact hc hnone
  | closed _ halike =>
      rw [halike.1]
      exact hc hnone
  | pointed => simp at hnone
  | reopened => simp at hnone

theorem Returned.apply {first : Option Nat} (hsecure : c.Secure fd) (hc : Returned fd first c)
    {step : Step} (hstep : ∀ i, step = .close i → c.held = [] → c.files[i]? ≠ some fd) :
    Returned fd first (step.apply fd c) := by
  cases step with
  | write data =>
      intro hnone
      dsimp only [Step.apply] at hnone ⊢
      rw [(stays_write c.host fd data).number fd]
      exact hc hnone
  | point mode path => exact hc.pointing (hsecure.pointing mode path)
  | close i =>
      intro hnone
      dsimp only [Step.apply] at hnone ⊢
      rw [held_close] at hnone
      rw [number?_close_apart (hstep i rfl hnone), released_close]
      exact hc hnone
  | release i =>
      cases hx : c.held[i]? with
      | none =>
          dsimp only [Step.apply]
          rwa [release_of_none hx]
      | some x =>
          intro _
          dsimp only [Step.apply]
          rw [hsecure.number?_released hx, release_of_some hx]
          rfl

theorem Returned.run {first : Option Nat} (hsecure : c.Secure fd) (hc : Returned fd first c)
    {steps : List Step} (hsteps : Guarded fd steps c) : Returned fd first (c.run fd steps) := by
  induction steps generalizing c with
  | nil => exact hc
  | cons step steps ih => exact ih (hsecure.apply step) (hc.apply hsecure hsteps.1) hsteps.2

theorem Faithful.unclosed (hf : c.Faithful fd) (hc : c.Secure fd) (steps : List Step) :
    Unclosed fd steps c := by
  induction steps generalizing c with
  | nil => trivial
  | cons step steps ih =>
      exact ⟨fun i _ hi => hf.unfiled (List.mem_of_getElem? hi),
        ih (hf.apply hc step) (hc.apply step)⟩

end LineShell.Custody
