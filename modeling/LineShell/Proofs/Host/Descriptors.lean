import LineShell.Redirection
import Mathlib.Data.List.Nodup
import Mathlib.Data.List.Perm.Subperm

/-!
# Descriptors and their sinks

What changes of the open files keep.  Moving an offset keeps every sink.  An opened file gets a
sink behind the others, for which a descriptor stands that was free.  A guard keeps a description
open under a descriptor that was free too, and when it has been released every descriptor that was
open stands for what it stood for.
-/

namespace LineShell.OpenFiles

/-! ## Single changes -/

/-- What a description is but for its offset: where it leads, and whether it always goes to the
end. -/
def kinds (o : OpenFiles) : List (Sink × Bool) := o.descriptions.map fun d => (d.sink, d.append)

theorem length_kinds (o : OpenFiles) : o.kinds.length = o.descriptions.length := List.length_map ..

def kind? (o : OpenFiles) (fd : Descriptor) : Option (Sink × Bool) :=
  (o.number? fd).bind (o.kinds[·]?)

theorem description?_of_kind? {o : OpenFiles} {fd : Descriptor} {sink : Sink} {append : Bool}
    (h : o.kind? fd = some (sink, append)) :
    ∃ offset, o.description? fd = some ⟨sink, offset, append⟩ := by
  obtain ⟨n, hn, hkind⟩ := Option.bind_eq_some_iff.mp h
  rw [kinds, List.getElem?_map] at hkind
  obtain ⟨⟨_, offset, _⟩, hd, heq⟩ := Option.map_eq_some_iff.mp hkind
  cases heq
  exact ⟨offset, by rw [description?, hn, Option.bind_some, hd]⟩

theorem sinks_of_kinds (o : OpenFiles) : o.descriptions.map (·.sink) = o.kinds.map (·.1) := by
  simp [kinds]

theorem kinds_moveTo (o : OpenFiles) (number offset : Nat) :
    (o.moveTo number offset).kinds = o.kinds := by
  apply List.ext_getElem?
  intro i
  simp only [kinds, moveTo, List.getElem?_map, List.getElem?_modify]
  cases o.descriptions[i]? with
  | none => rfl
  | some d => by_cases hi : number = i <;> simp [hi]

theorem getElem?_moveTo {o : OpenFiles} {number : Nat} {d : Description}
    (hd : o.descriptions[number]? = some d) (offset : Nat) :
    (o.moveTo number offset).descriptions[number]? = some { d with offset := offset } := by
  simp [moveTo, hd]

theorem getElem?_moveTo_of_ne (o : OpenFiles) {number n : Nat} (h : number ≠ n)
    (offset : Nat) : (o.moveTo number offset).descriptions[n]? = o.descriptions[n]? := by
  simp [moveTo, h]

theorem of_getElem?_moveTo {o : OpenFiles} {number offset n : Nat} {d : Description}
    (hd : (o.moveTo number offset).descriptions[n]? = some d) :
    ∃ d₀, o.descriptions[n]? = some d₀ ∧ d.sink = d₀.sink ∧ d.append = d₀.append := by
  simp only [moveTo, List.getElem?_modify] at hd
  obtain ⟨d₀, hd₀, rfl⟩ := Option.map_eq_some_iff.mp hd
  refine ⟨d₀, hd₀, ?_⟩
  split <;> exact ⟨rfl, rfl⟩

theorem mem_table_of_number? {o : OpenFiles} {fd : Descriptor} {n : Nat}
    (hfd : o.number? fd = some n) : (fd, n) ∈ o.table := by
  obtain ⟨before, after, htable, -⟩ := List.lookup_eq_some_iff.mp hfd
  simp [htable]

/-- A row each for as many descriptors as there are rows leaves none for the next descriptor. -/
theorem number?_length_of_full {o : OpenFiles}
    (hfull : ∀ n < o.table.length, ∃ m, o.number? (n : Int) = some m) :
    o.number? (o.table.length : Int) = none := by
  cases hlast : o.number? (o.table.length : Int) with
  | none => rfl
  | some last =>
      have hopen : ∀ n < o.table.length + 1, ∃ m, o.number? (n : Int) = some m := by
        intro n hn
        rcases Nat.lt_succ_iff_lt_or_eq.mp hn with hn | rfl
        · exact hfull n hn
        · exact ⟨last, hlast⟩
      have hsub : (List.range (o.table.length + 1)).map (Nat.cast : Nat → Int) ⊆
          o.table.map (·.1) := by
        intro fd hfd
        obtain ⟨n, hn, rfl⟩ := List.mem_map.mp hfd
        obtain ⟨m, hm⟩ := hopen n (List.mem_range.mp hn)
        exact List.mem_map.mpr ⟨_, mem_table_of_number? hm, rfl⟩
      have hnodup : ((List.range (o.table.length + 1)).map (Nat.cast : Nat → Int)).Nodup :=
        List.nodup_range.map fun _ _ h => Int.ofNat_inj.mp h
      have hlength := (hnodup.subperm hsub).length_le
      simp only [List.length_map, List.length_range] at hlength
      omega

theorem number?_firstFree (o : OpenFiles) : o.number? o.firstFree = none := by
  unfold firstFree
  dsimp only
  generalize hfree : (List.range o.table.length).find? (fun n : Nat => (o.number? n).isNone) = found
  cases found with
  | some n => simpa using List.find?_some hfree
  | none =>
      refine number?_length_of_full fun n hn => ?_
      have hopen := List.find?_eq_none.mp hfree n (List.mem_range.mpr hn)
      exact Option.ne_none_iff_exists'.mp (by simpa using hopen)

theorem number?_of_lt_firstFree {o : OpenFiles} {n : Nat} (hn : (n : Int) < o.firstFree) :
    ∃ m, o.number? n = some m := by
  unfold firstFree at hn
  dsimp only at hn
  refine Option.ne_none_iff_exists'.mp fun hclosed => ?_
  generalize hfree : (List.range o.table.length).find? (fun n : Nat => (o.number? n).isNone) = found
    at hn
  cases found with
  | some first =>
      have hbefore := (List.find?_range_eq_some.mp hfree).2.2 n (by simpa using hn)
      simp [hclosed] at hbefore
  | none =>
      have hopen := List.find?_eq_none.mp hfree n (List.mem_range.mpr (by simpa using hn))
      simp [hclosed] at hopen

theorem exists_firstFree (o : OpenFiles) : ∃ n : Nat, o.firstFree = n := by
  unfold firstFree
  dsimp only
  cases (List.range o.table.length).find? fun n : Nat => (o.number? n).isNone with
  | none => exact ⟨_, rfl⟩
  | some n => exact ⟨n, rfl⟩

theorem firstFree_congr {o o' : OpenFiles}
    (h : ∀ fd, o.number? fd = none ↔ o'.number? fd = none) : o.firstFree = o'.firstFree := by
  obtain ⟨n, hn⟩ := o.exists_firstFree
  obtain ⟨n', hn'⟩ := o'.exists_firstFree
  have hclosed := o.number?_firstFree
  have hclosed' := o'.number?_firstFree
  rcases Int.lt_trichotomy o.firstFree o'.firstFree with hlt | heq | hgt
  · obtain ⟨m, hm⟩ := number?_of_lt_firstFree (hn ▸ hlt)
    rw [← hn, (h _).mp hclosed] at hm
    cases hm
  · exact heq
  · obtain ⟨m, hm⟩ := number?_of_lt_firstFree (hn' ▸ hgt)
    rw [← hn', (h _).mpr hclosed'] at hm
    cases hm

def secondFree (o : OpenFiles) : Descriptor := (o.point o.firstFree 0).firstFree

theorem number?_secondFree (o : OpenFiles) : o.number? o.secondFree = none := by
  have hfree := number?_firstFree (o.point o.firstFree 0)
  rw [number?_point] at hfree
  split at hfree
  · cases hfree
  · exact hfree

theorem ne_firstFree {o : OpenFiles} {fd : Descriptor} {n : Nat} (hfd : o.number? fd = some n) :
    fd ≠ o.firstFree := by
  rintro rfl
  rw [number?_firstFree] at hfd
  cases hfd

theorem number?_add (o : OpenFiles) (d : Description) (fd : Descriptor) :
    (o.add d).number? fd =
      if fd = o.firstFree then some o.descriptions.length else o.number? fd :=
  number?_point _ o.firstFree fd o.descriptions.length

@[simp] theorem descriptions_add (o : OpenFiles) (d : Description) :
    (o.add d).descriptions = o.descriptions ++ [d] := rfl

theorem firstFree_add (o : OpenFiles) (d : Description) : (o.add d).firstFree = o.secondFree := by
  refine firstFree_congr fun fd => ?_
  rw [number?_add, number?_point]
  split <;> simp

theorem secondFree_congr {o o' : OpenFiles} (h : ∀ fd, o.number? fd = o'.number? fd) :
    o.secondFree = o'.secondFree := by
  have hfirst : o.firstFree = o'.firstFree := firstFree_congr fun fd => by rw [h]
  refine firstFree_congr fun fd => ?_
  rw [number?_point, number?_point, hfirst, h]

theorem getElem?_add_of_lt (o : OpenFiles) (d : Description) {n : Nat}
    (hn : n < o.descriptions.length) : (o.add d).descriptions[n]? = o.descriptions[n]? :=
  List.getElem?_append_left hn

theorem getElem?_add_length (o : OpenFiles) (d : Description) :
    (o.add d).descriptions[o.descriptions.length]? = some d :=
  List.getElem?_concat_length ..

theorem getElem?_add {o : OpenFiles} {added d : Description} {n : Nat}
    (hd : (o.add added).descriptions[n]? = some d) : o.descriptions[n]? = some d ∨ d = added := by
  by_cases hlength : n < o.descriptions.length
  · left
    rwa [getElem?_add_of_lt o added hlength] at hd
  · right
    change (o.descriptions ++ [added])[n]? = some d at hd
    rw [List.getElem?_append_right (by omega)] at hd
    exact List.mem_singleton.mp (List.mem_of_getElem? hd)

@[simp] theorem descriptions_assign (o : OpenFiles) (fd source : Descriptor) :
    (o.assign fd source).descriptions = o.descriptions := by
  unfold assign
  split <;> rfl

@[simp] theorem descriptions_close (o : OpenFiles) (fd : Descriptor) :
    (o.close fd).descriptions = o.descriptions := rfl

theorem number?_assign {o : OpenFiles} {source : Descriptor} {number : Nat}
    (hsource : o.number? source = some number) (fd other : Descriptor) :
    (o.assign fd source).number? other = if other = fd then some number else o.number? other := by
  unfold assign
  rw [hsource]
  exact number?_point o fd other number

/-! ## Sinks -/

def sink? (o : OpenFiles) (fd : Descriptor) : Option Sink := (o.description? fd).map (·.sink)

theorem sink?_eq (o : OpenFiles) (fd : Descriptor) :
    o.sink? fd = (o.number? fd).bind fun number => (o.descriptions.map (·.sink))[number]? := by
  unfold sink? description?
  cases o.number? fd with
  | none => rfl
  | some number => simp

theorem sink?_eq_some {o : OpenFiles} {fd : Descriptor} {sink : Sink}
    (h : o.sink? fd = some sink) :
    ∃ number d, o.number? fd = some number ∧ o.descriptions[number]? = some d ∧ d.sink = sink := by
  obtain ⟨d, hd, hsink⟩ := Option.map_eq_some_iff.mp h
  obtain ⟨number, hnumber, hd⟩ := Option.bind_eq_some_iff.mp hd
  exact ⟨number, d, hnumber, hd, hsink⟩

theorem sink?_of_number? {o : OpenFiles} {fd : Descriptor} {number : Nat} {d : Description}
    (hnumber : o.number? fd = some number) (hd : o.descriptions[number]? = some d) :
    o.sink? fd = some d.sink := by
  simp [sink?, description?, hnumber, hd]

theorem sink?_eq_none {o : OpenFiles} {fd : Descriptor} (h : o.number? fd = none) :
    o.sink? fd = none := by
  rw [sink?_eq, h, Option.bind_none]

theorem ne_firstFree_of_sink? {o : OpenFiles} {fd : Descriptor} {sink : Sink}
    (h : o.sink? fd = some sink) : fd ≠ o.firstFree := by
  obtain ⟨number, -, hnumber, -⟩ := sink?_eq_some h
  exact ne_firstFree hnumber

theorem sink?_congr {o o' : OpenFiles} {fd fd' : Descriptor}
    (hdescriptions : o'.descriptions.map (·.sink) = o.descriptions.map (·.sink))
    (hnumber : o'.number? fd' = o.number? fd) : o'.sink? fd' = o.sink? fd := by
  rw [sink?_eq, sink?_eq, hnumber, hdescriptions]

theorem sink?_close (o : OpenFiles) (fd other : Descriptor) :
    (o.close fd).sink? other = if other = fd then none else o.sink? other := by
  have hnumber := number?_close o fd other
  split
  · next h =>
      rw [if_pos h] at hnumber
      exact sink?_eq_none hnumber
  · next h =>
      rw [if_neg h] at hnumber
      exact sink?_congr rfl hnumber

theorem isWriting_iff {o : OpenFiles} {p : Place} :
    o.isWriting p = true ↔ ∃ fd, o.sink? fd = some (.file p) := by
  unfold isWriting sink?
  rw [List.any_eq_true]
  constructor
  · rintro ⟨⟨fd, number⟩, -, hfd⟩
    obtain ⟨d, hd, hsink⟩ := (Option.any_eq_true _ _).mp hfd
    exact ⟨fd, by rw [hd, Option.map_some, beq_iff_eq.mp hsink]⟩
  · rintro ⟨fd, hfd⟩
    obtain ⟨number, d, hnumber, hd, hsink⟩ := sink?_eq_some hfd
    refine ⟨(fd, number), mem_table_of_number? hnumber, ?_⟩
    simp [description?, hnumber, hd, hsink]

/-! ## Changes that touch no descriptor -/

structure Stays (o o' : OpenFiles) : Prop where
  table : o'.table = o.table
  kinds : o'.kinds = o.kinds

namespace Stays

variable {o o' o'' : OpenFiles}

theorem refl (o : OpenFiles) : Stays o o := ⟨rfl, rfl⟩

theorem trans (h : Stays o o') (h' : Stays o' o'') : Stays o o'' :=
  ⟨h'.table.trans h.table, h'.kinds.trans h.kinds⟩

theorem moveTo (o : OpenFiles) (number offset : Nat) : Stays o (o.moveTo number offset) :=
  ⟨rfl, kinds_moveTo o number offset⟩

theorem sinks (h : Stays o o') :
    o'.descriptions.map (·.sink) = o.descriptions.map (·.sink) := by
  rw [sinks_of_kinds, sinks_of_kinds, h.kinds]

theorem number (h : Stays o o') (fd : Descriptor) : o'.number? fd = o.number? fd := by
  unfold number?
  rw [h.table]

theorem firstFree (h : Stays o o') : o'.firstFree = o.firstFree := by
  unfold OpenFiles.firstFree number?
  rw [h.table]

theorem length (h : Stays o o') : o'.descriptions.length = o.descriptions.length := by
  rw [← length_kinds, ← length_kinds, h.kinds]

theorem sink? (h : Stays o o') (fd : Descriptor) : o'.sink? fd = o.sink? fd := by
  rw [sink?_eq, sink?_eq, h.number, h.sinks]

theorem isWriting (h : Stays o o') (p : Place) : o'.isWriting p = o.isWriting p := by
  rw [Bool.eq_iff_iff, isWriting_iff, isWriting_iff]
  simp only [h.sink?]

theorem close (h : Stays o o') (fd : Descriptor) : Stays (o.close fd) (o'.close fd) :=
  ⟨by simp only [OpenFiles.close, h.table], h.kinds⟩

end Stays

/-! ## Changes that open files -/

/-- More sinks have been opened.  Every descriptor stands for what it stood for, but for those that
may have been opened: they were closed and stand for one of the new sinks. -/
structure Extends (opened : Descriptor → Prop) (o : OpenFiles) (more : List Sink)
    (o' : OpenFiles) : Prop where
  number : ∀ fd, o'.number? fd = o.number? fd ∨ opened fd ∧ o.number? fd = none ∧
    ∃ n, o.descriptions.length ≤ n ∧ o'.number? fd = some n
  sinks : o'.descriptions.map (·.sink) = o.descriptions.map (·.sink) ++ more

namespace Extends

variable {opened : Descriptor → Prop} {o o' o'' : OpenFiles} {more later : List Sink}

theorem of_stays (h : Stays o o') : Extends opened o [] o' :=
  ⟨fun fd => .inl (h.number fd), by rw [h.sinks, List.append_nil]⟩

theorem length_le (h : Extends opened o more o') :
    o.descriptions.length ≤ o'.descriptions.length := by
  have hlength := congrArg List.length h.sinks
  simp only [List.length_map, List.length_append] at hlength
  omega

theorem trans (h : Extends opened o more o') (h' : Extends opened o' later o'') :
    Extends opened o (more ++ later) o'' := by
  refine ⟨fun fd => ?_, by rw [h'.sinks, h.sinks, List.append_assoc]⟩
  rcases h.number fd with hsame | ⟨hfd, hclosed, n, hn, hnew⟩ <;>
    rcases h'.number fd with hsame' | ⟨hfd', hclosed', n', hn', hnew'⟩
  · exact .inl (hsame'.trans hsame)
  · exact .inr ⟨hfd', hsame ▸ hclosed', n', Nat.le_trans h.length_le hn', hnew'⟩
  · exact .inr ⟨hfd, hclosed, n, hn, hsame'.trans hnew⟩
  · rw [hnew] at hclosed'
    cases hclosed'

theorem stays (h : Extends opened o more o') (h' : Stays o' o'') : Extends opened o more o'' := by
  simpa using h.trans (.of_stays h')

theorem add (o : OpenFiles) (d : Description) :
    Extends (· = o.firstFree) o [d.sink] (o.add d) := by
  refine ⟨fun fd => ?_, by simp⟩
  rw [number?_add]
  split
  · next hfd => exact .inr ⟨hfd, hfd ▸ number?_firstFree o, _, Nat.le_refl _, rfl⟩
  · exact .inl rfl

theorem closed {file : Descriptor} (h : Extends (· = file) o more o')
    (hfree : o.number? file = none) : Extends opened o more (o'.close file) := by
  refine ⟨fun fd => ?_, h.sinks⟩
  left
  rw [number?_close]
  split
  · next hfd => rw [hfd, hfree]
  · next hfd =>
      rcases h.number fd with hsame | ⟨hopened, -⟩
      · exact hsame
      · exact absurd hopened hfd

theorem number_of_some (h : Extends opened o more o') {fd : Descriptor} {n : Nat}
    (hfd : o.number? fd = some n) : o'.number? fd = some n := by
  rcases h.number fd with hsame | ⟨-, hclosed, -⟩
  · exact hsame.trans hfd
  · rw [hfd] at hclosed
    cases hclosed

theorem sink?_of_some (h : Extends opened o more o') {fd : Descriptor} {sink : Sink}
    (hsink : o.sink? fd = some sink) : o'.sink? fd = some sink := by
  rw [sink?_eq] at hsink ⊢
  obtain ⟨number, hnumber, hget⟩ := Option.bind_eq_some_iff.mp hsink
  refine Option.bind_eq_some_iff.mpr ⟨number, h.number_of_some hnumber, ?_⟩
  rw [h.sinks, List.getElem?_append_left (List.getElem?_eq_some_iff.mp hget).1]
  exact hget

theorem sink?_cases (h : Extends opened o more o') {fd : Descriptor} {sink : Sink}
    (hsink : o'.sink? fd = some sink) : o.sink? fd = some sink ∨ sink ∈ more := by
  rw [sink?_eq, h.sinks] at hsink
  obtain ⟨number, hnumber, hget⟩ := Option.bind_eq_some_iff.mp hsink
  by_cases hlength : number < (o.descriptions.map (·.sink)).length
  · rw [List.getElem?_append_left hlength] at hget
    left
    rw [sink?_eq]
    refine Option.bind_eq_some_iff.mpr ⟨number, ?_, hget⟩
    rcases h.number fd with hsame | ⟨-, -, n, hn, hnew⟩
    · exact hsame ▸ hnumber
    · rw [hnew, Option.some.injEq] at hnumber
      rw [List.length_map] at hlength
      omega
  · rw [List.getElem?_append_right (by omega)] at hget
    right
    exact List.mem_of_getElem? hget

end Extends

/-! ## Guards -/

def guarded (o : OpenFiles) (fd file : Descriptor) : OpenFiles :=
  (o.assign o.firstFree fd).assign fd file

section Guard

variable {o : OpenFiles} {fd file : Descriptor} {saved number : Nat}

theorem number?_guarded (hfd : o.number? fd = some saved) (hfile : o.number? file = some number)
    (other : Descriptor) :
    (o.guarded fd file).number? other =
      if other = fd then some number
      else if other = o.firstFree then some saved else o.number? other := by
  have hstill : (o.assign o.firstFree fd).number? file = some number := by
    rw [number?_assign hfd, if_neg (ne_firstFree hfile), hfile]
  rw [guarded, number?_assign hstill, number?_assign hfd]

theorem descriptions_guarded (o : OpenFiles) (fd file : Descriptor) :
    (o.guarded fd file).descriptions = o.descriptions := by
  simp [guarded]

theorem number?_released {g : Guard} (hsaved : o.number? g.saved = some saved)
    (other : Descriptor) :
    ((o.assign g.descriptor g.saved).close g.saved).number? other =
      if other = g.saved then none
      else if other = g.descriptor then some saved else o.number? other := by
  rw [number?_close, number?_assign hsaved]

/-- Behind a guard whose file was closed, all descriptors but its two stand for what they stood for
before the file was opened. -/
theorem Extends.number?_guarded_close {first : OpenFiles} {more : List Sink}
    (hfirst : Extends (· = file) first more o) (hfree : first.number? file = none)
    (hfd : o.number? fd = some saved) (hfile : o.number? file = some number) {other : Descriptor}
    (hother : other ≠ fd) (hsaved : other ≠ o.firstFree) :
    ((o.guarded fd file).close file).number? other = first.number? other := by
  rw [number?_close, number?_guarded hfd hfile, if_neg hother, if_neg hsaved]
  split
  · next heq => rw [heq, hfree]
  · next hne =>
      rcases hfirst.number other with hsame | ⟨heq, -⟩
      · exact hsame
      · exact absurd heq hne

/-- When a guard is released whose file was closed, what was open before the file was opened stands
for what it stood for. -/
theorem Extends.released {opened : Descriptor → Prop} {first after : OpenFiles}
    {more later : List Sink} (hfirst : Extends (· = file) first more o)
    (hfree : first.number? file = none) (hfd : o.number? fd = some saved)
    (hfile : o.number? file = some number) (hopened : opened fd)
    (hafter : Extends opened ((o.guarded fd file).close file) later after) :
    Extends opened first (more ++ later)
      ((after.assign fd o.firstFree).close o.firstFree) := by
  have hfree' := number?_firstFree o
  have hkept : after.number? o.firstFree = some saved := by
    refine hafter.number_of_some ?_
    rw [number?_close, if_neg (ne_firstFree hfile).symm, number?_guarded hfd hfile,
      if_neg (ne_firstFree hfd).symm, if_pos rfl]
  have hreleased := number?_released (g := ⟨fd, o.firstFree⟩) hkept
  refine ⟨fun other => ?_, ?_⟩
  · rw [hreleased]
    split
    · -- the guard's own descriptor was free and is free again
      next hother =>
        left
        rcases hfirst.number other with hsame | ⟨-, hclosed, -⟩
        · rw [← hsame, hother, hfree']
        · rw [hclosed]
    · next hsaved =>
        split
        · next hother =>
            rw [hother, ← hfd]
            rcases hfirst.number fd with hsame | ⟨-, hclosed, n, hn, hnew⟩
            · exact .inl hsame
            · exact .inr ⟨hopened, hclosed, n, hn, hnew⟩
        · next hother =>
            have hbefore := hfirst.number?_guarded_close hfree hfd hfile hother hsaved
            rcases hafter.number other with hsame | ⟨hstream, hclosed, n, hn, hnew⟩
            · exact .inl (hsame.trans hbefore)
            · have hlater : first.descriptions.length ≤ n :=
                Nat.le_trans hfirst.length_le (by simpa [descriptions_guarded] using hn)
              exact .inr ⟨hstream, hbefore ▸ hclosed, n, hlater, hnew⟩
  · have hsinks := hafter.sinks
    simp only [descriptions_close, descriptions_guarded] at hsinks
    rw [descriptions_close, descriptions_assign, hsinks, hfirst.sinks, List.append_assoc]

end Guard

end LineShell.OpenFiles
