import LineShell.Command
import LineShell.Host.FileTree

/-!
# Open files

A descriptor stands for a description: what is written to, the offset of the next write, and
whether every write goes to the end.  Each opening makes a description of its own, for which the
lowest descriptor stands that is free; others may be made to stand for it too.  A file that is no
longer in the tree can still be written to, and nobody sees it.
-/

namespace LineShell

inductive Sink where
  | file (place : Place)
  | unlinked
  | device (device : Device)
  | terminal (stream : Stream)
  deriving DecidableEq, Repr

structure Description where
  sink : Sink
  offset : Nat
  append : Bool
  deriving DecidableEq, Repr

abbrev Descriptor := Int

def inputDescriptor : Descriptor := 0

def Stream.descriptor : Stream → Descriptor
  | .stdout => 1
  | .stderr => 2

/-- The descriptions made so far, and the number of the one that each open descriptor stands for. -/
structure OpenFiles where
  table : List (Descriptor × Nat)
  descriptions : List Description
  deriving DecidableEq, Repr

namespace OpenFiles

/-- The streams of a terminal: its input and its output are one description. -/
def standard : OpenFiles :=
  ⟨[(inputDescriptor, 0), (Stream.stdout.descriptor, 0), (Stream.stderr.descriptor, 1)],
    [⟨.terminal .stdout, 0, false⟩, ⟨.terminal .stderr, 0, false⟩]⟩

def number? (o : OpenFiles) (fd : Descriptor) : Option Nat := o.table.lookup fd

def description? (o : OpenFiles) (fd : Descriptor) : Option Description :=
  (o.number? fd).bind (o.descriptions[·]?)

/-- The lowest descriptor that stands for nothing; no more can be taken than the table has rows. -/
def firstFree (o : OpenFiles) : Descriptor :=
  let rows := o.table.length
  ((List.range rows).find? fun n : Nat => (o.number? n).isNone).getD rows

def assignEntry (fd : Descriptor) (number : Nat) :
    List (Descriptor × Nat) → List (Descriptor × Nat)
  | [] => [(fd, number)]
  | (other, old) :: rest =>
      if fd = other then (fd, number) :: rest else (other, old) :: assignEntry fd number rest

def point (o : OpenFiles) (fd : Descriptor) (number : Nat) : OpenFiles :=
  { o with table := assignEntry fd number o.table }

def assign (o : OpenFiles) (fd source : Descriptor) : OpenFiles :=
  match o.number? source with
  | none => o
  | some number => o.point fd number

def close (o : OpenFiles) (fd : Descriptor) : OpenFiles :=
  { o with table := o.table.filter (·.1 != fd) }

def add (o : OpenFiles) (d : Description) : OpenFiles :=
  { o with descriptions := o.descriptions ++ [d] }.point o.firstFree o.descriptions.length

def moveTo (o : OpenFiles) (number offset : Nat) : OpenFiles :=
  { o with descriptions := o.descriptions.modify number fun d => { d with offset := offset } }

def unlink (o : OpenFiles) (p : Place) : OpenFiles :=
  { o with
    descriptions := o.descriptions.map fun d =>
      match d.sink with
      | .file q => if q.isWithin p then { d with sink := .unlinked } else d
      | _ => d }

def isWriting (o : OpenFiles) (p : Place) : Bool :=
  o.table.any fun (fd, _) => (o.description? fd).any (·.sink == .file p)

theorem lookup_assignEntry (fd other : Descriptor) (number : Nat)
    (table : List (Descriptor × Nat)) :
    (assignEntry fd number table).lookup other =
      if other = fd then some number else table.lookup other := by
  induction table with
  | nil =>
      by_cases h : other = fd
      · simp [assignEntry, h]
      · simp [assignEntry, List.lookup_cons, h, beq_false_of_ne h]
  | cons first rest ih =>
      obtain ⟨r, old⟩ := first
      by_cases hr : fd = r
      · subst hr
        by_cases h : other = fd
        · simp [assignEntry, h]
        · simp [assignEntry, List.lookup_cons, h, beq_false_of_ne h]
      · simp only [assignEntry, hr, if_false, List.lookup_cons]
        by_cases hor : other = r
        · have hne : other ≠ fd := fun e => hr (e ▸ hor)
          subst hor
          simp [hne]
        · simp [beq_false_of_ne hor, ih]

theorem number?_point (o : OpenFiles) (fd other : Descriptor) (number : Nat) :
    (o.point fd number).number? other = if other = fd then some number else o.number? other :=
  lookup_assignEntry fd other number o.table

theorem number?_close (o : OpenFiles) (fd other : Descriptor) :
    (o.close fd).number? other = if other = fd then none else o.number? other := by
  unfold close number?
  induction o.table with
  | nil => simp
  | cons first rest ih =>
      obtain ⟨r, number⟩ := first
      by_cases hr : r = fd
      · subst hr
        by_cases h : other = r
        · simpa [h] using ih
        · simpa [List.lookup_cons, h, beq_false_of_ne h] using ih
      · rw [List.filter_cons_of_pos (by simpa using hr), List.lookup_cons, List.lookup_cons, ih]
        by_cases hor : other = r
        · subst hor
          simp [hr]
        · simp [beq_false_of_ne hor]

end OpenFiles

end LineShell
