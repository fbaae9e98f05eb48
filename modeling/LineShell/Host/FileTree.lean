import LineShell.Path

/-!
# Trees of files

A tree names its directories, files, links and devices by their places.  Every entry belongs to
the user that runs the session or is as open to them as its owner bits say, so those bits alone
decide what the user may do.
-/

namespace LineShell

abbrev Mode := Nat

namespace Mode

def readable (m : Mode) : Bool := m.testBit 8

def writable (m : Mode) : Bool := m.testBit 7

def executable (m : Mode) : Bool := m.testBit 6

/-- A write by a user takes away the bits that lend the owner's or the group's identity. -/
def afterWrite (m : Mode) : Mode :=
  let m := if m.testBit 11 then m - 0o4000 else m
  if m.testBit 10 && m.testBit 3 then m - 0o2000 else m

end Mode

inductive Device where
  | null
  | full
  deriving DecidableEq, Repr

inductive Entry where
  | directory (mode : Mode)
  | file (mode : Mode) (content : Bytes)
  | link (target : Text)
  | device (device : Device)
  deriving DecidableEq, Repr

namespace Entry

def isDirectory : Entry → Bool
  | directory _ => true
  | _ => false

/-- Whether the user may search a directory or execute a file; no other entry can be. -/
def isPassable : Entry → Bool
  | directory mode => mode.executable
  | file mode _ => mode.executable
  | _ => false

def withMode (mode : Mode) : Entry → Entry
  | directory _ => directory mode
  | file _ content => file mode content
  | e => e

end Entry

structure FileTree where
  entries : List (Place × Entry)
  deriving DecidableEq, Repr

namespace FileTree

def get? (t : FileTree) (p : Place) : Option Entry := t.entries.lookup p

def putEntry (p : Place) (e : Entry) : List (Place × Entry) → List (Place × Entry)
  | [] => [(p, e)]
  | (q, f) :: rest => if p = q then (p, e) :: rest else (q, f) :: putEntry p e rest

def put (t : FileTree) (p : Place) (e : Entry) : FileTree := ⟨putEntry p e t.entries⟩

def remove (t : FileTree) (p : Place) : FileTree :=
  ⟨t.entries.filter fun (q, _) => !q.isWithin p⟩

def isSearchable (t : FileTree) (p : Place) : Bool :=
  match t.get? p with
  | some (.directory mode) => mode.executable
  | _ => false

def isWritable (t : FileTree) (p : Place) : Bool :=
  match t.get? p with
  | some (.directory mode) => mode.writable && mode.executable
  | _ => false

def relativePath (base p : Place) : Text :=
  ['/'].intercalate (p.take (p.length - base.length)).reverse

def listing (t : FileTree) (base : Place) : List (Text × Entry) :=
  let below := t.entries.filter fun (p, _) => p.isWithin base && p != base
  Text.sortBy (·.1) (below.map fun (p, e) => (relativePath base p, e))

def bare : FileTree :=
  let dev : Place := ["dev".toList]
  ⟨[(Place.root, .directory 0o555), (dev, .directory 0o555),
    ("null".toList :: dev, .device .null), ("full".toList :: dev, .device .full)]⟩

theorem lookup_putEntry (p q : Place) (e : Entry) (entries : List (Place × Entry)) :
    (putEntry p e entries).lookup q = if q = p then some e else entries.lookup q := by
  induction entries with
  | nil =>
      by_cases h : q = p
      · simp [putEntry, h]
      · simp [putEntry, List.lookup_cons, h, beq_false_of_ne h]
  | cons first rest ih =>
      obtain ⟨r, f⟩ := first
      by_cases hpr : p = r
      · subst hpr
        by_cases h : q = p
        · simp [putEntry, h]
        · simp [putEntry, List.lookup_cons, h, beq_false_of_ne h]
      · simp only [putEntry, hpr, if_false, List.lookup_cons]
        by_cases hqr : q = r
        · have hqp : q ≠ p := fun e => hpr (e ▸ hqr)
          subst hqr
          simp [hqp]
        · simp [beq_false_of_ne hqr, ih]

theorem get?_put (t : FileTree) (p q : Place) (e : Entry) :
    (t.put p e).get? q = if q = p then some e else t.get? q :=
  lookup_putEntry p q e t.entries

end FileTree

end LineShell
