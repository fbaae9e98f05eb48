import LineShell.Host.OpenFiles
import LineShell.Host.Walk

/-!
# The host

What a session acts on: the tree of files, the open files, the octets that wait in front of
standard output, what has reached the terminal, and the programs that were launched.  An operation
answers with its result and the host after it, because a failure may come after a change.
-/

namespace LineShell

structure Process where
  image : Place
  argv : List Text
  environ : List Text
  workDir : Place
  deriving DecidableEq, Repr

structure Launch where
  program : Text
  argv : List Text
  environ : List Text
  workDir : Text
  started : Except IOError Process

structure Host where
  tree : FileTree
  workDir : Place
  files : OpenFiles
  pending : Bytes
  out : Bytes
  err : Bytes
  launches : List Launch

namespace Host

def start (tree : FileTree) (workDir : Place) : Host :=
  ⟨tree, workDir, .standard, [], [], [], []⟩

def find (h : Host) (path : Text) : Except IOError (Place × Entry) := h.tree.find h.workDir path

def mayPass (h : Host) (path : Text) : Except IOError Unit :=
  match h.find path with
  | .error e => .error e
  | .ok (_, entry) => if entry.isPassable then .ok () else .error (.os .accessDenied)

/-- The path of where a path leads; it has to be found, and its spelling must not become too long on
the way. -/
def canonicalize (h : Host) (path : Text) : Except IOError Text :=
  match h.find path with
  | .error e => .error e
  | .ok (p, _) =>
      if h.tree.isSpellable h.workDir path then .ok p.path else .error (.os .nameTooLong)

def readText (h : Host) (path : Text) : Except IOError Text :=
  match h.find path with
  | .error e => .error e
  | .ok (_, .directory mode) =>
      if mode.readable then .error (.os .isDirectory) else .error (.os .accessDenied)
  | .ok (_, .file mode content) =>
      if mode.readable then
        match Utf8.decode? content with
        | some t => .ok t
        | none => .error .invalidUtf8
      else .error (.os .accessDenied)
  | .ok (_, _) => .ok []

/-- The content with data written over it from an offset on; a gap is filled with zeros. -/
def overwrite (content : Bytes) (offset : Nat) (data : Bytes) : Bytes :=
  content.take offset ++ List.replicate (offset - content.length) 0 ++ data ++
    content.drop (offset + data.length)

def addDescription (h : Host) (sink : Sink) (mode : WriteMode) : Except IOError Descriptor × Host :=
  (.ok h.files.firstFree, { h with files := h.files.add ⟨sink, 0, decide (mode = .append)⟩ })

def openToWrite (h : Host) (mode : WriteMode) (path : Text) : Except IOError Descriptor × Host :=
  match h.tree.locate h.workDir .create path with
  | .error e => (.error e, h)
  | .ok (.vacant p) =>
      if h.tree.isWritable p.parent then
        addDescription { h with tree := h.tree.put p (.file 0o644 []) } (.file p) mode
      else (.error (.os .accessDenied), h)
  | .ok (.found p) =>
      match h.tree.get? p with
      | some (.directory _) => (.error (.os .isDirectory), h)
      | some (.file perms _) =>
          if !perms.writable then (.error (.os .accessDenied), h)
          else
            match mode with
            | .append => addDescription h (.file p) mode
            | .truncate =>
                let emptied := h.tree.put p (.file perms.afterWrite [])
                addDescription { h with tree := emptied } (.file p) mode
      | some (.device device) => addDescription h (.device device) mode
      | some (.link _) | none => (.error (.os .noEntry), h)

def close (h : Host) (fd : Descriptor) : Host := { h with files := h.files.close fd }

def writeTo (h : Host) (number : Nat) (data : Bytes) : Except Errno Unit × Host :=
  match h.files.descriptions[number]? with
  | none => (.error .badDescriptor, h)
  | some d =>
      match d.sink with
      | .device .full => (.error .noSpace, h)
      | .device .null | .unlinked => (.ok (), h)
      | .terminal .stdout => (.ok (), { h with out := h.out ++ data })
      | .terminal .stderr => (.ok (), { h with err := h.err ++ data })
      | .file p =>
          match h.tree.get? p with
          | some (.file perms content) =>
              let offset := if d.append then content.length else d.offset
              (.ok (),
                { h with
                  tree := h.tree.put p (.file perms.afterWrite (overwrite content offset data))
                  files := h.files.moveTo number (offset + data.length) })
          | _ => (.ok (), h)

/-- Writes to a descriptor; to write nothing always succeeds and does nothing. -/
def write (h : Host) (fd : Descriptor) (data : Bytes) : Except Errno Unit × Host :=
  if data = [] then (.ok (), h)
  else
    match h.files.number? fd with
    | none => (.error .badDescriptor, h)
    | some number => h.writeTo number data

/-- Writes to a standard stream; one that is closed swallows everything. -/
def writeStream (h : Host) (stream : Stream) (data : Bytes) : Except IOError Unit × Host :=
  match h.write stream.descriptor data with
  | (.error .badDescriptor, h) => (.ok (), h)
  | (.error e, h) => (.error (.os e), h)
  | (.ok (), h) => (.ok (), h)

def remove (h : Host) (p : Place) : Host :=
  { h with tree := h.tree.remove p, files := h.files.unlink p }

def changeMode (h : Host) (path : Text) (mode : Mode) : Except IOError Unit × Host :=
  match h.find path with
  | .error e => (.error e, h)
  | .ok (p, entry) => (.ok (), { h with tree := h.tree.put p (entry.withMode mode) })

end Host

end LineShell
