import LineShell.Error
import LineShell.Host.Output

/-!
# Redirections

A guard points a descriptor at what a file's descriptor stands for.  The description that it stood
for is kept open under a descriptor of the guard's own, and releasing the guard puts it back.  What
waits for standard output is delivered before each switch.
-/

namespace LineShell

structure Guard where
  descriptor : Descriptor
  saved : Descriptor
  deriving DecidableEq, Repr

namespace Host

def openTarget (h : Host) (mode : WriteMode) (path : Text) : Except ExecError Descriptor × Host :=
  match h.openToWrite mode path with
  | (.error e, h) => (.error (.redirect path e), h)
  | (.ok file, h) => (.ok file, h)

/-- Delivers what waits in front of a descriptor; a failure to do so has no consequence. -/
def settle (h : Host) (fd : Descriptor) : Host :=
  if fd = Stream.stdout.descriptor then h.flush.2 else h

/-- Points a descriptor at what a file's descriptor stands for; either may be closed. -/
def acquire (h : Host) (fd file : Descriptor) : Except ExecError Guard × Host :=
  let h := h.settle fd
  match h.files.number? fd, h.files.number? file with
  | some _, some _ =>
      let saved := h.files.firstFree
      (.ok ⟨fd, saved⟩, { h with files := (h.files.assign saved fd).assign fd file })
  | _, _ => (.error (.io (.os .badDescriptor)), h)

def release (h : Host) (g : Guard) : Host :=
  let h := h.settle g.descriptor
  { h with files := (h.files.assign g.descriptor g.saved).close g.saved }

def releaseAll (h : Host) (guards : List Guard) : Host := guards.foldl release h

end Host

end LineShell
