import LineShell.Host
import LineShell.Log.Event

/-!
# The log

A log says which events are noted, and whether in colour.  Notes go to standard error as it is at
that moment.
-/

namespace LineShell

structure Log where
  filter : Log.Filter
  coloured : Bool
  deriving DecidableEq, Repr

namespace Log

def silent : Log := ⟨.silent, false⟩

def enables (log : Log) (e : Event) : Bool := log.filter.enables e.level e.target e.fields

end Log

namespace Host

def note (h : Host) (log : Log) (e : Log.Event) : Except IOError Unit × Host :=
  if log.enables e then h.writeStream .stderr (Utf8.encode (e.line log.coloured)) else (.ok (), h)

@[simp] theorem note_silent (h : Host) (e : Log.Event) : h.note .silent e = (.ok (), h) := rfl

end Host

end LineShell
