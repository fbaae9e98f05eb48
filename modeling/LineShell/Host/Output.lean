import LineShell.Host

/-!
# Buffered standard output

Text for standard output waits in a buffer until a line is complete.  The buffer keeps what could
not be written, so a failed line comes out in front of the next text that reaches the stream.
-/

namespace LineShell.Host

def bufferSize : Nat := 1024

/-- Delivers the buffer, which is kept if that fails. -/
def flush (h : Host) : Except IOError Unit × Host :=
  match h.writeStream .stdout h.pending with
  | (.error e, h) => (.error e, h)
  | (.ok (), h) => (.ok (), { h with pending := [] })

/-- Puts data behind the buffer, which is first delivered if it has no room for them.  Data that
an empty buffer could not hold are written past it. -/
def buffer (h : Host) (data : Bytes) : Except IOError Unit × Host :=
  let room := bufferSize - h.pending.length
  if data.length < room then (.ok (), { h with pending := h.pending ++ data })
  else
    match if room < data.length then h.flush else (.ok (), h) with
    | (.error e, h) => (.error e, h)
    | (.ok (), h) =>
        if bufferSize ≤ data.length then h.writeStream .stdout data
        else (.ok (), { h with pending := h.pending ++ data })

def splitLastLine (data : Bytes) : Bytes × Bytes :=
  let rest := (data.reverse.takeWhile (· != 0x0A)).reverse
  (data.take (data.length - rest.length), rest)

def print (h : Host) (piece : Text) : Except IOError Unit × Host :=
  match splitLastLine (Utf8.encode piece) with
  | ([], rest) =>
      match if h.pending.getLast? = some 0x0A then h.flush else (.ok (), h) with
      | (.error e, h) => (.error e, h)
      | (.ok (), h) => h.buffer rest
  | (whole, rest) =>
      if h.pending = [] then
        match h.writeStream .stdout whole with
        | (.error e, h) => (.error e, h)
        | (.ok (), h) => h.buffer rest
      else
        match h.buffer whole with
        | (.error e, h) => (.error e, h)
        | (.ok (), h) =>
            match h.flush with
            | (.error e, h) => (.error e, h)
            | (.ok (), h) => h.buffer rest

def printAll (h : Host) : List Text → Except IOError Unit × Host
  | [] => (.ok (), h)
  | piece :: rest =>
      match h.print piece with
      | (.error e, h) => (.error e, h)
      | (.ok (), h) => h.printAll rest

end LineShell.Host
