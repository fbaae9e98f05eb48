import LineShell.Text.Utf8

/-!
# Scripts

A file that begins with `#!` is a script: its first line names the program that runs it, and one
argument for that program.  Only the beginning of the file is looked at, so a line that does not end
there has to end the name at least.
-/

namespace LineShell

structure Script where
  interpreter : Text
  argument : Option Text
  deriving DecidableEq, Repr

namespace Script

def mark : Bytes := Utf8.encode "#!".toList

def newline : UInt8 := 0x0A

def isGap (b : UInt8) : Bool := b == 0x20 || b == 0x09

def endsName (b : UInt8) : Bool := isGap b || b == 0

def trimGaps (bs : Bytes) : Bytes := (bs.reverse.dropWhile isGap).reverse

/-- How many octets behind the mark are looked at; those behind the end of the file are zero. -/
def windowSize : Nat := 254

def window (content : Bytes) : Bytes :=
  (content.drop mark.length ++ List.replicate windowSize 0).take windowSize

/-- The part of the window that names a program.  It goes to the end of the line, or else up to the
last octet of the window if there is an end of the name. -/
def request? (window : Bytes) : Option Bytes :=
  let line := window.takeWhile fun b => b != newline && b != 0
  if window[line.length]? = some newline then some (trimGaps line)
  else if (window.dropWhile isGap).any endsName then some (trimGaps window.dropLast)
  else none

def argument? : Bytes → Option Text
  | [] => none
  | b :: rest =>
      if isGap b then some (Utf8.decodeLossy ((rest.dropWhile isGap).takeWhile (· != 0)))
      else none

def ofContent? (content : Bytes) : Option Script :=
  if !mark.isPrefixOf content then none
  else
    match (request? (window content)).map (·.dropWhile isGap) with
    | none | some [] => none
    | some request =>
        let name := request.takeWhile fun b => !endsName b
        some ⟨Utf8.decodeLossy name, argument? (request.drop name.length)⟩

end Script

end LineShell
