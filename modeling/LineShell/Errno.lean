import LineShell.Text

/-!
# Error numbers of the operating system
-/

namespace LineShell

inductive Errno where
  | notPermitted
  | noEntry
  | inputOutput
  | argumentsTooLong
  | execFormat
  | badDescriptor
  | outOfMemory
  | accessDenied
  | busy
  | fileExists
  | crossDevice
  | notDirectory
  | isDirectory
  | invalidArgument
  | tooManyOpenFiles
  | textFileBusy
  | fileTooLarge
  | noSpace
  | readOnly
  | brokenPipe
  | nameTooLong
  | notEmpty
  | tooManyLinks
  deriving DecidableEq, Repr

namespace Errno

def all : List Errno :=
  [.notPermitted, .noEntry, .inputOutput, .argumentsTooLong, .execFormat, .badDescriptor,
    .outOfMemory, .accessDenied, .busy, .fileExists, .crossDevice, .notDirectory, .isDirectory,
    .invalidArgument, .tooManyOpenFiles, .textFileBusy, .fileTooLarge, .noSpace, .readOnly,
    .brokenPipe, .nameTooLong, .notEmpty, .tooManyLinks]

def number : Errno → Nat
  | notPermitted => 1
  | noEntry => 2
  | inputOutput => 5
  | argumentsTooLong => 7
  | execFormat => 8
  | badDescriptor => 9
  | outOfMemory => 12
  | accessDenied => 13
  | busy => 16
  | fileExists => 17
  | crossDevice => 18
  | notDirectory => 20
  | isDirectory => 21
  | invalidArgument => 22
  | tooManyOpenFiles => 24
  | textFileBusy => 26
  | fileTooLarge => 27
  | noSpace => 28
  | readOnly => 30
  | brokenPipe => 32
  | nameTooLong => 36
  | notEmpty => 39
  | tooManyLinks => 40

def text : Errno → Text
  | notPermitted => "Operation not permitted".toList
  | noEntry => "No such file or directory".toList
  | inputOutput => "Input/output error".toList
  | argumentsTooLong => "Argument list too long".toList
  | execFormat => "Exec format error".toList
  | badDescriptor => "Bad file descriptor".toList
  | outOfMemory => "Cannot allocate memory".toList
  | accessDenied => "Permission denied".toList
  | busy => "Device or resource busy".toList
  | fileExists => "File exists".toList
  | crossDevice => "Invalid cross-device link".toList
  | notDirectory => "Not a directory".toList
  | isDirectory => "Is a directory".toList
  | invalidArgument => "Invalid argument".toList
  | tooManyOpenFiles => "Too many open files".toList
  | textFileBusy => "Text file busy".toList
  | fileTooLarge => "File too large".toList
  | noSpace => "No space left on device".toList
  | readOnly => "Read-only file system".toList
  | brokenPipe => "Broken pipe".toList
  | nameTooLong => "File name too long".toList
  | notEmpty => "Directory not empty".toList
  | tooManyLinks => "Too many levels of symbolic links".toList

def ofNumber? (n : Nat) : Option Errno := all.find? (·.number == n)

theorem ofNumber?_number (e : Errno) : ofNumber? e.number = some e := by
  cases e <;> decide

end Errno

end LineShell
