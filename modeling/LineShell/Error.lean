import LineShell.Errno
import LineShell.Command

/-!
# Errors

What can go wrong with a system call, a command, a line or a configuration, and the messages for
it.  The chain of an error lists its message, then that of its cause, and so on.
-/

namespace LineShell

inductive IOError where
  | os (errno : Errno)
  | nulInPath
  | nulInData
  | invalidUtf8
  deriving DecidableEq, Repr

namespace IOError

def message : IOError → Text
  | .os errno => errno.text ++ " (os error ".toList ++ Text.decimal errno.number ++ ")".toList
  | .nulInPath => "file name contained an unexpected NUL byte".toList
  | .nulInData => "nul byte found in provided data".toList
  | .invalidUtf8 => "stream did not contain valid UTF-8".toList

/-- The short wording of the errors that a user meets with paths, the message of all others. -/
def describe : IOError → Text
  | .os .noEntry => Errno.noEntry.text
  | .os .notDirectory => Errno.notDirectory.text
  | .os .isDirectory => Errno.isDirectory.text
  | .os .accessDenied => Errno.accessDenied.text
  | .os .notPermitted => Errno.accessDenied.text
  | e => e.message

def chain (e : IOError) : List Text := [e.message]

end IOError

inductive ExecError where
  | io (cause : IOError)
  | redirect (path : Text) (cause : IOError)
  deriving DecidableEq, Repr

namespace ExecError

def message : ExecError → Text
  | .io cause => "IO error: ".toList ++ cause.message
  | .redirect path cause => path ++ ": ".toList ++ cause.describe

def chain : ExecError → List Text
  | .io cause => (ExecError.io cause).message :: cause.chain
  | .redirect path cause => (ExecError.redirect path cause).message :: cause.chain

end ExecError

inductive ShellError where
  | io (cause : IOError)
  | parse (cause : SyntaxError)
  | exec (cause : ExecError)
  deriving DecidableEq, Repr

namespace ShellError

def message : ShellError → Text
  | .io cause => "IO error: ".toList ++ cause.message
  | .parse cause => cause.message
  | .exec cause => cause.message

def chain : ShellError → List Text
  | .io cause => (ShellError.io cause).message :: cause.chain
  | .parse cause => [cause.message, cause.message]
  | .exec cause => cause.message :: cause.chain

end ShellError

inductive ConfigError where
  | io (cause : IOError)
  | malformed (detail : Text)
  deriving DecidableEq, Repr

namespace ConfigError

def message : ConfigError → Text
  | .io cause => "IO error: ".toList ++ cause.message
  | .malformed detail => "Parse error: ".toList ++ detail

def chain : ConfigError → List Text
  | .io cause => (ConfigError.io cause).message :: cause.chain
  | .malformed detail => [(ConfigError.malformed detail).message]

end ConfigError

end LineShell
