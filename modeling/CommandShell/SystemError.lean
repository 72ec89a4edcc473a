import CommandShell.Text

/-!
# System errors

The causes for which opening, reading, writing or making a file fails, and the text with
which each is reported.
-/

namespace CommandShell

/-- A cause of failure. -/
inductive SystemError where
  /-- A file or a directory on the way to it does not exist. -/
  | notFound
  /-- A file that is no directory has a name looked up in it. -/
  | notDirectory
  /-- A directory is read or written as a file. -/
  | isDirectory
  /-- A directory is made where there is something. -/
  | alreadyExists
  /-- A name or a path has too many bytes. -/
  | nameTooLong
  /-- The mode of a file forbids it. -/
  | permissionDenied
  /-- A path has a character that no name can have. -/
  | nulInPath
  /-- The bytes of a file encode no text. -/
  | notText
  /-- A file opened for reading is written. -/
  | notOpenForWriting
  /-- The reading end of a pipe is closed. -/
  | brokenPipe
  /-- A stream of this name cannot be written. -/
  | notWritable (stream : Text)
  deriving DecidableEq, Repr

/-- The report of an error. -/
def SystemError.message : SystemError → Text
  | .notFound => "No such file or directory (os error 2)".toList
  | .notDirectory => "Not a directory (os error 20)".toList
  | .isDirectory => "Is a directory (os error 21)".toList
  | .alreadyExists => "File exists (os error 17)".toList
  | .nameTooLong => "File name too long (os error 36)".toList
  | .permissionDenied => "Permission denied (os error 13)".toList
  | .nulInPath => "file name contained an unexpected NUL byte".toList
  | .notText => "stream did not contain valid UTF-8".toList
  | .notOpenForWriting => "Bad file descriptor (os error 9)".toList
  | .brokenPipe => "Broken pipe (os error 32)".toList
  | .notWritable stream => stream ++ " is not writable".toList

end CommandShell
