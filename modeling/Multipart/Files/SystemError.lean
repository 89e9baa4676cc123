/-! # What a system call fails with -/

namespace Multipart

inductive SystemError
  | notFound
  | alreadyExists
  | notDirectory
  | isDirectory
  | nameTooLong
  | nulInPath
  | notRewindable
  | interrupted
  | notUtf8
  | other (reason : String)
  deriving DecidableEq, Repr

def SystemError.message : SystemError → String
  | .notFound => "No such file or directory (os error 2)"
  | .alreadyExists => "File exists (os error 17)"
  | .notDirectory => "Not a directory (os error 20)"
  | .isDirectory => "Is a directory (os error 21)"
  | .nameTooLong => "File name too long (os error 36)"
  | .nulInPath => "file name contained an unexpected NUL byte"
  | .notRewindable => "source cannot be rewound"
  | .interrupted => "operation interrupted"
  | .notUtf8 => "stream did not contain valid UTF-8"
  | .other reason => reason

end Multipart
