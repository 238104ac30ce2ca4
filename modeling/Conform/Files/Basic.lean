import Conform.Files.Path

namespace Conform

inductive FileFault where
  | notFound
  | notADirectory
  | isADirectory
  | tooManyLinks
  | nameTooLong
  | nulInName
  /-- The bytes of the file are no text. -/
  | notText
  | other (message : String)
deriving DecidableEq

def FileFault.message : FileFault → String
  | .notFound => "No such file or directory (os error 2)"
  | .notADirectory => "Not a directory (os error 20)"
  | .isADirectory => "Is a directory (os error 21)"
  | .tooManyLinks => "Too many levels of symbolic links (os error 40)"
  | .nameTooLong => "File name too long (os error 36)"
  | .nulInName => "file name contained an unexpected NUL byte"
  | .notText => "stream did not contain valid UTF-8"
  | .other message => message

inductive Entry where
  /-- Anything but a directory; a link to a file, or to nothing, counts as a file. -/
  | file (name : String)
  | directoryLink (name : String)
  | directory (name : String) (entries : List Entry)
  | sealed (name : String) (fault : FileFault)
  /-- Something of which not even its name or what it is can be told. -/
  | unreadable (fault : FileFault)

structure Files where
  read : Path → Except FileFault String
  directory? : Path → Option (Except FileFault (List Entry))

end Conform
