namespace Backtest

inductive FileError
  | notFound
  | notDirectory
  | isDirectory
  | alreadyExists
  | nameTooLong
  | zeroInName
  | notText
  /-- A cause that is not told apart here, in its own words. -/
  | other (text : String)
  deriving DecidableEq, Repr

namespace FileError

def message : FileError → String
  | notFound => "No such file or directory (os error 2)"
  | notDirectory => "Not a directory (os error 20)"
  | isDirectory => "Is a directory (os error 21)"
  | alreadyExists => "File exists (os error 17)"
  | nameTooLong => "File name too long (os error 36)"
  | zeroInName => "file name contained an unexpected NUL byte"
  | notText => "stream did not contain valid UTF-8"
  | other text => text

end FileError

/-- What a command asks of the files around it. -/
class Files (m : Type → Type) where
  /-- The content of a file, which has to be text in UTF-8. -/
  readText : String → m (Except FileError String)
  /-- The names in a directory, in any order. -/
  names : String → m (Except FileError (List String))
  createDirectories : String → m (Except FileError Unit)
  /-- Gives a file a new content, and makes it if it is missing. -/
  writeText : String → String → m (Except FileError Unit)

end Backtest
