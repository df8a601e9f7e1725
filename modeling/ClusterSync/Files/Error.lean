/-
# What the operating system refuses

| cause | number |
| --- | ---: |
| nothing is there | 2 |
| it may not be run | 13 |
| something on the way is no directory | 20 |
| it is a directory | 21 |
| a name has more than 255 bytes | 36 |
| too many links follow one another | 40 |

A few refusals are not the system's own and have no number.
-/

namespace ClusterSync
namespace Files

/-- Why an operation on files fails. -/
inductive OsError
  | notFound
  | permissionDenied
  | notDirectory
  | isDirectory
  | nameTooLong
  | tooManyLinks
  /-- A name has a zero byte in it. -/
  | zeroByte
  /-- What is to be copied is no file. -/
  | notRegular
  /-- A text is not UTF-8. -/
  | notText
  /-- A cluster has a name that no file can be named for. -/
  | notPlainName
  /-- Anything else, by its wording. -/
  | other (text : String)
deriving DecidableEq

/-- The wording of a refusal. -/
def OsError.message : OsError → String
  | notFound => "No such file or directory (os error 2)"
  | permissionDenied => "Permission denied (os error 13)"
  | notDirectory => "Not a directory (os error 20)"
  | isDirectory => "Is a directory (os error 21)"
  | nameTooLong => "File name too long (os error 36)"
  | tooManyLinks => "Too many levels of symbolic links (os error 40)"
  | zeroByte => "file name contained an unexpected NUL byte"
  | notRegular => "the source path is neither a regular file nor a symlink to a regular file"
  | notText => "stream did not contain valid UTF-8"
  | notPlainName => "cluster name is not a plain file name"
  | other text => text

end Files
end ClusterSync
