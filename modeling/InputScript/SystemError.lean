import InputScript.Text.Quoted

/-!
# System errors

Failures reported by the operating system, as numbers with a fixed text, optionally about a file.
-/

namespace InputScript

/-- The system error numbers that occur. -/
inductive Errno
  | noEntry
  | inputOutput
  | execFormat
  | permission
  | noDevice
  | notDirectory
  | isDirectory
  | invalidArgument
  | textBusy
  | nameTooLong
  | tooManyLinks
deriving DecidableEq, Repr

namespace Errno

def code : Errno → Nat
  | .noEntry => 2
  | .inputOutput => 5
  | .execFormat => 8
  | .permission => 13
  | .noDevice => 19
  | .notDirectory => 20
  | .isDirectory => 21
  | .invalidArgument => 22
  | .textBusy => 26
  | .nameTooLong => 36
  | .tooManyLinks => 40

def text : Errno → String
  | .noEntry => "No such file or directory"
  | .inputOutput => "Input/output error"
  | .execFormat => "Exec format error"
  | .permission => "Permission denied"
  | .noDevice => "No such device"
  | .notDirectory => "Not a directory"
  | .isDirectory => "Is a directory"
  | .invalidArgument => "Invalid argument"
  | .textBusy => "Text file busy"
  | .nameTooLong => "File name too long"
  | .tooManyLinks => "Too many levels of symbolic links"

end Errno

/-- A failed system call. -/
inductive SystemError
  /-- An error number, and the file it is about. -/
  | errno (number : Errno) (file : Option String)
  /-- A failure described in words. -/
  | described (text : String)
deriving DecidableEq, Repr

/-- The text of a failed call: number, meaning and quoted file name. -/
def SystemError.toText : SystemError → String
  | .errno number file =>
    let base := "[Errno " ++ Text.decimal number.code ++ "] " ++ number.text
    match file with
    | none => base
    | some name => base ++ ": " ++ Text.quoted name
  | .described text => text

end InputScript
