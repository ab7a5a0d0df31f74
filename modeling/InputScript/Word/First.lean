import InputScript.Report
import InputScript.Word.Check
import InputScript.Word.Token

/-!
# The first word of a line

Lines that are stored or skipped are only looked at for their first word, without expanding them. A
line whose first piece holds an expansion character cannot be classified that way and is refused.
-/

namespace InputScript.Word

/-- The characters that call for a shell. -/
def isExpansion (c : Char) : Bool :=
  ['$', '`', '*', '?', '[', '~'].contains c

/-- Whether a text needs a shell to be split. -/
def needsShell (text : String) : Bool := text.toList.any isExpansion

/-- Errors of words. -/
inductive WordFault
  | refused (fault : CheckFault)
  | unsplittable (fault : TokenFault)
  | hiddenKeyword (head : String)
deriving DecidableEq, Repr

def WordFault.message : WordFault → String
  | .refused fault => fault.message
  | .unsplittable fault => "cannot parse line: " ++ fault.message
  | .hiddenKeyword head =>
    "block keyword cannot be determined without expansion: '" ++ head ++ "'"

/-- The first word of a line as it stands; `none` if the line has no word. -/
def firstWord (text : String) : Except (Trouble WordFault) (Option String) :=
  match firstToken text.toList with
  | .error fault => .error (.fault (.unsplittable fault))
  | .ok none => .ok none
  | .ok (some (word, _)) =>
    match Text.firstPiece text with
    | none => .error (.crash .noPiece)
    | some head =>
      if needsShell head then .error (.fault (.hiddenKeyword head)) else .ok (some word)

end InputScript.Word
