import Feedkeeper.Failure
import Feedkeeper.Settings
import Feedkeeper.Settings.Environment
import Feedkeeper.Text.Digits

/-!
# Loading settings

An environment file is loaded into the variables of the process, and then each setting is taken
from its variable, or left at its default if the variable is not set to valid text
(`Settings.load`). The first variable that does not hold a number is an error, and only then is the
window size looked at.
-/

namespace Feedkeeper

namespace Settings

/-- Why a text is no number of 64 bits. -/
inductive NumberError where
  | empty
  | badDigit
  | tooLarge
  deriving DecidableEq, Repr

/-- The wording of a number error. -/
def NumberError.message : NumberError → String
  | empty => "cannot parse integer from empty string"
  | badDigit => "invalid digit found in string"
  | tooLarge => "number too large to fit in target type"

/-- The number of the digits, read from the left; the first character at fault decides. -/
def readDigits (n : Nat) : List Char → Except NumberError Nat
  | [] => .ok n
  | c :: rest =>
    if Digits.isDigit c then
      let next := 10 * n + Digits.digitValue c
      if next < Nat.pow 2 64 then readDigits next rest else .error .tooLarge
    else .error .badDigit

/-- One or more digits, behind at most one plus sign. -/
def readNumber (text : String) : Except NumberError Nat :=
  match text.toList with
  | [] => .error .empty
  | ['+'] => .error .badDigit
  | '+' :: digits => readDigits 0 digits
  | digits => readDigits 0 digits

/-- The number in a variable, or the default if the variable has no value. -/
def number (vars : Variables) (name : String) (default : Nat) : Except Fault Nat :=
  match vars.text? name with
  | none => .ok default
  | some text =>
    match readNumber text with
    | .ok n => .ok n
    | .error error => .error ⟨name ++ " must be a valid number", [error.message]⟩

/-- The smallest window that shows an event beside the anchor. -/
def leastWindowSize : Nat := 2

/-- The settings in the variables. -/
def fromVariables (vars : Variables) : Except Fault Settings := do
  let defaults : Settings := {}
  let pollInterval ← number vars "SYNC_POLL_INTERVAL_MS" defaults.pollInterval
  let loginInterval ← number vars "SYNC_LOGIN_POLL_INTERVAL_MS" defaults.loginInterval
  let windowSize ← number vars "SYNC_WINDOW_SIZE" defaults.windowSize
  let cursorKey := (vars.text? "SYNC_CURSOR_KEY").getD defaults.cursorKey
  let operationInterval ← number vars "OPERATION_POLL_INTERVAL_MS" defaults.operationInterval
  if windowSize < leastWindowSize then throw ⟨"SYNC_WINDOW_SIZE must be at least 2", []⟩
  return { pollInterval, loginInterval, windowSize, cursorKey, operationInterval }

/-- The settings of an environment; nothing if the process ends while its file is loaded. -/
def load (dotenv : Dotenv) (environment : Environment) : Option (Except Fault Settings) :=
  (dotenv.load environment).map fromVariables

end Settings

end Feedkeeper
