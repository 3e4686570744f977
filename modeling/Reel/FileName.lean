import Reel.Error
import Reel.Text.Blank

/-!
# File names

The name of a project or an output becomes the name of a file. It must not be blank and must
hold neither control characters nor characters that are reserved on some system, a separator
among them.
-/
namespace Reel.FileName

def reserved : List Char := ['<', '>', ':', '"', '/', '\\', '|', '?', '*']

def isAllowed (c : Char) : Bool := !reserved.contains c && decide (32 ≤ c.toNat)

def isValid (name : String) : Bool := !Text.blank name && name.toList.all isAllowed

/-- A number where a character is looked at. -/
def charWanted : Error := .wrongKind "ord() expected string of length 1, but int found"

/-- Whether a value can be the name of a file; an absent one cannot. Bytes have no characters
that could be looked at, and other values than texts have no answer. -/
def isValidValue : Value → Except Error Bool
  | .null => .ok false
  | .text name => .ok (isValid name)
  | .bytes content => if content.isEmpty then .ok true else .error charWanted
  | v => .error (.lacks v "strip")

theorem isAllowed_slash : isAllowed '/' = false := by decide

theorem slash_notMem_of_isValid {name : String} (h : isValid name = true) :
    '/' ∉ name.toList := by
  intro member
  rw [isValid, Bool.and_eq_true, List.all_eq_true] at h
  have := h.2 '/' member
  rw [isAllowed_slash] at this
  exact Bool.false_ne_true this

end Reel.FileName
