/-!
# Replacing a text

Every occurrence of a pattern is replaced, from left to right; what was put in is not looked at
again.
-/
namespace Reel.Text

def replaceChars (p : Char) (ps replacement : List Char) : List Char → List Char
  | [] => []
  | c :: rest =>
    if (p :: ps).isPrefixOf (c :: rest) then
      replacement ++ replaceChars p ps replacement (rest.drop ps.length)
    else c :: replaceChars p ps replacement rest
termination_by cs => cs.length
decreasing_by
  · simp only [List.length_drop, List.length_cons]; omega
  · simp

/-- Replaces a pattern; the empty pattern occurs nowhere. -/
def replace (pattern replacement s : String) : String :=
  match pattern.toList with
  | [] => s
  | p :: ps => String.ofList (replaceChars p ps replacement.toList s.toList)

end Reel.Text
