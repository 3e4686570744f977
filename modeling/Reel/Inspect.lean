import Reel.Graph.Label
import Reel.Pipeline
import Reel.Text.Quoted
import Reel.Timeline

/-!
# Descriptions for inspection

One line about a value of the library, as it is shown to whoever looks into a running program.
Paths and command lines are quoted, so that blanks at their ends show.
-/
namespace Reel

def Segment.describe (s : Segment Double) : Except Error String := do
  return "MediaSegment(" ++ (← s.path.toQuoted) ++ ", " ++ s.kind.text ++ ", duration=" ++
    s.duration.text ++ ")"

def AudioItem.describe (item : AudioItem Double) : Except Error String := do
  return "AudioItem(" ++ (← item.path.toQuoted) ++ ", duration=" ++ item.duration.text ++ ")"

def Label.describe (l : Label) : String :=
  "Label(" ++ Text.quoted l.text ++ ", serial=" ++ toString l.serial ++ ")"

/-- The invocation with the line that would run it under the usual name of the encoder. -/
def Invocation.describe (i : Invocation) : Except Error String := do
  return "Invocation(pass=" ++ (← i.pass.toText) ++ ", " ++
    Text.quoted (← i.commandLine (.text "ffmpeg")) ++ ")"

def PipelineResult.describe (r : PipelineResult) : Except Error String := do
  return "PipelineResult(returncode=" ++ toString r.returnCode ++ ", pass_number=" ++
    (← r.pass.toText) ++ ")"

end Reel
