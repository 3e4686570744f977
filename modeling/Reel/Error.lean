import Reel.Value.Text

/-!
# Why something could not be done

Three families of errors belong to the program itself: a rejected request, a defect of the
graph construction, and a pipeline whose command failed. Each has a cause and one wording. The
others say what was wrong with a value, a file or a process.
-/
namespace Reel

/-- Why a timeline, a name or a destination is refused before any command runs. -/
inductive Rejection where
  | timeMissing
  | timeKind
  | timeText (given : String)
  | fileMissing (path : String)
  | projectTooLarge
  | projectNotMapping
  | resolution
  | segmentEntry
  | segmentFile
  | audioEntry
  | audioFile
  | notList (field : String)
  | unknownChoice (field given : String)
  | settingsNotMapping
  | settingsMissing (path : String)
  | rootMissing
  | segmentsMissing
  | unknownFormat (format : String)
  | bitrateMissing
  | outputNameMissing
  | outputNameInvalid (name : String)
  | outputExists (path : String)
  | inputMissing (path : String)
  | cropWithoutScale
  | templateEmpty
  | projectMissing
  | projectNameMissing
  | projectNameInvalid (name : String)
  | timelineFileMissing (path : String)
  | audioFileMissing (path : String)
  deriving Repr, DecidableEq

def Rejection.message : Rejection → String
  | .timeMissing => "time value is required"
  | .timeKind => "time values must be int, float, or timecode string"
  | .timeText given => "invalid time value: " ++ given
  | .fileMissing path => "file not found: " ++ path
  | .projectTooLarge => "project file is larger than 10MB"
  | .projectNotMapping => "project file must be a mapping at the top level"
  | .resolution => "resolution must be [width, height]"
  | .segmentEntry => "segment entries must be mappings or paths"
  | .segmentFile => "segment requires a file"
  | .audioEntry => "audio entries must be mappings or paths"
  | .audioFile => "audio item requires a file"
  | .notList field => field ++ " must be a list"
  | .unknownChoice field given => "unknown " ++ field ++ ": " ++ given
  | .settingsNotMapping => "settings file must be a mapping at the top level"
  | .settingsMissing path => "settings file not found: " ++ path
  | .rootMissing => "root path is not set"
  | .segmentsMissing => "timeline has no segments"
  | .unknownFormat format => "unknown output format: " ++ format
  | .bitrateMissing => "two-pass encoding requires a video bitrate"
  | .outputNameMissing => "output name is required"
  | .outputNameInvalid name => "output name contains invalid characters: " ++ name
  | .outputExists path => "output file already exists: " ++ path
  | .inputMissing path => "input file not found: " ++ path
  | .cropWithoutScale => "crop and scale must be given together"
  | .templateEmpty => "custom command template is empty"
  | .projectMissing => "a project file or timeline is required"
  | .projectNameMissing => "project name is required"
  | .projectNameInvalid name => "project name contains invalid characters: " ++ name
  | .timelineFileMissing path => "timeline file not found: " ++ path
  | .audioFileMissing path => "audio file not found: " ++ path

/-- A broken promise inside the graph construction. -/
inductive Defect where
  | durationUnresolved (path : String)
  | audioDurationUnresolved (path : String)
  | labelNeedsIndex (kind : String)
  | labelTakesNoIndex (kind : String)
  | labelRepeated (text : String)
  | videoLabelsMissing
  deriving Repr, DecidableEq

def Defect.message : Defect → String
  | .durationUnresolved path => "segment duration not resolved: " ++ path
  | .audioDurationUnresolved path => "audio item duration not resolved: " ++ path
  | .labelNeedsIndex kind => "label kind " ++ kind ++ " needs an index"
  | .labelTakesNoIndex kind => "label kind " ++ kind ++ " takes no index"
  | .labelRepeated text => "duplicate filter label: " ++ text
  | .videoLabelsMissing => "no video labels were produced"

/-- A command of a pipeline that exited with an error. -/
structure PipelineFailure where
  returnCode : Int
  diagnostic : String
  /-- The pass that the command belongs to, if it belongs to one. -/
  pass : Value
  deriving Repr, DecidableEq

def PipelineFailure.message (f : PipelineFailure) : String :=
  let head := "ffmpeg failed with exit code " ++ toString f.returnCode
  let head := if f.pass.isNull then head else head ++ " (pass " ++ f.pass.shown ++ ")"
  if f.diagnostic = "" then head else head ++ "\n" ++ f.diagnostic

/-- What the file system answers instead of doing what was asked. -/
inductive FileFault where
  | missing
  | denied
  | exists
  | isDirectory
  | notDirectory
  | nameTooLong
  deriving Repr, DecidableEq

/-- The number and wording under which the system reports the fault. -/
def FileFault.message : FileFault → String
  | .missing => "[Errno 2] No such file or directory"
  | .denied => "[Errno 13] Permission denied"
  | .exists => "[Errno 17] File exists"
  | .isDirectory => "[Errno 21] Is a directory"
  | .notDirectory => "[Errno 20] Not a directory"
  | .nameTooLong => "[Errno 36] File name too long"

/-- The families of errors that are told apart where one may be passed over. -/
inductive Family where
  | system
  | grammar
  | value
  | other
  deriving Repr, DecidableEq

/-- An error that was raised outside the program, by a library that it calls. -/
structure Foreign where
  family : Family
  kind : String
  wording : String
  deriving Repr, DecidableEq

/-- Everything that can stop the program. Faults of values, numbers and texts say in their own
words what is wrong. -/
inductive Error where
  | rejected (cause : Rejection)
  | defect (cause : Defect)
  | failed (failure : PipelineFailure)
  /-- A value of a kind that the operation has no meaning for. -/
  | wrongKind (wording : String)
  /-- A value that is no text where text is needed. -/
  | notText (wording : String)
  /-- A text or number that cannot be read as what is needed. -/
  | unreadable (wording : String)
  /-- A number outside the range of the kind it is converted to. -/
  | outOfRange (wording : String)
  | decimal (signal : Decimal.Signal)
  | noInvocations
  | unknownSetting (name : String)
  | file (fault : FileFault) (path : Value)
  | foreign (fault : Foreign)
  /-- The program ends with this code. -/
  | exit (code : Nat)
  deriving Repr, DecidableEq

def Error.message : Error → String
  | .rejected cause => cause.message
  | .defect cause => cause.message
  | .failed failure => failure.message
  | .wrongKind wording | .notText wording | .unreadable wording | .outOfRange wording => wording
  | .decimal .invalidOperation => "[<class 'decimal.InvalidOperation'>]"
  | .decimal .overflow => "[<class 'decimal.Overflow'>]"
  | .noInvocations => "no invocations to run"
  | .unknownSetting name => "unknown config override: " ++ name
  | .file fault path => fault.message ++ ": " ++ path.quoted
  | .foreign fault => fault.wording
  | .exit code => toString code

/-- Whether the error is one that the command line reports and turns into a failing exit. -/
def Error.isReported : Error → Bool
  | .rejected _ | .defect _ | .failed _ => true
  | _ => false

/-- A value without the operation of a text that is asked for. -/
def Error.lacks (v : Value) (operation : String) : Error :=
  .notText ("'" ++ v.kindName ++ "' object has no attribute '" ++ operation ++ "'")

def Error.noOperands (operation left right : String) : Error :=
  .wrongKind ("unsupported operand type(s) for " ++ operation ++ ": '" ++ left ++ "' and '" ++
    right ++ "'")

/-- Two kinds of values that are in no order. -/
def Error.noOrder (relation left right : String) : Error :=
  .wrongKind ("'" ++ relation ++ "' not supported between instances of '" ++ left ++ "' and '" ++
    right ++ "'")

def Error.bytesSearched : Error :=
  .wrongKind "cannot use a string pattern on a bytes-like object"

/-- A path or a name that holds the zero character, which ends a text for the system. -/
def Error.zeroInside : Error := .unreadable "embedded null byte"

def reject {α : Type} (cause : Rejection) : Except Error α := .error (.rejected cause)

end Reel
