import Reel.Dashboard
import Reel.Proofs.Pipeline.Launches
import Reel.Proofs.Project.Words

/-!
# Commands in short

A command is reported as a line, and the dashboard sums the line up. As the line is cut back into
the words that were joined, whatever characters they hold, the short form names the program, the
file that the command ends in and, if the command asks for a pass, the pass. The first word that
asks for a pass counts; behind the base of a two-pass encode this is the one that was put there.
-/
namespace Reel

/-- The run sends the report, if it is started on the machine. -/
def Run.Sends {α : Type} (run : Run α) (host : Host) (r : Report) : Prop :=
  ∃ sent, (run.on host).2.reports = sent ++ host.reports ∧ r ∈ sent

/-- The dashboard sums up the line of the report like this. -/
def Report.SummedUp (r : Report) (short : String) : Prop :=
  Summary.ofValue (Notice.ofReport r).command = .ok short

namespace Launch

variable {l : Listener} {host : Host}

/-- Every report of a command brings the line that is shown of it. A command that can be echoed is
reported at least when it starts. -/
theorem run_reports (launch : Launch) (listens : host.listener = some l) :
    ∃ sent, (launch.run.on host).2.reports = sent ++ host.reports ∧
      (∀ r ∈ sent, (Notice.ofReport r).command = .text launch.shown) ∧
      ((host.echoed launch.shown).isOk = true → host.startReport launch.shown ∈ sent) := by
  have begins := Run.beginCommand_listened listens launch.shown
  cases echoed : host.echoed launch.shown with
  | error e =>
      rw [echoed] at begins
      refine ⟨[], ?_, by simp, fun h => nomatch h⟩
      rw [run, Run.on_bind, begins]
      rfl
  | ok printed =>
      rw [echoed] at begins
      dsimp only at begins
      cases heard : l (host.startReport launch.shown :: host.reports) with
      | error e =>
          rw [heard] at begins
          refine ⟨[host.startReport launch.shown], ?_,
            by simp [Host.startReport, Notice.ofReport], by simp⟩
          rw [run, Run.on_bind, begins]
          rfl
      | ok _ =>
          rw [heard] at begins
          obtain ⟨outcome, files, commands, clock, starts⟩ :=
            launch.start_on (host.begun launch.shown printed)
          rw [launch.run_on begins starts listens]
          cases launch.settle outcome with
          | error e =>
              exact ⟨[host.startReport launch.shown], rfl,
                by simp [Host.startReport, Notice.ofReport], by simp⟩
          | ok answer =>
              exact ⟨[_, host.startReport launch.shown], rfl,
                by simp [Host.startReport, Host.endReport, Notice.ofReport], by simp⟩

end Launch

namespace Run

variable {l : Listener} {host : Host} {r : Report}

theorem command_reports (words : List String) (listens : host.listener = some l) :
    (∀ r, (command (Value.words words)).Sends host r →
      (Notice.ofReport r).command = .text (Shell.join words)) ∧
    ((host.echoed (Shell.join words)).isOk = true →
      ∃ r, (command (Value.words words)).Sends host r) := by
  have written : command (Value.words words) = (Launch.program words).run := by
    rw [command_eq, Invocation.words_eq]
    rfl
  obtain ⟨sent, reports, each, first⟩ := (Launch.program words).run_reports listens
  rw [written]
  refine ⟨fun r sends => ?_, fun echoes => ⟨_, sent, reports, first echoes⟩⟩
  obtain ⟨given, same, member⟩ := sends
  exact each r (List.append_cancel_right (same.symm.trans reports) ▸ member)

/-- An invocation of texts is reported as the line of the encoder and its words. -/
theorem invocation_reports {i : Invocation} {program : String} {words : List String}
    (listens : host.listener = some l) (plain : i.shellCommand = .null)
    (texts : i.arguments = Value.words words)
    (sends : (invocation (.text program) i).Sends host r) :
    (Notice.ofReport r).command = .text (Shell.join (program :: words)) := by
  have settled {next : Int × String → Run PipelineResult} (run : Run (Int × String))
      (still : ∀ x after, ((next x).on after).2 = after) :
      ((run >>= next).on host).2 = (run.on host).2 := by
    rw [on_bind]
    rcases run.on host with ⟨outcome, after⟩
    cases outcome with
    | ok x => exact still x after
    | error e => rfl
  refine (command_reports (program :: words) listens).1 r ?_
  obtain ⟨sent, reports, member⟩ := sends
  refine ⟨sent, ?_, member⟩
  rw [← reports, invocation, Runner.invocation, plain]
  dsimp only
  rw [Runner.encoder, texts]
  exact congrArg Host.reports (settled _ fun _ _ => rfl).symm

end Run

namespace Summary

variable {before behind : List String} {p : String}

theorem passOf_of_notMem {words : List String} (none : "-pass" ∉ words) :
    passOf words = .none := by
  have all : words.dropWhile (· != "-pass") = [] := by
    rw [List.dropWhile_eq_nil_iff]
    intro word member
    rw [bne_iff_ne]
    rintro rfl
    exact none member
  rw [passOf, all]
  rfl

theorem dropWhile_pass (first : "-pass" ∉ before) (behind : List String) :
    (before ++ "-pass" :: behind).dropWhile (· != "-pass") = "-pass" :: behind := by
  have passed : ∀ word ∈ before, (word != "-pass") = true := by
    intro word member
    rw [bne_iff_ne]
    rintro rfl
    exact first member
  rw [List.dropWhile_append_of_pos passed]
  rfl

theorem passOf_append (first : "-pass" ∉ before) (p : String) (behind : List String) :
    passOf (before ++ "-pass" :: p :: behind) = some p := by
  rw [passOf, dropWhile_pass first]
  rfl

theorem passOf_concat (first : "-pass" ∉ before) (last : String) :
    passOf (before ++ [last]) = none := by
  by_cases asks : last = "-pass"
  · rw [asks, passOf, dropWhile_pass first]
    rfl
  · exact passOf_of_notMem (by simpa [Ne.symm asks] using first)

theorem ofCommand_join {first : String} {words : List String} :
    ofCommand (Shell.join (first :: words)) =
      ofWords (Shell.join (first :: words)) (first :: words) := by
  have some : Shell.join (first :: words) ≠ "" := by
    intro empty
    have read := Shell.split?_join (first :: words)
    rw [empty] at read
    cases read
  rw [ofCommand, if_neg some, Shell.split?_join]

theorem ofWords_concat (line first last : String) (middle : List String) :
    ofWords line (first :: (middle ++ [last])) =
      Path.basename first ++ ((passOf (first :: (middle ++ [last]))).elim "" (" pass " ++ ·)) ++
        ": " ++ Path.basename last := by
  obtain ⟨second, rest, same⟩ :=
    List.exists_cons_of_ne_nil (show middle ++ [last] ≠ [] by simp)
  have target : (second :: rest).getLastD "" = last := by rw [← same, List.getLastD_concat]
  rw [same]
  unfold ofWords
  dsimp only
  rw [target]
  cases passOf (first :: second :: rest) with
  | none => rw [Option.elim_none, String.append_empty]
  | some p => rw [Option.elim_some, ← String.append_assoc]

theorem ofReport {r : Report} {first last : String} {middle : List String}
    (told : (Notice.ofReport r).command = .text (Shell.join (first :: (middle ++ [last])))) :
    r.SummedUp (Path.basename first ++
      ((passOf (first :: (middle ++ [last]))).elim "" (" pass " ++ ·)) ++
        ": " ++ Path.basename last) := by
  rw [Report.SummedUp, told, ofValue, ofCommand_join, ofWords_concat]

/-- What an invocation with a pass behind its base is summed up as. -/
theorem ofPass {l : Listener} {host : Host} {i : Invocation} {r : Report}
    {program pass last : String} {base : List String} (listens : host.listener = some l)
    (plain : i.shellCommand = .null)
    (middle : List String)
    (texts : i.arguments = Value.words (base ++ "-pass" :: pass :: (middle ++ [last])))
    (none : "-pass" ∉ program :: base) (sends : (Run.invocation (.text program) i).Sends host r) :
    r.SummedUp (Path.basename program ++ " pass " ++ pass ++ ": " ++ Path.basename last) := by
  have row : base ++ "-pass" :: pass :: (middle ++ [last]) =
      base ++ "-pass" :: pass :: middle ++ [last] := by simp
  have told := Run.invocation_reports listens plain texts sends
  rw [row] at told
  have short := ofReport told
  rw [← row, ← List.cons_append, passOf_append none] at short
  simpa [String.append_assoc] using short

end Summary

/-- To someone who listens, each report of a command of at least two words has a line that is summed
up by the first and the last word, and by the word behind the first one that asks for a pass, if
there is one; and a command that can be echoed is reported. The two commands of a two-pass encode
whose base asks for no pass are summed up by their passes, the first with the place where nothing
is kept and the second with the output. -/
theorem commands_summarized {l : Listener} {host : Host} (listens : host.listener = some l) :
    (∀ (first last : String) (middle : List String),
      (∀ r, (Run.command (Value.words (first :: (middle ++ [last])))).Sends host r →
        ("-pass" ∉ first :: middle →
          r.SummedUp (Path.basename first ++ ": " ++ Path.basename last)) ∧
        ∀ before p behind, first :: (middle ++ [last]) = before ++ "-pass" :: p :: behind →
          "-pass" ∉ before →
          r.SummedUp (Path.basename first ++ " pass " ++ p ++ ": " ++ Path.basename last)) ∧
      ((host.echoed (Shell.join (first :: (middle ++ [last])))).isOk = true →
        ∃ r, (Run.command (Value.words (first :: (middle ++ [last])))).Sends host r)) ∧
    ∀ (program output sink : String) (base : List String) (log : Value),
      (log = .null ∨ ∃ place, log = .text place) → "-pass" ∉ program :: base →
      List.Forall₂
        (fun i short => ∀ r, (Run.invocation (.text program) i).Sends host r → r.SummedUp short)
        (twoPassInvocations (Value.words base) (.text output) log (.text sink))
        [Path.basename program ++ " pass " ++ "1" ++ ": " ++ Path.basename sink,
          Path.basename program ++ " pass " ++ "2" ++ ": " ++ Path.basename output] := by
  refine ⟨fun first last middle => ⟨fun r sends => ?_, ?_⟩, ?_⟩
  · have short := Summary.ofReport ((Run.command_reports _ listens).1 r sends)
    refine ⟨fun none => ?_, fun before p behind same asks => ?_⟩
    · rw [← List.cons_append, Summary.passOf_concat none] at short
      simpa using short
    · rw [same, Summary.passOf_append asks] at short
      simpa [String.append_assoc] using short
  · exact (Run.command_reports _ listens).2
  · intro program output sink base log written none
    let words : List String := if log.isNull then [] else ["-passlogfile", log.shown]
    have same : (if log.isNull then [] else [("-passlogfile" : Value), log]) =
        Value.words words := by
      rcases written with rfl | ⟨place, rfl⟩ <;> rfl
    have pair : twoPassInvocations (Value.words base) (.text output) log (.text sink) =
        [{ arguments := Value.words (base ++ "-pass" :: "1" ::
              (words ++ ["-an", "-f", "null"] ++ [sink])), pass := .int 1 },
          { arguments := Value.words (base ++ "-pass" :: "2" :: (words ++ [output]))
            pass := .int 2, outputPath := .text output }] := by
      rw [twoPassInvocations, same]
      simp [Value.words]
    rw [pair]
    refine .cons (fun r => ?_) (.cons (fun r => ?_) .nil)
    · exact Summary.ofPass listens rfl (words ++ ["-an", "-f", "null"]) rfl none
    · exact Summary.ofPass listens rfl words rfl none

/-- A silent machine, to someone who only listens. -/
def attentive : Host := { listener := some fun _ => .ok (), quiet := true }

theorem commands_summarized_quoted :
    attentive.listener = some (fun _ => .ok ()) ∧
    (∃ r, (Run.command (Value.words ["/opt/ff mpeg", "-i", "", "-pass", "it's", "-pass",
        "out/a \\\"b\n.mp4"])).Sends attentive r ∧
      r.SummedUp "ff mpeg pass it's: a \\\"b\n.mp4") ∧
    (∃ r, (Run.command (Value.words ["./ffmpeg", "-y", "-pass"])).Sends attentive r ∧
      r.SummedUp "ffmpeg: -pass") ∧
    ∀ r, (Run.passes "ffmpeg" [{ arguments := Value.words ["-y", "-pass", "2", "-passlogfile",
        "-pass", "out/trip.mp4"], pass := .int 2, outputPath := "out/trip.mp4" }]).Sends
        attentive r → r.SummedUp "ffmpeg pass 2: trip.mp4" := by
  have listens : attentive.listener = some fun _ => .ok () := rfl
  obtain ⟨row, pair⟩ := commands_summarized listens
  refine ⟨listens, ?_, ?_, ?_⟩
  · obtain ⟨r, sends⟩ := (row "/opt/ff mpeg" "out/a \\\"b\n.mp4"
      ["-i", "", "-pass", "it's", "-pass"]).2 rfl
    have short := ((row _ _ _).1 r sends).2 ["/opt/ff mpeg", "-i", ""] "it's" _ rfl (by decide)
    exact ⟨r, sends, short⟩
  · obtain ⟨r, sends⟩ := (row "./ffmpeg" "-pass" ["-y"]).2 rfl
    exact ⟨r, sends, ((row _ _ _).1 r sends).1 (by decide)⟩
  · intro r sends
    obtain ⟨-, second⟩ := List.forall₂_cons.mp
      (pair "ffmpeg" "out/trip.mp4" "/dev/null" ["-y"] "-pass" (.inr ⟨_, rfl⟩) (by decide))
    exact (List.forall₂_cons.mp second).1 r sends

end Reel
