import Reel.Host.Probe
import Reel.Proofs.Host.Gives

/-!
# What probes find and leave

A probe finds what the machine answers to its words, and the machine is left as it was but for
the record of what was started.
-/
namespace Reel

def ProbeScript.outcome (script : ProbeScript) (closes : Bool) : Except StartFault Ended :=
  let ended : Ended :=
    { exitCode := script.exitCode, output := script.output, diagnostic := script.diagnostic }
  match script.fault with
  | none => .ok ended
  | some .descriptors => if closes then .error .descriptors else .ok ended
  | some fault => .error fault

/-- What a probe finds. Descriptors that cannot be closed do not matter. -/
def ProbeScript.found (script : ProbeScript) : Except Error String :=
  match script.fault with
  | none | some .descriptors =>
    .ok (if script.exitCode = 0 then Text.decodeLenient script.output else "")
  | some .refused => .error .zeroInside
  | some _ => .ok ""

/-- The starts of a probe, the last one first, as inherited descriptors are closed or not. -/
def ProbeScript.closings (script : ProbeScript) : List Bool :=
  if script.fault = some .descriptors then [false, true] else [true]

/-- A probe finds something out, if nothing but an answer, unless the start is refused. -/
theorem ProbeScript.exists_found {script : ProbeScript} (startable : script.fault ≠ some .refused) :
    ∃ text, script.found = .ok text := by
  unfold found
  cases faulty : script.fault with
  | none => exact ⟨_, rfl⟩
  | some fault =>
      cases fault with
      | missing => exact ⟨_, rfl⟩
      | denied => exact ⟨_, rfl⟩
      | refused => exact absurd faulty startable
      | timeout => exact ⟨_, rfl⟩
      | descriptors => exact ⟨_, rfl⟩

namespace Run

theorem startProbe_on (words : List Value) (closes : Bool) (host : Host) :
    (startProbe words closes).on host =
      (.ok ((host.probes words).outcome closes),
        { host with spawned := .arguments words closes :: host.spawned }) := by
  rw [startProbe, on_bind, recordSpawn, on_modify]
  simp only [on_bind, on_get, ProbeScript.outcome]
  cases (host.probes words).fault with
  | none => rfl
  | some fault => cases fault <;> rfl

theorem probe_on (words : List Value) (host : Host) :
    (Run.probe words).on host = ((host.probes words).found,
      { host with
        spawned := (host.probes words).closings.map (.arguments words) ++ host.spawned }) := by
  rw [Run.probe, on_bind, startProbe_on]
  unfold ProbeScript.found ProbeScript.closings ProbeScript.outcome
  cases faulty : (host.probes words).fault with
  | none => rfl
  | some fault =>
      cases fault with
      | descriptors =>
          simp only [if_true, on_bind, startProbe_on, ProbeScript.outcome, faulty]
          rfl
      | _ => rfl

end Run

theorem Medium.probes_startable {media : List (String × Medium)}
    (startable : ∀ entry ∈ media, entry.2.fault ≠ some .refused) (words : List Value) :
    (Medium.probes media words).fault ≠ some .refused := by
  unfold probes
  split
  · next hit => exact startable _ (List.mem_of_find?_eq_some hit)
  · simp

end Reel
