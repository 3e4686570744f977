import Reel.Proofs.Host.Commands

/-!
# What a row of commands starts and leaves

The commands of a row are started in order and one at a time, and none behind the first that
fails. Of the files only what the scripts of the started commands create is new. This holds
however the row ends and whoever listens, so it is followed through results and stops alike.
-/
namespace Reel

/-- The start of a command with words for the system. -/
def Spawn.ofWords (words : List String) : Spawn := .arguments (Value.words words) true

def Invocation.words (program : Value) (i : Invocation) : Except Error (List String) :=
  (program :: i.arguments).mapM Value.toText

def CommandScript.outcome (script : CommandScript) : Except StartFault Ended :=
  match script.fault with
  | some fault => .error fault
  | none => .ok { exitCode := script.exitCode, output := [], diagnostic := script.diagnostic }

/-- The files once a scripted command has run. -/
def CommandScript.leave (files : Files) (script : CommandScript) : Files :=
  match script.fault with
  | some _ => files
  | none => script.creates.foldl (fun files path => files.write path (.file [])) files

/-- The machine after some commands were started, each of which used up one outcome of the script
at most. -/
structure Host.Ran (host after : Host) (started : List (List String)) : Prop where
  listener : after.listener = host.listener
  spawned : after.spawned = (started.map Spawn.ofWords).reverse ++ host.spawned
  files : ∃ k ≤ started.length, after.commands = host.commands.drop k ∧
    after.files = (host.commands.take k).foldl CommandScript.leave host.files

namespace Host.Ran

variable {host middle after : Host} {started later : List (List String)}

theorem of_same (listener : after.listener = host.listener)
    (spawned : after.spawned = host.spawned) (commands : after.commands = host.commands)
    (files : after.files = host.files) : host.Ran after [] :=
  ⟨listener, spawned, 0, le_rfl, commands, files⟩

theorem refl (host : Host) : host.Ran host [] := .of_same rfl rfl rfl rfl

theorem trans (first : host.Ran middle started) (second : middle.Ran after later) :
    host.Ran after (started ++ later) := by
  obtain ⟨j, hj, commands, files⟩ := first.files
  obtain ⟨k, hk, commands', files'⟩ := second.files
  refine ⟨second.listener.trans first.listener, ?_, j + k, ?_, ?_, ?_⟩
  · rw [second.spawned, first.spawned, List.map_append, List.reverse_append, List.append_assoc]
  · rw [List.length_append]
    exact Nat.add_le_add hj hk
  · rw [commands', commands, List.drop_drop]
  · rw [files', files, commands, List.take_add, List.foldl_append]

end Host.Ran

namespace Run

variable {α β : Type} {run : Run α} {next : α → Run β} {started : List (List String)}
  {mid post : List (List String) → α → Prop} {goal : List (List String) → β → Prop}
  {stop : List (List String) → Prop}

/-- The run starts commands and changes the machine as these do. What was started has a property,
together with the result if there is one. -/
def Starts (run : Run α) (post : List (List String) → α → Prop)
    (stop : List (List String) → Prop) : Prop :=
  ∀ host, ∃ started, host.Ran (run.on host).2 started ∧
    match (run.on host).1 with
    | .ok x => post started x
    | .error _ => stop started

namespace Starts

theorem pure {x : α} (h : post [] x) : Starts (Pure.pure x) post stop :=
  fun host => ⟨[], .refl host, h⟩

theorem throw {cause : Error} (h : stop []) : Starts (throw cause : Run α) post stop :=
  fun host => ⟨[], .refl host, h⟩

theorem mono {weaker : List (List String) → α → Prop} {less : List (List String) → Prop}
    (h : Starts run post stop) (imp : ∀ started x, post started x → weaker started x)
    (imp' : ∀ started, stop started → less started) : Starts run weaker less := by
  intro host
  obtain ⟨started, ran, ends⟩ := h host
  refine ⟨started, ran, ?_⟩
  cases outcome : (run.on host).1 with
  | ok x =>
      rw [outcome] at ends
      exact imp _ _ ends
  | error e =>
      rw [outcome] at ends
      exact imp' _ ends

/-- What follows a run starts more behind what that has started. -/
theorem bind (first : Starts run mid stop)
    (rest : ∀ before x, mid before x → Starts (next x)
      (fun started => goal (before ++ started)) fun started => stop (before ++ started)) :
    Starts (run >>= next) goal stop := by
  intro host
  obtain ⟨before, ran, ends⟩ := first host
  rw [on_bind]
  cases outcome : run.on host with
  | mk result between =>
      rw [outcome] at ran ends
      cases result with
      | error e => exact ⟨before, ran, ends⟩
      | ok x =>
          obtain ⟨started, ran', ends'⟩ := rest before x ends between
          exact ⟨before ++ started, ran.trans ran', ends'⟩

theorem stopped {cause : Error} (h : stop []) :
    Starts ((MonadExcept.throw cause : Run α) >>= next) goal stop := by
  have ends : Starts (MonadExcept.throw cause : Run α) (fun _ _ => False) stop := .throw h
  exact ends.bind fun _ _ => False.elim

/-- What starts nothing itself leaves the rest to what follows. -/
theorem bind_still (first : Starts run (fun started _ => started = []) (· = [])) (empty : stop [])
    (rest : ∀ x, Starts (next x) goal stop) : Starts (run >>= next) goal stop := by
  have nothing : Starts run (fun started _ => started = []) stop :=
    first.mono (fun _ _ => id) fun started h => h ▸ empty
  refine nothing.bind fun before x h => ?_
  subst h
  exact rest x

theorem ofExcept (r : Except Error α) (empty : stop []) :
    Starts (Run.ofExcept r) (fun started x => started = [] ∧ r = .ok x) stop := by
  cases r with
  | ok x => exact .pure ⟨rfl, rfl⟩
  | error e => exact .throw empty

end Starts

/-- A run that starts nothing and leaves files and scripts alone. -/
abbrev Still (run : Run α) : Prop := Starts run (fun started _ => started = []) (· = [])

theorem Still.of_on (h : ∀ host : Host,
    (run.on host).2.listener = host.listener ∧ (run.on host).2.spawned = host.spawned ∧
      (run.on host).2.commands = host.commands ∧ (run.on host).2.files = host.files) :
    Still run := by
  intro host
  obtain ⟨listener, spawned, commands, files⟩ := h host
  refine ⟨[], .of_same listener spawned commands files, ?_⟩
  split <;> rfl

theorem Still.ofExcept (r : Except Error α) : Still (Run.ofExcept r) := by
  cases r with
  | ok x => exact Starts.pure rfl
  | error e => exact Starts.throw rfl

theorem Still.pure (x : α) : Still (Pure.pure x) := Starts.pure rfl

theorem Still.get : Still (get : Run Host) :=
  Still.of_on fun _ => ⟨rfl, rfl, rfl, rfl⟩

theorem Still.bind (first : Still run) (rest : ∀ x, Still (next x)) : Still (run >>= next) :=
  Starts.bind_still first rfl rest

theorem printLine_still (line : String) : Still (printLine line) :=
  Still.of_on fun _ => ⟨rfl, rfl, rfl, rfl⟩

theorem report_still (r : Report) : Still (report r) := by
  refine Still.of_on fun host => ?_
  rw [report, on_bind, on_get]
  dsimp only
  split
  · exact ⟨rfl, rfl, rfl, rfl⟩
  · simp [on_bind]

theorem beginCommand_still (command : String) : Still (beginCommand command) := by
  have counted : Still
      (modify fun host : Host => { host with index := host.index + 1 } : Run Unit) :=
    Still.of_on fun _ => ⟨rfl, rfl, rfl, rfl⟩
  refine counted.bind fun _ => Still.get.bind fun host => ?_
  have told : Still (do
      report (.started command host.index host.total host.clock)
      return host.index) := (report_still _).bind fun _ => .pure _
  dsimp only
  split
  · exact told
  · refine (Still.ofExcept _).bind fun place => ?_
    exact (printLine_still _).bind fun _ => told

theorem endCommand_still (command : String) (index : Nat) (started : Double) (returnCode : Int)
    (diagnostic : String) : Still (endCommand command index started returnCode diagnostic) :=
  Still.get.bind fun _ => report_still _

/-- A command that runs takes one outcome of the script and leaves its files. -/
theorem perform_on (host : Host) : ∃ clock, perform.on host =
    (.ok (host.commands.headD {}).outcome,
      { host with commands := host.commands.drop 1, clock
                  files := (host.commands.headD {}).leave host.files }) := by
  unfold perform CommandScript.leave CommandScript.outcome
  simp only [on_bind, on_get, on_set]
  cases (host.commands.headD {}).fault with
  | some fault => exact ⟨_, rfl⟩
  | none => exact ⟨_, rfl⟩

theorem start_starts (words : List String) :
    Starts (start (Value.words words)) (fun started _ => started = [words])
      fun _ => False := by
  intro host
  refine ⟨[words], ?_⟩
  rw [start, on_bind, recordSpawn, on_modify]
  dsimp only
  obtain ⟨clock, ends⟩ := perform_on { host with spawned := .ofWords words :: host.spawned }
  rw [Spawn.ofWords] at ends
  rw [ends]
  -- An exhausted script is that of a command without faults and files.
  have consumed : (host.commands.take 1).foldl CommandScript.leave host.files =
      (host.commands.headD {}).leave host.files := by
    cases host.commands <;> rfl
  exact ⟨⟨rfl, rfl, 1, le_rfl, rfl, consumed.symm⟩, rfl⟩

/-- A command is started once at most, with all its words as texts, and once if it ends. -/
theorem command_starts (arguments : List Value) :
    Starts (command arguments)
      (fun started _ => ∃ words, arguments.mapM Value.toText = .ok words ∧ started = [words])
      fun started => started = [] ∨
        ∃ words, arguments.mapM Value.toText = .ok words ∧ started = [words] := by
  refine (Starts.ofExcept (arguments.mapM Value.toText) (.inl rfl)).bind fun before words h => ?_
  obtain ⟨rfl, written⟩ := h
  refine .bind_still (beginCommand_still _) (.inl rfl) fun index => ?_
  refine .bind_still Still.get (.inl rfl) fun host => ?_
  refine ((start_starts words).mono (fun _ _ => id) fun _ => False.elim).bind
    fun before outcome h => ?_
  subst h
  have told (code : Int) (diagnostic : String) : Starts (do
      endCommand (Shell.join words) index host.clock code diagnostic
      return (code, diagnostic))
      (fun started _ => ∃ given, arguments.mapM Value.toText = .ok given ∧
        [] ++ ([words] ++ started) = [given])
      fun started => [] ++ ([words] ++ started) = [] ∨
        ∃ given, arguments.mapM Value.toText = .ok given ∧ [] ++ ([words] ++ started) = [given] := by
    refine .bind_still (endCommand_still _ _ _ _ _) (.inr ⟨words, written, rfl⟩) fun _ => ?_
    exact .pure ⟨words, written, rfl⟩
  dsimp only
  split
  · rw [pure_bind]
    exact told _ _
  · exact .stopped (.inr ⟨words, written, rfl⟩)
  · rw [pure_bind]
    exact told _ _

/-- The commands that were started are those of the invocations in front. -/
def FromFront (program : Value) (runs : List Invocation) (started : List (List String)) : Prop :=
  ∃ front, front <+: runs ∧
    List.Forall₂ (fun i words => i.words program = .ok words) front started

theorem invocation_starts (program : Value) {i : Invocation} (plain : i.shellCommand = .null) :
    Starts (invocation program i)
      (fun started _ => ∃ words, i.words program = .ok words ∧ started = [words])
      fun started => started = [] ∨ ∃ words, i.words program = .ok words ∧ started = [words] := by
  have steps : invocation program i = encoder program i.arguments i.pass := by
    rw [invocation, Runner.invocation, plain]
    rfl
  rw [steps]
  refine (command_starts (program :: i.arguments)).bind fun before ended h => ?_
  obtain ⟨words, written, rfl⟩ := h
  exact .pure ⟨words, written, rfl⟩

theorem passes_starts (program : Value) (runs : List Invocation)
    (plain : ∀ i ∈ runs, i.shellCommand = .null) :
    Starts (passes program runs) (fun started _ => FromFront program runs started)
      (FromFront program runs) := by
  induction runs with
  | nil => exact .throw ⟨[], List.prefix_rfl, .nil⟩
  | cons first rest ih =>
      rw [List.forall_mem_cons] at plain
      have one := invocation_starts program plain.1
      have none : FromFront program (first :: rest) [] := ⟨[], List.nil_prefix, .nil⟩
      have single {words : List String} (written : first.words program = .ok words) :
          FromFront program (first :: rest) [words] :=
        ⟨[first], by simp, .cons written .nil⟩
      have stopped {started : List (List String)}
          (h : started = [] ∨ ∃ words, first.words program = .ok words ∧ started = [words]) :
          FromFront program (first :: rest) started := by
        rcases h with rfl | ⟨words, written, rfl⟩
        · exact none
        · exact single written
      cases rest with
      | nil => exact one.mono (fun started _ h => stopped (.inr h)) fun started h => stopped h
      | cons second rest =>
          refine Starts.bind (one.mono (fun _ _ => id) fun started h => stopped h)
            fun before result h => ?_
          obtain ⟨words, written, rfl⟩ := h
          have further {started : List (List String)}
              (h : FromFront program (second :: rest) started) :
              FromFront program (first :: second :: rest) ([words] ++ started) := by
            obtain ⟨front, le, each⟩ := h
            exact ⟨first :: front, by simpa using le, .cons written each⟩
          split
          · exact (ih plain.2).mono (fun started _ h => further h) fun started h => further h
          · exact .pure (single written)

end Run

end Reel
