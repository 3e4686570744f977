import Reel.CommandLine.Arguments
import Reel.Proofs.Yields

/-!
# What reading a command line keeps

Every option that takes effect is one of those that the program has, and its value is a text, or
the empty list that two dashes alone leave. So what each option keeps on such values holds of
whatever arguments are read.
-/
namespace Reel.CommandLine

variable {α : Type} {rules : List (OptionRule α)} {P : α → Prop}

def Given (v : Value) : Prop := v = .list [] ∨ ∃ s, v = .text s

theorem given_gluedValue (cs : List Char) : Given (gluedValue cs) := by
  unfold gluedValue
  split
  · exact .inl rfl
  · exact .inr ⟨_, rfl⟩

/-- The option keeps a property of the arguments on every value that it may be given. -/
def Effect.Keeps (P : α → Prop) : Effect α → Prop
  | .flag set => ∀ a, P a → P (set a)
  | .value set => ∀ v, Given v → ∀ a, P a → ∀ b ∈ set v a, P b
  | .help => True

/-- The rule is the program's, and its value one that can be given. -/
structure Entry (rules : List (OptionRule α)) (entry : OptionRule α × Option Value) : Prop where
  rule : entry.1 ∈ rules
  value : ∀ v ∈ entry.2, Given v

theorem rule?_mem {name : String} {rule : OptionRule α} (h : rule? rules name = some rule) :
    rule ∈ rules := List.mem_of_find?_eq_some h

/-- An option that a word is classified as is one of the program's. -/
def Word.Known (rules : List (OptionRule α)) : Word α → Prop
  | .option rule _ _ => rule ∈ rules
  | _ => True

theorem unnamed_known (cs : List Char) : (unnamed cs : Word α).Known rules := by
  unfold unnamed
  split <;> trivial

theorem classify_known {word : String} {w : Word α} (h : classify rules word = .ok w) :
    w.Known rules := by
  unfold classify at h
  split at h
  · next c rest _ =>
      dsimp only at h
      generalize splitSign ('-' :: c :: rest) = parts at h
      obtain ⟨stem, value⟩ := parts
      dsimp only at h
      cases whole : rule? rules word with
      | some rule =>
          rw [whole] at h
          exact Except.ok.inj h ▸ rule?_mem whole
      | none =>
          rw [whole] at h
          cases split : value.bind fun _ => rule? rules (String.ofList stem) with
          | some rule =>
              rw [split] at h
              obtain ⟨_, -, found⟩ := Option.bind_eq_some_iff.mp split
              exact Except.ok.inj h ▸ rule?_mem found
          | none =>
              rw [split] at h
              dsimp only at h
              split at h
              · split at h
                · next found => exact Except.ok.inj h ▸ rule?_mem found
                · exact Except.ok.inj h ▸ unnamed_known _
              · split at h
                · exact Except.ok.inj h ▸ unnamed_known _
                · next found =>
                    have mem : _ ∈ rulesFrom rules stem := found ▸ List.mem_singleton_self _
                    exact Except.ok.inj h ▸ (List.mem_filter.mp mem).1
                · cases h
  · exact Except.ok.inj h ▸ trivial

theorem classifyAll_known {words : List String} {ws : List (Word α)}
    (h : classifyAll rules words = .ok ws) : ∀ w ∈ ws, w.Known rules := by
  fun_induction classifyAll rules words generalizing ws with
  | case1 =>
      obtain rfl := Except.ok.inj h
      simp
  | case2 rest =>
      obtain rfl := Except.ok.inj h
      simp [Word.Known]
  | case3 word rest other ih =>
      obtain ⟨first, classified, h⟩ := exists_of_bind_ok h
      obtain ⟨others, rest, h⟩ := exists_of_bind_ok h
      obtain rfl := Except.ok.inj h
      exact List.forall_mem_cons.mpr ⟨classify_known classified, ih rest⟩

/-- What a word asks for is the program's, and so is the option that still looks for its value. -/
structure Cluster.Known (rules : List (OptionRule α)) (c : Cluster α) : Prop where
  taken : ∀ entry ∈ c.taken, Entry rules entry
  pending : ∀ rule ∈ c.pending, rule ∈ rules

theorem expand_known {rule : OptionRule α} (known : rule ∈ rules) {short : Bool} {cs : List Char}
    {c : Cluster α} (h : expand rules rule short cs = .ok c) : c.Known rules := by
  have flag {rule : OptionRule α} (known : rule ∈ rules) : Entry rules (rule, none) :=
    ⟨known, by simp⟩
  have valued {rule : OptionRule α} (known : rule ∈ rules) {v : Value} (given : Given v) :
      Entry rules (rule, some v) := ⟨known, by simpa using given⟩
  fun_induction expand rules rule short cs generalizing c with
  | case1 =>
      obtain rfl := Except.ok.inj h
      exact ⟨List.forall_mem_singleton.mpr (valued known (.inr ⟨_, rfl⟩)), by simp⟩
  | case2 => cases h
  | case3 =>
      obtain rfl := Except.ok.inj h
      exact ⟨List.forall_mem_singleton.mpr (valued known (given_gluedValue _)), by simp⟩
  | case4 => cases h
  | case5 => cases h
  | case6 rule short letter noValue isShort next found =>
      obtain rfl := Except.ok.inj h
      exact ⟨List.forall_mem_singleton.mpr (flag known), by simpa using rule?_mem found⟩
  | case7 rule short letter noValue isShort next found head rest ih =>
      cases expanded : expand rules next true (head :: rest) with
      | error stop =>
          rw [expanded] at h
          cases h
      | ok further =>
          rw [expanded] at h
          obtain rfl := Except.ok.inj h
          obtain ⟨taken, pending⟩ := ih (rule?_mem found) expanded
          exact ⟨List.forall_mem_cons.mpr ⟨flag known, taken⟩, pending⟩

theorem clusterOf_known {rule : OptionRule α} (known : rule ∈ rules) {short : Bool}
    {glued : Option (List Char)} {c : Cluster α} (h : clusterOf rules rule short glued = .ok c) :
    c.Known rules := by
  cases glued with
  | none =>
      obtain rfl := Except.ok.inj h
      exact ⟨by simp, by simpa using known⟩
  | some cs => exact expand_known known h

variable (keeps : ∀ rule ∈ rules, rule.effect.Keeps P)

include keeps in
theorem take_keeps {entry : OptionRule α × Option Value} (known : Entry rules entry) {a b : α}
    (holds : P a) (h : take a entry = .ok b) : P b := by
  have own := keeps _ known.rule
  unfold take at h
  split at h
  · next set effect =>
      rw [effect] at own
      exact Except.ok.inj h ▸ own a holds
  · next set value effect given =>
      rw [effect] at own
      split at h
      · next taken =>
          exact Except.ok.inj h ▸ own value (known.value value given) a holds _ taken
      · cases h
  · cases h
  · cases h

include keeps in
theorem foldlM_take_keeps {entries : List (OptionRule α × Option Value)}
    (known : ∀ entry ∈ entries, Entry rules entry) {a b : α} (holds : P a)
    (h : entries.foldlM take a = .ok b) : P b := by
  induction entries generalizing a with
  | nil => exact Except.ok.inj h ▸ holds
  | cons entry rest ih =>
      rw [List.forall_mem_cons] at known
      rw [List.foldlM_cons] at h
      obtain ⟨next, first, h⟩ := exists_of_bind_ok h
      exact ih known.2 (take_keeps keeps known.1 holds first) h

include keeps in
theorem readWords_keeps {strays : Bool} {a b : α} : ∀ {ws : List (Word α)},
    (∀ w ∈ ws, w.Known rules) → P a → readWords rules strays a ws = .ok b → P b
  | [], _, holds, h => by
      unfold readWords at h
      split at h
      · cases h
      · exact Except.ok.inj h ▸ holds
  | .operand _ :: rest, known, holds, h =>
      readWords_keeps (List.forall_mem_cons.mp known).2 holds h
  | .stray :: rest, known, holds, h =>
      readWords_keeps (List.forall_mem_cons.mp known).2 holds h
  | .option rule short glued :: rest, known, holds, h => by
      rw [List.forall_mem_cons] at known
      rw [readWords.eq_def] at h
      obtain ⟨c, clustered, h⟩ := exists_of_bind_ok h
      obtain ⟨taken, pending⟩ := clusterOf_known known.1 clustered
      split at h
      · obtain ⟨next, took, h⟩ := exists_of_bind_ok h
        exact readWords_keeps known.2 (foldlM_take_keeps keeps taken holds took) h
      · next last looks =>
          have own : last ∈ rules := pending last looks
          have asked {value : Option Value} (given : ∀ v ∈ value, Given v) :
              ∀ entry ∈ c.taken ++ [(last, value)], Entry rules entry :=
            List.forall_mem_append.mpr ⟨taken, List.forall_mem_singleton.mpr ⟨own, given⟩⟩
          split at h
          · cases rest with
            | nil => cases h
            | cons w rest =>
                cases w with
                | option => cases h
                | stray => cases h
                | operand value =>
                    obtain ⟨next, took, h⟩ := exists_of_bind_ok h
                    have given : ∀ v ∈ some (Value.text value), Given v := by
                      simp [Given]
                    rw [List.forall_mem_cons] at known
                    exact readWords_keeps known.2.2
                      (foldlM_take_keeps keeps (asked given) holds took) h
          · obtain ⟨next, took, h⟩ := exists_of_bind_ok h
            exact readWords_keeps known.2 (foldlM_take_keeps keeps (asked (by simp)) holds took) h

include keeps in
/-- What every option keeps holds of the arguments that are read, if it holds at the start. -/
theorem readArguments_keeps {a b : α} {words : List String} (holds : P a)
    (h : readArguments rules a words = .ok b) : P b := by
  obtain ⟨ws, classified, h⟩ := exists_of_bind_ok h
  exact readWords_keeps keeps (classifyAll_known classified) holds h

/-- Where the output goes is said by a value that an option can be given, or not at all. -/
def Arguments.NamesOutput (a : Arguments) : Prop := a.output = .null ∨ Given a.output

theorem rules_keep_namesOutput :
    ∀ rule ∈ CommandLine.rules, rule.effect.Keeps Arguments.NamesOutput := by
  have moves {take : Value → Arguments → Option Arguments}
      (same : ∀ v a, ∀ b ∈ take v a, b.output = a.output) :
      (Effect.value take).Keeps Arguments.NamesOutput := by
    intro v _ a holds b taken
    rw [Arguments.NamesOutput, same v a b taken]
    exact holds
  have text {names : List String} {set : Value → Arguments → Arguments}
      (same : ∀ v a, (set v a).output = a.output) :
      (textRule names set).effect.Keeps Arguments.NamesOutput :=
    moves fun v a b taken => Option.some.inj taken ▸ same v a
  have whole {names : List String} {set : Value → Arguments → Arguments}
      (same : ∀ v a, (set v a).output = a.output) :
      (wholeRule names set).effect.Keeps Arguments.NamesOutput :=
    moves fun v a b taken => by
      obtain ⟨n, -, rfl⟩ := Option.map_eq_some_iff.mp taken
      exact same n a
  have flag {names : List String} {set : Arguments → Arguments}
      (same : ∀ a, (set a).output = a.output) :
      (flagRule names set).effect.Keeps Arguments.NamesOutput := by
    intro a holds
    rw [Arguments.NamesOutput, same a]
    exact holds
  simp only [CommandLine.rules, List.forall_mem_cons]
  refine ⟨trivial, moves fun v a b taken => ?_, moves fun v a b taken => ?_, text fun _ _ => rfl,
    fun v given a _ b taken => .inr (Option.some.inj taken ▸ given),
    moves fun v a b taken => ?_, text fun _ _ => rfl, text fun _ _ => rfl, text fun _ _ => rfl,
    whole fun _ _ => rfl, flag fun _ => rfl, flag fun _ => rfl, flag fun _ => rfl,
    flag fun _ => rfl, text fun _ _ => rfl, flag fun _ => rfl, whole fun _ _ => rfl,
    text fun _ _ => rfl, text fun _ _ => rfl, text fun _ _ => rfl, text fun _ _ => rfl,
    flag fun _ => rfl, text fun _ _ => rfl, flag fun _ => rfl, flag fun _ => rfl,
    text fun _ _ => rfl, by simp⟩
  · unfold takeProject at taken
    split at taken
    · cases taken
    · exact Option.some.inj taken ▸ rfl
  · unfold takeMedia at taken
    split at taken
    · cases taken
    · exact Option.some.inj taken ▸ rfl
  · unfold takeFormat at taken
    split at taken
    · exact Option.some.inj taken ▸ rfl
    · cases taken

theorem namesOutput_of_read {words : List String} {input : Input} {a : Arguments}
    (h : Arguments.read words = .ok (input, a)) : a.NamesOutput := by
  obtain ⟨args, read, h⟩ := exists_of_bind_ok h
  have kept : args.NamesOutput := readArguments_keeps rules_keep_namesOutput (.inl rfl) read
  split at h
  · obtain rfl : args = a := congrArg Prod.snd (Except.ok.inj h)
    exact kept
  · cases h

end Reel.CommandLine
