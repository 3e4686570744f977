import Mathlib.Data.List.Infix
import Mathlib.Data.List.TakeWhile
import Reel.Proofs.CommandLine.Reading

/-!
# Two programs, one command line

Two programs with options in common can be started with the same words. An option may be cut
short, glued to others or told apart from operands only by the options there are, so the same word
need not mean the same to both. But where both read all words, each word names an option that does
the same in both, and the arguments that are read match.
-/
namespace Reel.CommandLine

variable {α β : Type} {rules : List (OptionRule α)} {others : List (OptionRule β)}

/-- Names that can be told apart: they hold no equals sign, those with one dash have one letter,
and no option has a name that begins a name of another option. -/
structure Distinct (rules : List (OptionRule α)) : Prop where
  sign : ∀ rule ∈ rules, ∀ name ∈ rule.names, '=' ∉ name.toList
  short : ∀ rule ∈ rules, ∀ name ∈ rule.names,
    name.toList.length = 2 ∨ ['-', '-'] <+: name.toList
  apart : rules.Pairwise fun rule other => ∀ name ∈ rule.names, ∀ name' ∈ other.names,
    ¬name.toList <+: name'.toList ∧ ¬name'.toList <+: name.toList

/-- A name is the beginning of no names but those of its option. -/
theorem Distinct.rulesFrom_eq (d : Distinct rules) {name : String} {rule : OptionRule α}
    (found : rule? rules name = some rule) : rulesFrom rules name.toList = [rule] := by
  have named : name ∈ rule.names := by
    simpa using List.find?_some found
  obtain ⟨before, after, split⟩ := List.append_of_mem (rule?_mem found)
  have apart := d.apart
  rw [split, List.pairwise_append, List.pairwise_cons] at apart
  obtain ⟨-, ⟨behind, -⟩, ahead⟩ := apart
  have begins (rest : List (OptionRule α))
      (other : ∀ r ∈ rest, ∀ name' ∈ r.names, ¬name.toList <+: name'.toList) :
      (rest.filter fun r => r.names.any fun name' => name.toList.isPrefixOf name'.toList) = [] := by
    refine List.filter_eq_nil_iff.mpr fun r hr cut => ?_
    obtain ⟨name', member, begins⟩ := List.any_eq_true.mp cut
    exact other r hr name' member (List.isPrefixOf_iff_prefix.mp begins)
  rw [rulesFrom, split, List.filter_append, List.filter_cons_of_pos,
    begins before fun r hr name' member =>
      (ahead r hr rule List.mem_cons_self name' member name named).2,
    begins after fun r hr name' member => (behind r hr name named name' member).1, List.nil_append]
  exact List.any_eq_true.mpr ⟨name, named, by simp⟩

/-- The text behind a letter: what follows an equals sign, or all there is. -/
def letterText : List Char → Option (List Char)
  | [] => none
  | '=' :: value => some value
  | rest => some rest

/-- The beginning of a name that a word holds behind its first dash, and the text behind it. -/
def namePart (c : Char) (rest : List Char) : List Char × Option (List Char) :=
  if c = '-' then splitSign ('-' :: c :: rest) else (['-', c], letterText rest)

theorem splitSign_of_notMem {cs : List Char} (h : '=' ∉ cs) : splitSign cs = (cs, none) := by
  have all : cs.dropWhile (· != '=') = [] := by
    refine List.dropWhile_eq_nil_iff.mpr fun c hc => ?_
    have other : c ≠ '=' := fun same => h (same ▸ hc)
    simpa using other
  rw [splitSign, all]

theorem splitSign_some {cs stem value : List Char} (h : splitSign cs = (stem, some value)) :
    cs = stem ++ '=' :: value := by
  have whole := List.takeWhile_append_dropWhile (p := (· != '=')) (l := cs)
  have first := List.head?_dropWhile_not (· != '=') cs
  unfold splitSign at h
  cases dropped : cs.dropWhile (· != '=') with
  | nil =>
      rw [dropped] at h
      cases h
  | cons c rest =>
      rw [dropped] at h first whole
      obtain ⟨rfl, rfl⟩ : cs.takeWhile (· != '=') = stem ∧ rest = value := by simpa using h
      obtain rfl : c = '=' := by simpa using first
      exact whole.symm

theorem Distinct.letter (d : Distinct rules) {name : String} {rule : OptionRule α}
    (found : rule? rules name = some rule) {dash : Char} {rest : List Char}
    (chars : name.toList = dash :: rest) (single : rest.head? ≠ some '-') : rest.length = 1 := by
  have named : name ∈ rule.names := by
    simpa using List.find?_some found
  have ends := d.short rule (rule?_mem found) name named
  rw [chars] at ends
  rcases ends with two | dashes
  · simpa using two
  · obtain ⟨-, second⟩ := List.cons_prefix_cons.mp dashes
    obtain ⟨more, rfl⟩ := second
    exact (single rfl).elim

theorem Distinct.sign_notMem (d : Distinct rules) {name : String} {rule : OptionRule α}
    (found : rule? rules name = some rule) : '=' ∉ name.toList :=
  d.sign rule (rule?_mem found) name (by simpa using List.find?_some found)

section Named

variable {word : String} {rule : OptionRule α} {c : Char} {rest stem value : List Char}

theorem Distinct.whole (d : Distinct rules) (chars : word.toList = '-' :: c :: rest)
    (found : rule? rules word = some rule) :
    rulesFrom rules (namePart c rest).1 = [rule] ∧ (namePart c rest).2 = none := by
  have named := d.rulesFrom_eq found
  rw [chars] at named
  unfold namePart
  split
  · have free := d.sign_notMem found
    rw [chars] at free
    rw [splitSign_of_notMem free]
    exact ⟨named, rfl⟩
  · next letter =>
      have one := d.letter found chars (by simpa using letter)
      obtain rfl : rest = [] := by simpa using one
      exact ⟨named, rfl⟩

theorem Distinct.assigned (d : Distinct rules)
    (parted : splitSign ('-' :: c :: rest) = (stem, some value))
    (found : rule? rules (String.ofList stem) = some rule) :
    rulesFrom rules (namePart c rest).1 = [rule] ∧ (namePart c rest).2 = some value := by
  have named := d.rulesFrom_eq found
  rw [String.toList_ofList] at named
  unfold namePart
  split
  · rw [parted]
    exact ⟨named, rfl⟩
  · next letter =>
      have chars := splitSign_some parted
      cases stem with
      | nil => simp at chars
      | cons dash name =>
          obtain ⟨rfl, behind⟩ := List.cons.inj chars
          have one : name.length = 1 := by
            refine d.letter found String.toList_ofList fun second => letter ?_
            obtain ⟨more, rfl⟩ := List.head?_eq_some_iff.mp second
            exact (List.cons.inj behind).1
          obtain ⟨c', rfl⟩ := List.length_eq_one_iff.mp one
          obtain ⟨rfl, rfl⟩ := List.cons.inj behind
          exact ⟨named, rfl⟩

theorem Distinct.attached (d : Distinct rules) (chars : word.toList = '-' :: c :: rest)
    (letter : c ≠ '-') (other : rule? rules word = none)
    (unparted : ∀ stem value, splitSign ('-' :: c :: rest) = (stem, some value) →
      rule? rules (String.ofList stem) = none)
    (found : rule? rules (String.ofList ['-', c]) = some rule) :
    rulesFrom rules (namePart c rest).1 = [rule] ∧ (namePart c rest).2 = some rest := by
  have named := d.rulesFrom_eq found
  rw [String.toList_ofList] at named
  have free := d.sign_notMem found
  rw [String.toList_ofList] at free
  rw [namePart, if_neg letter]
  refine ⟨named, ?_⟩
  unfold letterText
  split
  · rw [← chars, String.ofList_toList, other] at found
    cases found
  · next value =>
      have parted : splitSign ('-' :: c :: '=' :: value) = (['-', c], some value) := by
        have sign : c ≠ '=' := fun same => free (by simp [same])
        simp [splitSign, sign]
      rw [unparted _ _ parted] at found
      cases found
  · rfl

end Named

/-- An option is named by a word that begins the names of no other option. -/
theorem classify_option (d : Distinct rules) {word : String} {rule : OptionRule α} {short : Bool}
    {glued : Option (List Char)} (h : classify rules word = .ok (.option rule short glued)) :
    ∃ c rest, word.toList = '-' :: c :: rest ∧ rulesFrom rules (namePart c rest).1 = [rule] ∧
      short = (c != '-') ∧ (namePart c rest).2 = glued := by
  unfold classify at h
  split at h
  · next c rest chars =>
      refine ⟨c, rest, chars, ?_⟩
      dsimp only at h
      rcases parted : splitSign ('-' :: c :: rest) with ⟨stem, value⟩
      rw [parted] at h
      dsimp only at h
      cases whole : rule? rules word with
      | some found =>
          rw [whole] at h
          cases h
          obtain ⟨named, text⟩ := d.whole chars whole
          exact ⟨named, rfl, text⟩
      | none =>
          rw [whole] at h
          cases assigned : value.bind fun _ => rule? rules (String.ofList stem) with
          | some found =>
              rw [assigned] at h
              cases h
              obtain ⟨text, rfl, found⟩ := Option.bind_eq_some_iff.mp assigned
              obtain ⟨named, text⟩ := d.assigned parted found
              exact ⟨named, rfl, text⟩
          | none =>
              rw [assigned] at h
              dsimp only at h
              split at h
              · next letter =>
                  split at h
                  · next found =>
                      cases h
                      have unparted (stem' value' : List Char)
                          (parted' : splitSign ('-' :: c :: rest) = (stem', some value')) :
                          rule? rules (String.ofList stem') = none := by
                        obtain ⟨rfl, rfl⟩ := Prod.mk.inj (parted.symm.trans parted')
                        simpa using assigned
                      obtain ⟨named, text⟩ :=
                        d.attached chars (by simpa using letter) whole unparted found
                      exact ⟨named, letter.symm, text⟩
                  · unfold unnamed at h
                    split at h <;> cases h
              · next letter =>
                  obtain rfl : c = '-' := by simpa using letter
                  split at h
                  · unfold unnamed at h
                    split at h <;> cases h
                  · next found =>
                      cases h
                      rw [namePart, if_pos rfl, parted]
                      exact ⟨found, rfl, rfl⟩
                  · cases h
  · cases h

theorem classify_operand {word text : String}
    (h : classify rules word = .ok (.operand text)) : text = word := by
  have plain {cs : List Char} (chars : word.toList = cs)
      (h : (.ok (unnamed cs) : Except Stop (Word α)) = .ok (.operand text)) : text = word := by
    unfold unnamed at h
    split at h
    · cases h
      rw [← chars, String.ofList_toList]
    · cases h
  unfold classify at h
  split at h
  · next c rest chars =>
      dsimp only at h
      split at h
      · cases h
      · cases h
      · split at h
        · split at h
          · cases h
          · exact plain chars h
        · split at h
          · exact plain chars h
          · cases h
          · cases h
  · cases h
    rfl

variable {rel : α → β → Prop}

/-- What one option does to arguments matches what the other does to matching arguments. -/
def Effect.Same (rel : α → β → Prop) : Effect α → Effect β → Prop
  | .flag set, .flag set' => ∀ a b, rel a b → rel (set a) (set' b)
  | .value set, .value set' => ∀ v a b, rel a b → ∀ a' ∈ set v a, ∀ b' ∈ set' v b, rel a' b'
  | .help, .help => True
  | _, _ => False

/-- Two programs that share options: if a text begins names of just one option in either, these
do the same. -/
structure Shares (rel : α → β → Prop) (rules : List (OptionRule α))
    (others : List (OptionRule β)) : Prop where
  names : Distinct rules
  otherNames : Distinct others
  same : ∀ stem rule other, rulesFrom rules stem = [rule] → rulesFrom others stem = [other] →
    rule.effect.Same rel other.effect

/-- Two options that do the same, with the same value. -/
def SameEntry (rel : α → β → Prop) (entry : OptionRule α × Option Value)
    (other : OptionRule β × Option Value) : Prop :=
  entry.1.effect.Same rel other.1.effect ∧ entry.2 = other.2

structure Cluster.Same (rel : α → β → Prop) (c : Cluster α) (other : Cluster β) : Prop where
  taken : List.Forall₂ (SameEntry rel) c.taken other.taken
  pending : Option.Rel (fun rule other => rule.effect.Same rel other.effect)
    c.pending other.pending

/-- Two words that are the same operand, or options that do the same and are written alike, or
of which only one is an option. -/
def Word.Same (rel : α → β → Prop) : Word α → Word β → Prop
  | .operand text, .operand other => text = other
  | .option rule short glued, .option other short' glued' =>
    rule.effect.Same rel other.effect ∧ short = short' ∧ glued = glued'
  | _, _ => True

theorem OptionRule.takesValue_eq {rule : OptionRule α} {other : OptionRule β}
    (same : rule.effect.Same rel other.effect) : rule.takesValue = other.takesValue := by
  unfold takesValue
  revert same
  cases rule.effect with
  | flag set => cases other.effect <;> simp [Effect.Same]
  | value set => cases other.effect <;> simp [Effect.Same]
  | help => cases other.effect <;> simp [Effect.Same]

namespace Shares

theorem rule?_same (s : Shares rel rules others) {name : String} {rule : OptionRule α}
    {other : OptionRule β} (found : rule? rules name = some rule)
    (found' : rule? others name = some other) : rule.effect.Same rel other.effect :=
  s.same _ _ _ (s.names.rulesFrom_eq found) (s.otherNames.rulesFrom_eq found')

theorem classify_same (s : Shares rel rules others) {word : String} {w : Word α} {w' : Word β}
    (h : classify rules word = .ok w) (h' : classify others word = .ok w') : w.Same rel w' := by
  cases w with
  | operand text =>
      cases w' with
      | operand text' => exact (classify_operand h).trans (classify_operand h').symm
      | option => trivial
      | stray => trivial
  | stray => trivial
  | option rule short glued =>
      cases w' with
      | operand => trivial
      | stray => trivial
      | option rule' short' glued' =>
          obtain ⟨c, rest, chars, named, letter, text⟩ := classify_option s.names h
          obtain ⟨c', rest', chars', named', letter', text'⟩ := classify_option s.otherNames h'
          obtain ⟨rfl, rfl⟩ : c = c' ∧ rest = rest' := by simpa using chars.symm.trans chars'
          exact ⟨s.same _ _ _ named named', letter.trans letter'.symm, text.symm.trans text'⟩

theorem classifyAll_same (s : Shares rel rules others) {words : List String} {ws : List (Word α)}
    {ws' : List (Word β)} (h : classifyAll rules words = .ok ws)
    (h' : classifyAll others words = .ok ws') : List.Forall₂ (Word.Same rel) ws ws' := by
  fun_induction classifyAll rules words generalizing ws ws' with
  | case1 =>
      obtain rfl := Except.ok.inj h
      obtain rfl := Except.ok.inj h'
      exact .nil
  | case2 rest =>
      obtain rfl := Except.ok.inj h
      obtain rfl := Except.ok.inj h'
      refine .cons trivial ?_
      rw [List.forall₂_map_left_iff, List.forall₂_map_right_iff]
      exact List.forall₂_same.mpr fun text _ => rfl
  | case3 word rest other ih =>
      rw [classifyAll.eq_3 others word rest other] at h'
      obtain ⟨first, classified, h⟩ := exists_of_bind_ok h
      obtain ⟨behind, rest, h⟩ := exists_of_bind_ok h
      obtain ⟨first', classified', h'⟩ := exists_of_bind_ok h'
      obtain ⟨behind', rest', h'⟩ := exists_of_bind_ok h'
      obtain rfl := Except.ok.inj h
      obtain rfl := Except.ok.inj h'
      exact .cons (s.classify_same classified classified') (ih rest rest')

theorem expand_same (s : Shares rel rules others) {rule : OptionRule α} {other : OptionRule β}
    (same : rule.effect.Same rel other.effect) {short : Bool} {cs : List Char} {c : Cluster α}
    {c' : Cluster β} (h : expand rules rule short cs = .ok c)
    (h' : expand others other short cs = .ok c') : c.Same rel c' := by
  have valued {rule : OptionRule α} {other : OptionRule β}
      (same : rule.effect.Same rel other.effect) (v : Value) :
      Cluster.Same rel { taken := [(rule, some v)] } { taken := [(other, some v)] } :=
    ⟨.cons ⟨same, rfl⟩ .nil, .none⟩
  fun_induction expand rules rule short cs generalizing other c c' with
  | case1 rule short asks =>
      rw [expand, if_pos (OptionRule.takesValue_eq same ▸ asks)] at h'
      obtain rfl := Except.ok.inj h
      obtain rfl := Except.ok.inj h'
      exact valued same _
  | case2 => cases h
  | case3 rule short letter rest asks =>
      rw [expand, if_pos (OptionRule.takesValue_eq same ▸ asks)] at h'
      obtain rfl := Except.ok.inj h
      obtain rfl := Except.ok.inj h'
      exact valued same _
  | case4 => cases h
  | case5 => cases h
  | case6 rule short letter asks isShort next found =>
      rw [expand, if_neg (OptionRule.takesValue_eq same ▸ asks), if_neg isShort] at h'
      cases found' : rule? others (String.ofList ['-', letter]) with
      | none =>
          rw [found'] at h'
          cases h'
      | some next' =>
          rw [found'] at h'
          obtain rfl := Except.ok.inj h
          obtain rfl := Except.ok.inj h'
          exact ⟨.cons ⟨same, rfl⟩ .nil, .some (s.rule?_same found found')⟩
  | case7 rule short letter asks isShort next found head rest ih =>
      rw [expand, if_neg (OptionRule.takesValue_eq same ▸ asks), if_neg isShort] at h'
      cases found' : rule? others (String.ofList ['-', letter]) with
      | none =>
          rw [found'] at h'
          cases h'
      | some next' =>
          rw [found'] at h'
          obtain ⟨further, expanded, rfl⟩ := exists_of_map_ok h
          obtain ⟨further', expanded', rfl⟩ := exists_of_map_ok h'
          have behind := s.rule?_same found found'
          obtain ⟨taken, pending⟩ := ih behind expanded expanded'
          exact ⟨.cons ⟨same, rfl⟩ taken, pending⟩

theorem clusterOf_same (s : Shares rel rules others) {rule : OptionRule α}
    {other : OptionRule β} (same : rule.effect.Same rel other.effect) {short : Bool}
    {glued : Option (List Char)} {c : Cluster α} {c' : Cluster β}
    (h : clusterOf rules rule short glued = .ok c)
    (h' : clusterOf others other short glued = .ok c') : c.Same rel c' := by
  cases glued with
  | none =>
      obtain rfl := Except.ok.inj h
      obtain rfl := Except.ok.inj h'
      exact ⟨.nil, .some same⟩
  | some cs => exact s.expand_same same h h'

end Shares

theorem take_same {entry : OptionRule α × Option Value} {other : OptionRule β × Option Value}
    (same : SameEntry rel entry other) {a a' : α} {b b' : β} (matched : rel a b)
    (h : take a entry = .ok a') (h' : take b other = .ok b') : rel a' b' := by
  obtain ⟨rule, value⟩ := entry
  obtain ⟨rule', value'⟩ := other
  obtain ⟨same, rfl⟩ : rule.effect.Same rel rule'.effect ∧ value = value' := same
  unfold take at h h'
  dsimp only at h h'
  cases effect : rule.effect with
  | flag set =>
      cases effect' : rule'.effect with
      | flag set' =>
          rw [effect, effect'] at same
          rw [effect] at h
          rw [effect'] at h'
          exact Except.ok.inj h ▸ Except.ok.inj h' ▸ same a b matched
      | value => simp [effect, effect', Effect.Same] at same
      | help => simp [effect, effect', Effect.Same] at same
  | value set =>
      cases effect' : rule'.effect with
      | flag => simp [effect, effect', Effect.Same] at same
      | help => simp [effect, effect', Effect.Same] at same
      | value set' =>
          rw [effect, effect'] at same
          rw [effect] at h
          rw [effect'] at h'
          cases value with
          | none => cases h
          | some v =>
              dsimp only at h h'
              cases taken : set v a with
              | none =>
                  rw [taken] at h
                  cases h
              | some left =>
                  cases taken' : set' v b with
                  | none =>
                      rw [taken'] at h'
                      cases h'
                  | some left' =>
                      rw [taken] at h
                      rw [taken'] at h'
                      exact Except.ok.inj h ▸ Except.ok.inj h' ▸
                        same v a b matched left taken left' taken'
  | help =>
      rw [effect] at h
      cases h

theorem foldlM_take_same {entries : List (OptionRule α × Option Value)}
    {others : List (OptionRule β × Option Value)}
    (same : List.Forall₂ (SameEntry rel) entries others) {a a' : α} {b b' : β}
    (matched : rel a b) (h : entries.foldlM take a = .ok a')
    (h' : others.foldlM take b = .ok b') : rel a' b' := by
  induction same generalizing a b with
  | nil => exact Except.ok.inj h ▸ Except.ok.inj h' ▸ matched
  | cons first _ ih =>
      rw [List.foldlM_cons] at h h'
      obtain ⟨next, took, h⟩ := exists_of_bind_ok h
      obtain ⟨next', took', h'⟩ := exists_of_bind_ok h'
      exact ih (take_same first matched took took') h h'

theorem readWords_strays (a b : α) : ∀ ws : List (Word α), readWords rules true a ws ≠ .ok b
  | [], h => by cases h
  | .operand _ :: rest, h => readWords_strays a b rest h
  | .stray :: rest, h => readWords_strays a b rest h
  | .option rule short glued :: rest, h => by
      rw [readWords.eq_def] at h
      obtain ⟨c, -, h⟩ := exists_of_bind_ok h
      split at h
      · obtain ⟨next, -, h⟩ := exists_of_bind_ok h
        exact readWords_strays next b rest h
      · split at h
        · cases rest with
          | nil => cases h
          | cons w rest =>
              cases w with
              | option => cases h
              | stray => cases h
              | operand value =>
                  obtain ⟨next, -, h⟩ := exists_of_bind_ok h
                  exact readWords_strays next b rest h
        · obtain ⟨next, -, h⟩ := exists_of_bind_ok h
          exact readWords_strays next b rest h

/-- Words that are the same are read into arguments that match, if both read them. -/
theorem readWords_same (s : Shares rel rules others) {a a' : α} {b b' : β} :
    ∀ {ws : List (Word α)} {ws' : List (Word β)}, List.Forall₂ (Word.Same rel) ws ws' →
      rel a b → readWords rules false a ws = .ok a' → readWords others false b ws' = .ok b' →
        rel a' b'
  | [], [], _, matched, h, h' => Except.ok.inj h ▸ Except.ok.inj h' ▸ matched
  -- a word in front that is no option stops its program, whatever it is to the other
  | .operand _ :: rest, _, _, _, h, _ => (readWords_strays a a' rest h).elim
  | .stray :: rest, _, _, _, h, _ => (readWords_strays a a' rest h).elim
  | _, .operand _ :: rest, _, _, _, h' => (readWords_strays b b' rest h').elim
  | _, .stray :: rest, _, _, _, h' => (readWords_strays b b' rest h').elim
  | .option rule short glued :: rest, .option rule' short' glued' :: rest', same, matched,
    h, h' => by
      obtain ⟨⟨one, rfl, rfl⟩, rests⟩ := List.forall₂_cons.mp same
      rw [readWords.eq_def] at h h'
      obtain ⟨c, clustered, h⟩ := exists_of_bind_ok h
      obtain ⟨c', clustered', h'⟩ := exists_of_bind_ok h'
      obtain ⟨taken, pending⟩ := s.clusterOf_same one clustered clustered'
      generalize c.pending = looks, c'.pending = looks' at pending h h'
      cases pending with
      | none =>
          obtain ⟨next, took, h⟩ := exists_of_bind_ok h
          obtain ⟨next', took', h'⟩ := exists_of_bind_ok h'
          exact readWords_same s rests (foldlM_take_same taken matched took took') h h'
      | @some last last' behind =>
          have takes := OptionRule.takesValue_eq behind
          have asked (value : Option Value) : List.Forall₂ (SameEntry rel)
              (c.taken ++ [(last, value)]) (c'.taken ++ [(last', value)]) :=
            List.rel_append taken (.cons ⟨behind, rfl⟩ .nil)
          dsimp only at h h'
          rw [← takes] at h'
          split at h
          · next asks =>
              rw [if_pos asks] at h'
              cases rests with
              | nil => cases h
              | @cons w w' _ _ first rests =>
                  -- what only one of them takes for a value is a mistake to the other
                  cases w with
                  | option => cases h
                  | stray => cases h
                  | operand text =>
                      cases w' with
                      | option => cases h'
                      | stray => cases h'
                      | operand text' =>
                          obtain rfl : text = text' := first
                          obtain ⟨next, took, h⟩ := exists_of_bind_ok h
                          obtain ⟨next', took', h'⟩ := exists_of_bind_ok h'
                          exact readWords_same s rests
                            (foldlM_take_same (asked _) matched took took') h h'
          · next asks =>
              rw [if_neg asks] at h'
              obtain ⟨next, took, h⟩ := exists_of_bind_ok h
              obtain ⟨next', took', h'⟩ := exists_of_bind_ok h'
              exact readWords_same s rests (foldlM_take_same (asked _) matched took took') h h'

/-- Words that two programs with shared options both read mean the same to them. -/
theorem readArguments_same (s : Shares rel rules others) {a a' : α} {b b' : β}
    {words : List String} (matched : rel a b) (h : readArguments rules a words = .ok a')
    (h' : readArguments others b words = .ok b') : rel a' b' := by
  obtain ⟨ws, classified, h⟩ := exists_of_bind_ok h
  obtain ⟨ws', classified', h'⟩ := exists_of_bind_ok h'
  exact readWords_same s (s.classifyAll_same classified classified') matched h h'

theorem rules_distinct : Distinct CommandLine.rules where
  sign := by decide +kernel
  short := by decide +kernel
  apart := by decide +kernel

theorem dashboardRules_distinct : Distinct dashboardRules where
  sign := by decide +kernel
  short := by decide +kernel
  apart := by decide +kernel

/-- The arguments that ask the renderer for what the dashboard is asked for. -/
def DashboardArguments.forRenderer (b : DashboardArguments) : Arguments where
  input := some (.project b.project)
  output := b.output
  root := b.root
  settings := b.settings
  dryRun := b.dryRun
  bitrate := b.bitrate
  fast := b.fast

/-- The renderer is asked for what the dashboard is asked for, perhaps not yet for a project. -/
def Matched (a : Arguments) (b : DashboardArguments) : Prop :=
  b.debug = false ∧ ∃ input, a = { b.forRenderer with input } ∧
    (input = none ∨ input = some (.project b.project))

/-- The option of the journal is the dashboard's own: a text that names it, in full or cut short,
names no option of the renderer. -/
theorem debug_private {stem : List Char} {rule : OptionRule Arguments}
    {other : OptionRule DashboardArguments} (debug : other.names = ["-d", "--debug"])
    (named : rulesFrom CommandLine.rules stem = [rule])
    (named' : rulesFrom dashboardRules stem = [other]) : False := by
  have each : ∀ stem ∈ "-d".toList.inits ++ "--debug".toList.inits,
      (rulesFrom CommandLine.rules stem).length ≠ 1 ∨
        (rulesFrom dashboardRules stem).length ≠ 1 := by
    decide +kernel
  have cut : stem <+: "-d".toList ∨ stem <+: "--debug".toList := by
    have mem : other ∈ rulesFrom dashboardRules stem := named' ▸ List.mem_singleton_self other
    simpa [debug] using (List.mem_filter.mp mem).2
  have mem : stem ∈ "-d".toList.inits ++ "--debug".toList.inits := by
    simpa only [List.mem_append, List.mem_inits] using cut
  rcases each stem mem with several | several
  · exact several (by rw [named]; rfl)
  · exact several (by rw [named']; rfl)

/-- What is set in both, and is neither the project nor the journal, stays matched. -/
theorem Matched.set {a : Arguments} {b : DashboardArguments} (matched : Matched a b)
    (f : Arguments → Arguments) (g : DashboardArguments → DashboardArguments)
    (debug : (g b).debug = b.debug) (project : (g b).project = b.project)
    (same : ∀ input, f { b.forRenderer with input } = { (g b).forRenderer with input }) :
    Matched (f a) (g b) := by
  obtain ⟨plain, input, rfl, asked⟩ := matched
  exact ⟨debug.trans plain, input, same input, project ▸ asked⟩

theorem takeProject_matched {a : Arguments} {b : DashboardArguments} (matched : Matched a b)
    {path : Value} {a' : Arguments} (taken : takeProject path a = some a') :
    Matched a' { b with project := path } := by
  obtain ⟨plain, input, rfl, asked⟩ := matched
  rcases asked with rfl | rfl
  · obtain rfl := Option.some.inj taken
    exact ⟨plain, _, rfl, .inr rfl⟩
  · obtain rfl := Option.some.inj taken
    exact ⟨plain, _, rfl, .inr rfl⟩

/-- Each option of the dashboard is one of the renderer, but for the journal. -/
theorem dashboardRules_counterpart : ∀ other ∈ dashboardRules, other.names = ["-d", "--debug"] ∨
    ∃ rule ∈ CommandLine.rules, rule.names = other.names ∧
      rule.effect.Same Matched other.effect := by
  have text {names : List String} {set : Value → Arguments → Arguments}
      {set' : Value → DashboardArguments → DashboardArguments}
      (debug : ∀ v b, (set' v b).debug = b.debug) (project : ∀ v b, (set' v b).project = b.project)
      (same : ∀ v b input, set v { b.forRenderer with input } =
        { (set' v b).forRenderer with input }) :
      (textRule names set).effect.Same Matched (textRule names set').effect := by
    intro v a b matched a' taken b' taken'
    obtain rfl := Option.some.inj taken
    obtain rfl := Option.some.inj taken'
    exact matched.set (set v) (set' v) (debug v b) (project v b) (same v b)
  have flag {names : List String} {set : Arguments → Arguments}
      {set' : DashboardArguments → DashboardArguments} (debug : ∀ b, (set' b).debug = b.debug)
      (project : ∀ b, (set' b).project = b.project)
      (same : ∀ b input, set { b.forRenderer with input } = { (set' b).forRenderer with input }) :
      (flagRule names set).effect.Same Matched (flagRule names set').effect :=
    fun a b matched => matched.set set set' (debug b) (project b) (same b)
  simp only [dashboardRules, List.forall_mem_cons]
  refine ⟨.inr ⟨_, List.mem_of_getElem? (i := 0) rfl, rfl, trivial⟩,
    .inr ⟨_, List.mem_of_getElem? (i := 1) rfl, rfl, ?_⟩,
    .inr ⟨_, List.mem_of_getElem? (i := 4) rfl, rfl, text ?_ ?_ ?_⟩,
    .inr ⟨_, List.mem_of_getElem? (i := 6) rfl, rfl, text ?_ ?_ ?_⟩,
    .inr ⟨_, List.mem_of_getElem? (i := 7) rfl, rfl, text ?_ ?_ ?_⟩,
    .inr ⟨_, List.mem_of_getElem? (i := 10) rfl, rfl, flag ?_ ?_ ?_⟩,
    .inr ⟨_, List.mem_of_getElem? (i := 14) rfl, rfl, text ?_ ?_ ?_⟩,
    .inr ⟨_, List.mem_of_getElem? (i := 15) rfl, rfl, flag ?_ ?_ ?_⟩, .inl rfl, by simp⟩
  · intro path a b matched a' taken b' taken'
    obtain rfl := Option.some.inj taken'
    exact takeProject_matched matched taken
  -- the other options set the same field in both, which is read off each update
  all_goals
    intros
    rfl

theorem shares : Shares Matched CommandLine.rules dashboardRules where
  names := rules_distinct
  otherNames := dashboardRules_distinct
  same stem rule other named named' := by
    have mem : other ∈ rulesFrom dashboardRules stem := named' ▸ List.mem_singleton_self other
    obtain ⟨known, cut⟩ := List.mem_filter.mp mem
    rcases dashboardRules_counterpart other known with debug | ⟨counterpart, known, names, same⟩
    · exact (debug_private debug named named').elim
    · have own : counterpart ∈ rulesFrom CommandLine.rules stem :=
        List.mem_filter.mpr ⟨known, names ▸ cut⟩
      rw [named] at own
      exact List.mem_singleton.mp own ▸ same

/-- What the renderer and the dashboard both read is a project, and the same. -/
theorem read_alike {words : List String} {input : Input} {a : Arguments} {b : DashboardArguments}
    (read : Arguments.read words = .ok (input, a)) (read' : DashboardArguments.read words = .ok b) :
    input = .project b.project ∧ a = b.forRenderer ∧ b.debug = false := by
  obtain ⟨args, read, h⟩ := exists_of_bind_ok read
  obtain ⟨args', read', h'⟩ := exists_of_bind_ok read'
  have start : Matched {} {} := ⟨rfl, none, rfl, .inl rfl⟩
  obtain ⟨debug, given, same, asked⟩ := readArguments_same shares start read read'
  split at h'
  · cases h'
  · obtain rfl := Except.ok.inj h'
    rcases asked with rfl | rfl
    · rw [same] at h
      cases h
    · rw [same] at h
      obtain ⟨rfl, rfl⟩ := Prod.mk.inj (Except.ok.inj h)
      exact ⟨rfl, rfl, debug⟩

end Reel.CommandLine
