import CppsFrontend.Proofs.Grammar.Statements

/-!
# Climbing is recursive descent

Thirteen levels could each have a production of their own: operands of the next tighter
level with operators of the level between them.  `descent` is this grammar.  Climbing
reads all levels in one loop, and is the same production: it derives the same values,
stops at the same places and reports the same.

`binaryExpression_descends` says this, and what it means for a tree: chains hold
operators of their own level and operands of tighter ones, and their operands and
operators, from left to right, are the tokens.
-/

set_option autoImplicit false

namespace CppsFrontend.Grammar

open Production

variable {nested : Nested} {allowRelational : Bool} {level : Precedence}
variable {levels tighter : List Precedence} {input : Input} {state after : State}

/-! ## Descent -/

/-- Operands and operators of the levels, loosest first, with one production for each
level.  A level without an operator is its operand. -/
def descent (nested : Nested) (allowRelational : Bool) : List Precedence → Production Expression
  | [] => basicExpression nested
  | level :: tighter => do
      let operand := descent nested allowRelational tighter
      let first ← operand
      match ← collect (chainRound allowRelational level operand) with
      | [] => return first
      | terms => return .chain level first terms

/-! ## Rounds of climbing -/

theorem chainRounds_forward {operand : Production Expression} {terms : List ChainTerm}
    (rounds : Rounds (chainRound allowRelational level operand) input state terms after) :
    remaining input after ≤ remaining input state ∧
      (terms ≠ [] → remaining input after < remaining input state) := by
  induction rounds with
  | stop run =>
      rcases chainRound_run run with ⟨-, rfl, -⟩ | ⟨value, impossible, -⟩
      · exact ⟨Nat.le_refl _, fun nonempty => absurd rfl nonempty⟩
      · cases impossible
  | last run =>
      rcases chainRound_run run with ⟨impossible, -⟩ | ⟨value, impossible, -⟩
      · cases impossible
      · cases impossible
  | more run forward rest induction =>
      have less := Nat.lt_of_le_of_lt induction.1 forward
      exact ⟨Nat.le_of_lt less, fun _ => less⟩

theorem levelRound_ends (ends : LeavesLevels input allowRelational levels state) :
    levelRound allowRelational (operandLevels nested allowRelational levels) input state =
      (some .stop, state) := by
  rw [levelRound, lexeme_bind]
  cases next : Precedence.ofOperator? (input.stream.get state.position).lexeme
      allowRelational with
  | none => rfl
  | some level =>
      cases found : (operandLevels nested allowRelational levels).lookup level with
      | none => simp only [found]; rfl
      | some operand =>
          obtain ⟨tighter, suffix, -⟩ :=
            operandLevels_lookup nested allowRelational levels level operand found
          exact absurd next (ends level (suffix.subset List.mem_cons_self))

/-- The terms of a level are read as its operands and operators, tighter levels apart. -/
theorem levelRound_at {operand : Production Expression}
    (next : Precedence.ofOperator? (input.stream.get state.position).lexeme allowRelational =
      some level)
    (found : (operandLevels nested allowRelational levels).lookup level = some operand) :
    levelRound allowRelational (operandLevels nested allowRelational levels) input state =
      (collect (chainRound allowRelational level operand) >>= fun terms =>
        pure (.more (level, terms))) input state := by
  rw [levelRound, lexeme_bind]
  simp only [next, found]

theorem operandLevels_lookup_head (nested : Nested) (allowRelational : Bool)
    (level : Precedence) (tighter : List Precedence) :
    (operandLevels nested allowRelational (level :: tighter)).lookup level =
      some (chainsOver nested allowRelational
        (operandLevels nested allowRelational tighter)) := by
  rw [operandLevels, List.lookup_cons, beq_self_eq_true]

theorem operandLevels_lookup_tail {other : Precedence} (different : other ≠ level) :
    (operandLevels nested allowRelational (level :: tighter)).lookup other =
      (operandLevels nested allowRelational tighter).lookup other := by
  rw [operandLevels, List.lookup_cons, beq_false_of_ne different]

theorem operandLevels_lookup_mem (nested : Nested) (allowRelational : Bool)
    (member : level ∈ levels) :
    ∃ operand, (operandLevels nested allowRelational levels).lookup level = some operand := by
  cases found : (operandLevels nested allowRelational levels).lookup level with
  | some operand => exact ⟨operand, rfl⟩
  | none =>
      exact absurd member (operandLevels_lookup_none nested allowRelational levels level found)

def chainsThen (allowRelational : Bool) (level : Precedence)
    (operand : Production Expression) (tighter : Production (List (Precedence × List ChainTerm))) :
    Production (List (Precedence × List ChainTerm)) := do
  let chains ← tighter
  match ← collect (chainRound allowRelational level operand) with
  | [] => return chains
  | terms => return chains ++ [(level, terms)]

theorem chainRound_ends {operand : Production Expression}
    (missing : Precedence.ofOperator? (input.stream.get state.position).lexeme
      allowRelational ≠ some level) :
    chainRound allowRelational level operand input state = (some .stop, state) := by
  rw [chainRound, current_bind]
  simp only [missing, if_false]
  rfl

section Outermost

variable {operand : Production Expression}
variable {first second : Production (List (Precedence × List ChainTerm))}

theorem chainsThen_none (run : first input state = (none, after)) :
    chainsThen allowRelational level operand first input state = (none, after) :=
  bind_of_none _ run

theorem chainsThen_some {chains : List (Precedence × List ChainTerm)}
    (run : first input state = (some chains, after)) :
    chainsThen allowRelational level operand first input state =
      chainsThen allowRelational level operand (pure chains) input after :=
  bind_of_some _ run

theorem chainsThen_of_eq {middle : State} (same : first input state = second input middle) :
    chainsThen allowRelational level operand first input state =
      chainsThen allowRelational level operand second input middle := by
  rw [chainsThen, chainsThen, bind_apply, bind_apply, same]

end Outermost

/-- Where no tighter level goes on, only the level itself can. -/
theorem climb_leaving (inner : SoundNested nested) (distinct : tighter.Nodup)
    (leaves : LeavesLevels input allowRelational tighter state)
    (earlier : List (Precedence × List ChainTerm)) :
    collectAfter (levelRound allowRelational
        (operandLevels nested allowRelational (level :: tighter))) earlier input state =
      chainsThen allowRelational level
        (chainsOver nested allowRelational (operandLevels nested allowRelational tighter))
        (pure earlier.reverse) input state := by
  rw [chainsThen, pure_step]
  by_cases next : Precedence.ofOperator? (input.stream.get state.position).lexeme
      allowRelational = some level
  · have round := levelRound_at next
      (operandLevels_lookup_head nested allowRelational level tighter)
    cases run : collect (chainRound allowRelational level (chainsOver nested
        allowRelational (operandLevels nested allowRelational tighter))) input state with
    | mk result middle =>
        cases result with
        | none =>
            rw [bind_of_none _ run] at round
            rw [collectAfter_none round, bind_of_none _ run]
        | some terms =>
            rw [bind_of_some _ run] at round
            have rounds := collect_run run
            have nonempty := chainRounds_ne_nil rounds next
            have forward := (chainRounds_forward rounds).2 nonempty
            have ends := (chainRounds_sound (chainsOver_sound inner allowRelational
              tighter distinct) rounds leaves).2
            rw [collectAfter_more round forward, collectAfter_stop (levelRound_ends ends),
              bind_of_some _ run]
            cases terms with
            | nil => exact absurd rfl nonempty
            | cons term more => rw [List.reverse_cons]; rfl
  · have ends : LeavesLevels input allowRelational (level :: tighter) state :=
      List.forall_mem_cons.mpr ⟨next, leaves⟩
    have none : collect (chainRound allowRelational level (chainsOver nested
        allowRelational (operandLevels nested allowRelational tighter))) input state =
        (some [], state) := collectAfter_stop (chainRound_ends next)
    rw [collectAfter_stop (levelRound_ends ends), bind_of_some _ none]
    rfl

/-- Where the loop over tighter levels ends, only the level itself can go on. -/
theorem climb_outermost (inner : SoundNested nested) (distinct : (level :: tighter).Nodup)
    (earlier : List (Precedence × List ChainTerm)) (state : State) :
    collectAfter (levelRound allowRelational
        (operandLevels nested allowRelational (level :: tighter))) earlier input state =
      chainsThen allowRelational level
        (chainsOver nested allowRelational (operandLevels nested allowRelational tighter))
        (collectAfter (levelRound allowRelational
          (operandLevels nested allowRelational tighter)) earlier) input state := by
  obtain ⟨apart, tighterDistinct⟩ := List.nodup_cons.mp distinct
  -- Induction on the tokens ahead: a round for a tighter level is one of both loops.
  induction left : remaining input state using Nat.strongRecOn generalizing earlier state with
  | ind left induction =>
      subst left
      by_cases inside : ∃ other ∈ tighter, Precedence.ofOperator?
          (input.stream.get state.position).lexeme allowRelational = some other
      · obtain ⟨other, member, next⟩ := inside
        obtain ⟨operand, found⟩ :=
          operandLevels_lookup_mem nested allowRelational member
        have different : other ≠ level := fun same => apart (same ▸ member)
        have outer := found
        rw [← operandLevels_lookup_tail different] at outer
        have innerRound := levelRound_at next found
        have outerRound := levelRound_at next outer
        cases run : collect (chainRound allowRelational other operand) input state with
        | mk result middle =>
            cases result with
            | none =>
                rw [bind_of_none _ run] at innerRound outerRound
                rw [collectAfter_none outerRound,
                  chainsThen_none (collectAfter_none innerRound)]
            | some terms =>
                rw [bind_of_some _ run] at innerRound outerRound
                have rounds := collect_run run
                have forward := (chainRounds_forward rounds).2 (chainRounds_ne_nil rounds next)
                rw [collectAfter_more outerRound forward,
                  chainsThen_of_eq (collectAfter_more innerRound forward)]
                exact induction _ forward ((other, terms) :: earlier) middle rfl
      · have leaves : LeavesLevels input allowRelational tighter state := by
          intro other member next
          exact inside ⟨other, member, next⟩
        rw [chainsThen_some (collectAfter_stop (levelRound_ends leaves))]
        exact climb_leaving inner tighterDistinct leaves earlier

theorem collect_levelRound_cons (inner : SoundNested nested)
    (distinct : (level :: tighter).Nodup) :
    collect (levelRound allowRelational
        (operandLevels nested allowRelational (level :: tighter))) =
      chainsThen allowRelational level
        (chainsOver nested allowRelational (operandLevels nested allowRelational tighter))
        (collect (levelRound allowRelational
          (operandLevels nested allowRelational tighter))) := by
  funext input state
  exact climb_outermost inner distinct [] state

/-! ## The loop and the descent -/

theorem bind_bind {α β γ : Type} (first : Production α) (second : α → Production β)
    (third : β → Production γ) :
    (first >>= second) >>= third = first >>= fun value => second value >>= third := by
  funext input state
  rw [bind_apply, bind_apply, bind_apply]
  cases first input state with
  | mk result middle =>
      cases result with
      | none => rfl
      | some value => rfl

theorem chainsOver_nil : chainsOver nested allowRelational [] = basicExpression nested := by
  have none : collect (levelRound allowRelational []) = pure [] := by
    funext input state
    exact collectAfter_stop (@levelRound_ends nested allowRelational [] input state nofun)
  funext input state
  rw [chainsOver, none, bind_apply]
  cases basicExpression nested input state with
  | mk result middle =>
      cases result with
      | none => rfl
      | some first => rfl

/-- A loop over levels is one over all but the loosest of them, and a loop over that one
around it. -/
theorem chainsOver_cons (inner : SoundNested nested) (distinct : (level :: tighter).Nodup) :
    chainsOver nested allowRelational (operandLevels nested allowRelational (level :: tighter)) =
      (do
        let operand :=
          chainsOver nested allowRelational (operandLevels nested allowRelational tighter)
        let first ← operand
        match ← collect (chainRound allowRelational level operand) with
        | [] => return first
        | terms => return .chain level first terms) := by
  have outer := @collect_levelRound_cons nested allowRelational level tighter inner distinct
  generalize operands : chainsOver nested allowRelational
    (operandLevels nested allowRelational tighter) = operand at outer ⊢
  calc
    _ = (basicExpression nested >>= fun first =>
          chainsThen allowRelational level operand (collect (levelRound allowRelational
            (operandLevels nested allowRelational tighter))) >>= fun chains =>
          pure (chains.foldl (fun operand chain => .chain chain.1 operand chain.2) first)) := by
      rw [chainsOver, outer]
    _ = (chainsOver nested allowRelational (operandLevels nested allowRelational tighter) >>=
          fun first => collect (chainRound allowRelational level operand) >>= fun terms =>
            match terms with
            | [] => pure first
            | terms => pure (.chain level first terms)) := by
      simp only [chainsOver, chainsThen, bind_bind, pure_step]
      congr 1
      funext first
      congr 1
      funext chains
      congr 1
      funext terms
      cases terms with
      | nil => rfl
      | cons term more =>
          rw [pure_step, List.foldl_append]
          rfl
    _ = _ := by rw [operands]

theorem chainsOver_eq_descent (inner : SoundNested nested) (distinct : levels.Nodup) :
    chainsOver nested allowRelational (operandLevels nested allowRelational levels) =
      descent nested allowRelational levels := by
  induction levels with
  | nil => exact chainsOver_nil
  | cons level tighter induction =>
      rw [chainsOver_cons inner distinct, descent,
        induction (List.nodup_cons.mp distinct).2]

/-! ## Chains in a tree -/

inductive Item where
  | operand (expression : Expression)
  | operator (token : TokenId)

mutual

def itemsOf : Expression → List Item
  | .basic signs primary terms => [.operand (.basic signs primary terms)]
  | .chain _ first terms => itemsOf first ++ itemsOfTerms terms

def itemsOfTerms : List ChainTerm → List Item
  | [] => []
  | ⟨operator, operand⟩ :: rest => .operator operator :: itemsOf operand ++ itemsOfTerms rest

end

/-- The level of the outermost chain, if there is one, is one of some levels. -/
def ChainedAt (levels : List Precedence) : Expression → Prop
  | .basic _ _ _ => True
  | .chain level _ _ => level ∈ levels

/-- Every chain has a term, the operators of its level, and operands that are basic or
chains of tighter levels. -/
inductive Leveled (stream : TokenStream) (allowRelational : Bool) : Expression → Prop where
  | basic (signs : List TokenId) (primary : Primary) (terms : List PostfixTerm) :
      Leveled stream allowRelational (.basic signs primary terms)
  | chain {level : Precedence} {first : Expression} {terms : List ChainTerm}
      (nonempty : terms ≠ [])
      (operators : ∀ term ∈ terms,
        Precedence.ofOperator? (stream.get term.operator).lexeme allowRelational = some level)
      (firstTighter : ChainedAt level.andTighter.tail first)
      (operandsTighter : ∀ term ∈ terms, ChainedAt level.andTighter.tail term.operand)
      (firstLeveled : Leveled stream allowRelational first)
      (operandsLeveled : ∀ term ∈ terms, Leveled stream allowRelational term.operand) :
      Leveled stream allowRelational (.chain level first terms)

/-- Basic expressions, each derived from its tokens, with one operator token between two
of them: all the tokens from `start` up to `stop`. -/
inductive Alternates (stream : TokenStream) (allowRelational : Bool) :
    List Item → Nat → Nat → Prop where
  | last {expression : Expression} {start stop : Nat}
      (derived : Derivable stream (.operand allowRelational [] expression) start stop) :
      Alternates stream allowRelational [.operand expression] start stop
  | more {expression : Expression} {items : List Item} {start place stop : Nat}
      (derived : Derivable stream (.operand allowRelational [] expression) start place)
      (rest : Alternates stream allowRelational items (place + 1) stop) :
      Alternates stream allowRelational (.operand expression :: .operator place :: items)
        start stop

structure Climbed (stream : TokenStream) (allowRelational : Bool) (levels : List Precedence)
    (expression : Expression) (start stop : Nat) : Prop where
  leveled : Leveled stream allowRelational expression
  chainedAt : ChainedAt levels expression
  alternates : Alternates stream allowRelational (itemsOf expression) start stop

theorem Alternates.append {stream : TokenStream} {front back : List Item}
    {start place stop : Nat} (first : Alternates stream allowRelational front start place)
    (second : Alternates stream allowRelational back (place + 1) stop) :
    Alternates stream allowRelational (front ++ .operator place :: back) start stop := by
  induction first with
  | last derived => exact .more derived second
  | more derived rest induction => exact .more derived (induction second)

theorem ChainedAt.mono {expression : Expression} (subset : tighter ⊆ levels)
    (chained : ChainedAt tighter expression) : ChainedAt levels expression := by
  cases expression with
  | basic signs primary terms => trivial
  | chain level first terms => exact subset chained

theorem andTighter_eq (suffix : level :: tighter <:+ Precedence.all) :
    level.andTighter = level :: tighter := by
  obtain ⟨looser, whole⟩ := suffix
  have distinct : (looser ++ level :: tighter).Nodup := by
    rw [whole]
    decide
  have apart : ∀ other ∈ looser, decide (other ≠ level) = true := by
    intro other member
    have different := (List.nodup_append.mp distinct).2.2 other member level List.mem_cons_self
    exact decide_eq_true different
  rw [Precedence.andTighter, ← whole, List.dropWhile_append_of_pos apart,
    List.dropWhile_cons_of_neg (by simp)]

/-- The terms of a chain are read in order, behind its first operand. -/
theorem chainRounds_climbed {operand : Production Expression}
    (climbs : ∀ {state after : State} {value : Expression},
      operand input state = (some value, after) →
        Climbed input.stream allowRelational tighter value state.position after.position)
    {terms : List ChainTerm}
    (rounds : Rounds (chainRound allowRelational level operand) input state terms after)
    {items : List Item} {start : Nat}
    (before : Alternates input.stream allowRelational items start state.position) :
    Alternates input.stream allowRelational (items ++ itemsOfTerms terms) start after.position ∧
      ∀ term ∈ terms,
        Precedence.ofOperator? (input.stream.get term.operator).lexeme allowRelational =
            some level ∧
          ChainedAt tighter term.operand ∧ Leveled input.stream allowRelational term.operand := by
  induction rounds generalizing items with
  | stop run =>
      rcases chainRound_run run with ⟨-, rfl, -⟩ | ⟨value, impossible, -⟩
      · refine ⟨?_, nofun⟩
        rw [itemsOfTerms, List.append_nil]
        exact before
      · cases impossible
  | last run =>
      rcases chainRound_run run with ⟨impossible, -⟩ | ⟨value, impossible, -⟩
      · cases impossible
      · cases impossible
  | @more state middle after term terms run forward rest induction =>
      rcases chainRound_run run with ⟨impossible, -⟩ | ⟨value, same, fits, valueRun⟩
      · cases impossible
      · cases same
        have climbed := climbs valueRun
        obtain ⟨whole, each⟩ := induction (before.append climbed.alternates)
        refine ⟨?_, List.forall_mem_cons.mpr ⟨?_, each⟩⟩
        · rw [List.append_assoc, List.cons_append] at whole
          exact whole
        · exact ⟨fits.2, climbed.chainedAt, climbed.leveled⟩

theorem descent_climbed (inner : SoundNested nested) (suffix : levels <:+ Precedence.all)
    {value : Expression}
    (run : descent nested allowRelational levels input state = (some value, after)) :
    Climbed input.stream allowRelational levels value state.position after.position := by
  induction levels generalizing state after value with
  | nil =>
      have derived := basicExpression_sound inner allowRelational run
      simp only [descent, basicExpression, restoring_run, bind_run] at run
      obtain ⟨signs, _, _, primary, _, _, terms, _, _, made⟩ := run
      obtain ⟨rfl, rfl⟩ := pure_run.mp made
      exact ⟨.basic signs primary terms, trivial, .last derived⟩
  | cons level tighter induction =>
      have tighterSuffix := (List.suffix_cons level tighter).trans suffix
      simp only [descent, bind_run] at run
      obtain ⟨first, middle, firstRun, terms, last, collected, made⟩ := run
      have climbed := induction tighterSuffix firstRun
      obtain ⟨whole, each⟩ := chainRounds_climbed (induction tighterSuffix)
        (collect_run collected) climbed.alternates
      cases terms with
      | nil =>
          obtain ⟨rfl, rfl⟩ := pure_run.mp made
          rw [itemsOfTerms, List.append_nil] at whole
          exact ⟨climbed.leveled, climbed.chainedAt.mono (List.subset_cons_self _ _), whole⟩
      | cons term more =>
          obtain ⟨rfl, rfl⟩ := pure_run.mp made
          have tail : level.andTighter.tail = tighter := by
            rw [andTighter_eq suffix, List.tail_cons]
          refine ⟨.chain (List.cons_ne_nil _ _) (fun term member => (each term member).1) ?_ ?_
            climbed.leveled (fun term member => (each term member).2.2), List.mem_cons_self, whole⟩
          · rw [tail]
            exact climbed.chainedAt
          · rw [tail]
            exact fun term member => (each term member).2.1

/-- Climbing is descent: from every state it derives the same value or fails alike, at the
same place and with the same reports.  Chains hold operators of their own level between
operands of tighter ones, and are the tokens in their order. -/
theorem binaryExpression_descends (depth : Nat) (allowRelational : Bool)
    (loosest : Precedence) :
    binaryExpression (productions depth) allowRelational loosest =
        descent (productions depth) allowRelational loosest.andTighter ∧
      ∀ input state value after,
        binaryExpression (productions depth) allowRelational loosest input state =
            (some value, after) →
          Climbed input.stream allowRelational loosest.andTighter value state.position
            after.position := by
  have inner := soundNested_productions depth
  have suffix : loosest.andTighter <:+ Precedence.all := List.dropWhile_suffix _
  have distinct : loosest.andTighter.Nodup :=
    List.Nodup.sublist suffix.sublist (by decide)
  have same := @chainsOver_eq_descent (productions depth) allowRelational _ inner distinct
  refine ⟨same, ?_⟩
  intro input state value after run
  rw [binaryExpression, same] at run
  exact descent_climbed inner suffix run

end CppsFrontend.Grammar
