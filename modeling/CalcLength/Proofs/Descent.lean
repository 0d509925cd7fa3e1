import Mathlib.Data.Nat.Find
import CalcLength.Proofs.Derivation

namespace CalcLength

open Formula

/-- Where a recursive descent stands: the tokens ahead of it, and how many groups
and signs it has gone into. -/
structure Place where
  ahead : List Token
  depth : Nat

/-- A step of a recursive descent. Where it would take more calls than it may,
it comes to nothing at all. -/
abbrev Descent (α : Type) := StateT Place (ExceptT SyntaxFault Option) α

namespace Descent

def giveUp {α : Type} : Descent α := fun _ => (none : Option (Except SyntaxFault (α × Place)))

/-- Takes off the operator ahead if it is accepted. -/
def takeOperator (accepts : Operator → Bool) : Descent (Option Operator) := fun place =>
  match place.ahead with
  | .operator op :: rest =>
    if accepts op then pure (some op, { place with ahead := rest }) else pure (none, place)
  | _ => pure (none, place)

/-- Takes off the token ahead if there is one. -/
def advance : Descent (Option Token) :=
  modifyGet fun place => (place.ahead.head?, { place with ahead := place.ahead.tail })

/-- Goes into a group or behind a sign. -/
def enter : Descent Unit := do
  modify fun place => { place with depth := place.depth + 1 }
  if maxNesting < (← get).depth then throw .nestedTooDeeply

def leave : Descent Unit :=
  modify fun place => { place with depth := place.depth - 1 }

/-- Goes on from a left operand for as long as an accepted operator follows,
for so many rounds at most. -/
def continueChain (accepts : Operator → Bool) (operand : Descent Formula) :
    Nat → Formula → Descent Formula
  | 0, _ => giveUp
  | rounds + 1, left => do
    match ← takeOperator accepts with
    | none => return left
    | some op =>
      let right ← operand
      continueChain accepts operand rounds (.binary op left right)

/-- Operands joined by accepted operators. Every round takes a token, so there
is always one round to spare. -/
def chain (accepts : Operator → Bool) (operand : Descent Formula) : Descent Formula := do
  let left ← operand
  continueChain accepts operand ((← get).ahead.length + 1) left

/-- A signed operand, or one without a sign. -/
def signed (inner unsigned : Descent Formula) : Descent Formula := do
  match ← takeOperator isTermOperator with
  | none => unsigned
  | some op =>
    enter
    let formula ← inner
    leave
    return if op = .subtract then .negate formula else formula

/-- A number, or a sum in parentheses. -/
def primary (sum : Descent Formula) : Descent Formula := do
  match ← advance with
  | some (.number x) => return .number x
  | some .opening =>
    enter
    let formula ← sum
    leave
    match ← advance with
    | some .closing => return formula
    | some _ => throw .unexpectedToken
    | none => throw .unexpectedEnd
  | some _ => throw .unexpectedToken
  | none => throw .unexpectedEnd

/-- A sum behind which nothing is left. -/
def whole (sum : Descent Formula) : Descent Formula := do
  let formula ← sum
  match ← advance with
  | some _ => throw .unexpectedToken
  | none => return formula

end Descent

/-- Reads a phrase of the rank by recursive descent, with one function for each rank. No more than
so many calls may be under way at once, so each call has one fewer to make calls of its own with. -/
def Rank.descend : Nat → Rank → Descent Formula
  | 0, _ => Descent.giveUp
  | calls + 1, chain level => Descent.chain level.accepts (descend calls level.operand)
  | calls + 1, unary => Descent.signed (descend calls unary) (descend calls primary)
  | calls + 1, primary => Descent.primary (descend calls (chain .sum))

/-- The expression that all tokens together make, if no more than so many
calls are under way at once. -/
def Formula.parseWithin (calls : Nat) (tokens : List Token) : Option (Except SyntaxFault Formula) :=
  (Descent.whole ((Rank.chain .sum).descend calls)).run' ⟨tokens, 0⟩

namespace Descent

section Apply

variable {α β : Type} {first : Descent α} {next : α → Descent β} {place place' : Place} {a : α}
    {fault : SyntaxFault}

theorem bind_of_ok (ends : first place = some (.ok (a, place'))) :
    (first >>= next) place = next a place' := by
  simp only [bind, StateT.bind, ExceptT.bind, ExceptT.mk, ends]
  rfl

theorem bind_of_error (ends : first place = some (.error fault)) :
    (first >>= next) place = some (.error fault) := by
  simp only [bind, StateT.bind, ExceptT.bind, ExceptT.mk, ends]
  rfl

theorem bind_of_none (ends : first place = none) : (first >>= next) place = none := by
  simp only [bind, StateT.bind, ExceptT.bind, ExceptT.mk, ends]
  rfl

end Apply

section Steps

variable {accepts : Operator → Bool} {depth : Nat} {tokens : List Token}

theorem takeOperator_of_accepted {op : Operator} (accepted : accepts op = true)
    (rest : List Token) :
    takeOperator accepts ⟨.operator op :: rest, depth⟩ = some (.ok (some op, ⟨rest, depth⟩)) := by
  simp only [takeOperator, accepted, if_true]
  rfl

theorem takeOperator_of_not_startsWith (stops : ¬StartsWith accepts tokens) :
    takeOperator accepts ⟨tokens, depth⟩ = some (.ok (none, ⟨tokens, depth⟩)) := by
  unfold takeOperator
  split
  · rename_i op rest here
    subst here
    rw [startsWith_operator] at stops
    rw [if_neg stops]
    rfl
  · rfl

theorem enter_of_lt (shallow : depth < maxNesting) :
    enter ⟨tokens, depth⟩ = some (.ok ((), ⟨tokens, depth + 1⟩)) := by
  have within : ¬maxNesting < depth + 1 := by omega
  rw [enter, bind_of_ok rfl, bind_of_ok rfl, if_neg within]
  rfl

theorem enter_of_eq (deep : depth = maxNesting) :
    enter ⟨tokens, depth⟩ = some (.error .nestedTooDeeply) := by
  have beyond : maxNesting < depth + 1 := by omega
  rw [enter, bind_of_ok rfl, bind_of_ok rfl, if_pos beyond]
  rfl

end Steps

/-- Whether a descent does with some tokens what a reader does, and comes back out
of all that it has gone into. -/
def Performs (descent : Descent Formula) (read : Reader) (depth : Nat)
    (tokens : List Token) : Prop :=
  descent ⟨tokens, depth⟩ = some ((read tokens).map fun (formula, rest) => (formula, ⟨rest, depth⟩))

theorem Performs.bind {β : Type} {descent : Descent Formula} {read : Reader} {depth : Nat}
    {tokens : List Token} (performs : Performs descent read depth tokens)
    (next : Formula → Descent β) : (descent >>= next) ⟨tokens, depth⟩ =
      match read tokens with
      | .ok (formula, rest) => next formula ⟨rest, depth⟩
      | .error fault => some (.error fault) := by
  rw [Performs] at performs
  cases done : read tokens with
  | ok answer =>
    rw [done] at performs
    exact bind_of_ok performs
  | error fault =>
    rw [done] at performs
    exact bind_of_error performs

/-- The rounds of a chain are enough if each operand leaves no more tokens than it finds. -/
theorem continueChain_performs {accepts : Operator → Bool} {operand : Descent Formula}
    {read : Reader} {depth : Nat} (performs : ∀ tokens, Performs operand read depth tokens)
    (leaves : ∀ tokens formula rest, read tokens = .ok (formula, rest) →
      rest.length ≤ tokens.length)
    {rounds : Nat} {bound tokens : List Token} {left : Formula} (enough : tokens.length < rounds)
    (long : tokens.length ≤ bound.length) :
    Performs (continueChain accepts operand rounds left)
      (Formula.continueChain accepts read bound left) depth tokens := by
  induction rounds generalizing bound tokens left with
  | zero => omega
  | succ rounds ih =>
    rw [Performs, continueChain]
    by_cases starts : StartsWith accepts tokens
    · obtain ⟨op, rest, rfl, accepted⟩ := starts
      rw [List.length_cons] at enough long
      obtain ⟨t, bound, rfl⟩ :=
        List.exists_cons_of_length_pos (Nat.lt_of_lt_of_le (Nat.succ_pos _) long)
      refine (bind_of_ok (takeOperator_of_accepted accepted rest)).trans
        (((performs rest).bind _).trans ?_)
      cases right : read rest with
      | error fault =>
        simp only [Formula.continueChain, accepted, if_true, right]
        rfl
      | ok answer =>
        have shorter := leaves _ _ _ right
        rw [List.length_cons] at long
        rw [Formula.continueChain_next accepted right]
        exact ih (by omega) (by omega)
    · rw [bind_of_ok (takeOperator_of_not_startsWith starts), Formula.continueChain_stop starts]
      rfl

theorem chain_performs {accepts : Operator → Bool} {operand : Descent Formula} {read : Reader}
    {depth : Nat} (performs : ∀ tokens, Performs operand read depth tokens)
    (leaves : ∀ tokens formula rest, read tokens = .ok (formula, rest) →
      rest.length ≤ tokens.length)
    (tokens : List Token) :
    Performs (chain accepts operand) (Formula.chain accepts read) depth tokens := by
  rw [Performs, chain, (performs tokens).bind, Formula.chain]
  cases read tokens with
  | error fault => rfl
  | ok answer =>
    exact (bind_of_ok rfl).trans
      (continueChain_performs performs leaves (Nat.lt_succ_self _) (Nat.le_refl _))

theorem signed_performs {inner unsigned : Descent Formula} {depth nesting : Nat}
    (total : depth + nesting = maxNesting) {tokens : List Token}
    (inner_performs : ∀ fewer rest, nesting = fewer + 1 →
      Performs inner (operand fewer) (depth + 1) rest)
    (unsigned_performs : ¬StartsWith isTermOperator tokens →
      Performs unsigned (operand nesting) depth tokens) :
    Performs (signed inner unsigned) (operand nesting) depth tokens := by
  rw [Performs, signed]
  by_cases starts : StartsWith isTermOperator tokens
  · obtain ⟨op, rest, rfl, accepted⟩ := starts
    rw [bind_of_ok (takeOperator_of_accepted accepted rest)]
    cases nesting with
    | zero =>
      have refused : operand 0 (.operator op :: rest) = .error .nestedTooDeeply := by
        cases op with
        | add => rfl
        | subtract => rfl
        | multiply => cases accepted
        | divide => cases accepted
      rw [refused]
      exact bind_of_error (enter_of_eq total)
    | succ nesting =>
      have shallow : depth < maxNesting := by omega
      refine (bind_of_ok (enter_of_lt shallow)).trans
        (((inner_performs nesting rest rfl).bind _).trans ?_)
      rw [operand_signed accepted]
      cases operand nesting rest with
      | error fault => rfl
      | ok answer => exact bind_of_ok rfl
  · rw [bind_of_ok (takeOperator_of_not_startsWith starts)]
    exact unsigned_performs starts

theorem primary_performs {inner : Descent Formula} {depth nesting : Nat}
    (total : depth + nesting = maxNesting) {tokens : List Token}
    (no_sign : ¬StartsWith isTermOperator tokens)
    (inner_performs : ∀ fewer rest, nesting = fewer + 1 →
      Performs inner (Formula.sum (operand fewer)) (depth + 1) rest) :
    Performs (primary inner) (operand nesting) depth tokens := by
  rw [Performs, primary]
  cases tokens with
  | nil =>
    rw [bind_of_ok rfl]
    cases nesting <;> rfl
  | cons token rest =>
    cases token with
    | number x =>
      rw [bind_of_ok rfl]
      cases nesting <;> rfl
    | closing =>
      rw [bind_of_ok rfl]
      cases nesting <;> rfl
    | operator op =>
      rw [bind_of_ok rfl]
      cases op with
      | add => exact absurd (startsWith_operator.mpr rfl) no_sign
      | subtract => exact absurd (startsWith_operator.mpr rfl) no_sign
      | multiply => cases nesting <;> rfl
      | divide => cases nesting <;> rfl
    | opening =>
      rw [bind_of_ok rfl]
      cases nesting with
      | zero => exact bind_of_error (enter_of_eq total)
      | succ nesting =>
        have shallow : depth < maxNesting := by omega
        refine (bind_of_ok (enter_of_lt shallow)).trans
          (((inner_performs nesting rest rfl).bind _).trans ?_)
        rw [operand, group]
        cases Formula.sum (operand nesting) rest with
        | error fault => rfl
        | ok answer =>
          obtain ⟨formula, after⟩ := answer
          refine (bind_of_ok rfl).trans ((bind_of_ok rfl).trans ?_)
          cases after with
          | nil => rfl
          | cons token after => cases token <;> rfl

end Descent

namespace Rank

/-- How many calls of a rank's function and of those that it calls may be under way at once within
the nesting: four for each group that is gone into, and no more for a sign. -/
def callsWithin (nesting : Nat) : Rank → Nat
  | chain .sum => 4 * nesting + 4
  | chain .product => 4 * nesting + 3
  | unary => 4 * nesting + 2
  | primary => 4 * nesting + 1

theorem callsWithin_chain (level : Level) (nesting : Nat) :
    (chain level).callsWithin nesting = level.operand.callsWithin nesting + 1 := by
  cases level <;> rfl

theorem callsWithin_pos (nesting : Nat) (r : Rank) : 0 < r.callsWithin nesting := by
  cases r with
  | chain level => cases level <;> exact Nat.succ_pos _
  | unary => exact Nat.succ_pos _
  | primary => exact Nat.succ_pos _

theorem Takes.length_le {nesting : Nat} {r : Rank} {read : Reader} (takes : r.Takes nesting read)
    (tokens : List Token) (formula : Formula) (rest : List Token)
    (done : read tokens = .ok (formula, rest)) : rest.length ≤ tokens.length := by
  obtain ⟨taken, rfl, _⟩ := takes _ _ _ done
  rw [List.length_append]
  exact Nat.le_add_left _ _

theorem operand_reader_takes (level : Level) (nesting : Nat) :
    level.operand.Takes nesting (level.operand.reader nesting) := by
  cases level with
  | sum => exact Level.product.chain_takes (operand_takes nesting)
  | product => exact operand_takes nesting

/-- With enough calls for what nesting is left, the function of a rank does what the
reader of the rank does. It leaves the depth as it was, which is what lets the nesting
left stand for the calls left. -/
theorem descend_performs {calls : Nat} {r : Rank} {depth nesting : Nat}
    (enough : r.callsWithin nesting ≤ calls) (total : depth + nesting = maxNesting)
    {tokens : List Token} (no_sign : r = .primary → ¬StartsWith isTermOperator tokens) :
    Descent.Performs (r.descend calls) (r.reader nesting) depth tokens := by
  induction calls generalizing r depth nesting tokens with
  | zero => exact absurd enough (Nat.not_le.mpr (callsWithin_pos nesting r))
  | succ calls ih =>
    cases r with
    | chain level =>
      rw [callsWithin_chain] at enough
      rw [Level.reader_eq]
      refine Descent.chain_performs (fun tokens => ?_)
        (operand_reader_takes level nesting).length_le tokens
      refine ih (Nat.le_of_succ_le_succ enough) total fun isPrimary => ?_
      cases level <;> cases isPrimary
    | unary =>
      refine Descent.signed_performs total (fun fewer rest same => ?_) fun unsigned => ?_
      · subst same
        -- A sign needs one call only, where a group needs four.
        have fewer_calls : unary.callsWithin fewer ≤ calls := by
          simp only [callsWithin] at enough ⊢
          omega
        exact ih fewer_calls (by omega) nofun
      · exact ih (r := .primary) (Nat.le_of_succ_le_succ enough) total fun _ => unsigned
    | primary =>
      refine Descent.primary_performs total (no_sign rfl) fun fewer rest same => ?_
      subst same
      exact ih (r := .chain .sum) (Nat.le_of_succ_le_succ enough) (by omega) nofun

end Rank

namespace Descent

variable {α β : Type}

/-- Whether what a descent answers is what another answers, which may answer more. -/
def Grows (first second : Descent α) : Prop :=
  ∀ place answer, first place = some answer → second place = some answer

namespace Grows

theorem refl (descent : Descent α) : Grows descent descent :=
  fun _ _ => id

theorem bind {first second : Descent α} {next next' : α → Descent β} (grows : Grows first second)
    (next_grows : ∀ a, Grows (next a) (next' a)) : Grows (first >>= next) (second >>= next') := by
  intro place answer done
  cases ends : first place with
  | none =>
    rw [bind_of_none ends] at done
    cases done
  | some outcome =>
    have same := grows place outcome ends
    cases outcome with
    | error fault =>
      rw [bind_of_error ends] at done
      rwa [bind_of_error same]
    | ok reached =>
      rw [bind_of_ok ends] at done
      rw [bind_of_ok same]
      exact next_grows _ _ _ done

theorem continueChain {accepts : Operator → Bool} {operand operand' : Descent Formula}
    (grows : Grows operand operand') (rounds : Nat) (left : Formula) :
    Grows (continueChain accepts operand rounds left)
      (Descent.continueChain accepts operand' rounds left) := by
  induction rounds generalizing left with
  | zero => exact refl _
  | succ rounds ih =>
    refine (refl _).bind fun next => ?_
    cases next with
    | none => exact refl _
    | some op => exact grows.bind fun right => ih _

theorem chain {accepts : Operator → Bool} {operand operand' : Descent Formula}
    (grows : Grows operand operand') :
    Grows (chain accepts operand) (Descent.chain accepts operand') :=
  grows.bind fun left => (refl _).bind fun _ => grows.continueChain _ left

theorem signed {inner inner' unsigned unsigned' : Descent Formula} (grows : Grows inner inner')
    (grows' : Grows unsigned unsigned') :
    Grows (signed inner unsigned) (Descent.signed inner' unsigned') := by
  refine (refl _).bind fun next => ?_
  cases next with
  | none => exact grows'
  | some op => exact (refl _).bind fun _ => grows.bind fun _ => refl _

theorem primary {sum sum' : Descent Formula} (grows : Grows sum sum') :
    Grows (primary sum) (Descent.primary sum') := by
  refine (refl _).bind fun next => ?_
  cases next with
  | none => exact refl _
  | some token =>
    cases token with
    | opening => exact (refl _).bind fun _ => grows.bind fun _ => refl _
    | _ => exact refl _

theorem whole {sum sum' : Descent Formula} (grows : Grows sum sum') :
    Grows (whole sum) (Descent.whole sum') :=
  grows.bind fun _ => refl _

theorem run' {first second : Descent α} (grows : Grows first second) {place : Place}
    {answer : Except SyntaxFault α} (done : first.run' place = some answer) :
    second.run' place = some answer := by
  unfold StateT.run' at done ⊢
  cases ends : first place with
  | none =>
    rw [ends] at done
    cases done
  | some outcome =>
    rw [ends] at done
    rwa [grows place outcome ends]

end Grows

end Descent

namespace Rank

/-- More calls than are needed change nothing. -/
theorem descend_grows (calls : Nat) (r : Rank) :
    Descent.Grows (r.descend calls) (r.descend (calls + 1)) := by
  induction calls generalizing r with
  | zero => exact fun _ _ => nofun
  | succ calls ih =>
    cases r with
    | chain level => exact (ih _).chain
    | unary => exact (ih _).signed (ih _)
    | primary => exact (ih _).primary

/-- A group has four calls inside of each other, and the innermost one of a
tower of groups is one too many. -/
theorem descend_openings {calls : Nat} {r : Rank} {depth nesting : Nat}
    (few : calls < r.callsWithin nesting) (total : depth + nesting = maxNesting) :
    r.descend calls ⟨List.replicate nesting .opening, depth⟩ = none := by
  induction calls generalizing r depth nesting with
  | zero => rfl
  | succ calls ih =>
    cases r with
    | chain level =>
      rw [callsWithin_chain] at few
      exact Descent.bind_of_none (ih (Nat.lt_of_succ_lt_succ few) total)
    | unary =>
      have no_sign : ¬StartsWith isTermOperator (List.replicate nesting .opening) := by
        rintro ⟨op, rest, same, _⟩
        cases nesting <;> cases same
      exact (Descent.bind_of_ok (Descent.takeOperator_of_not_startsWith no_sign)).trans
        (ih (r := .primary) (Nat.lt_of_succ_lt_succ few) total)
    | primary =>
      cases nesting with
      | zero => exact absurd (Nat.lt_of_succ_lt_succ few) (Nat.not_lt_zero _)
      | succ nesting =>
        have shallow : depth < maxNesting := by omega
        refine (Descent.bind_of_ok rfl).trans
          ((Descent.bind_of_ok (Descent.enter_of_lt shallow)).trans ?_)
        exact Descent.bind_of_none (ih (r := .chain .sum) (Nat.lt_of_succ_lt_succ few) (by omega))

end Rank

namespace Formula

theorem parseWithin_of_enough {calls : Nat} (enough : 4 * (maxNesting + 1) ≤ calls)
    (tokens : List Token) : parseWithin calls tokens = some (parse tokens) := by
  have performs : Descent.Performs ((Rank.chain .sum).descend calls)
      ((Rank.chain .sum).reader maxNesting) 0 tokens :=
    Rank.descend_performs enough (Nat.zero_add _) nofun
  rw [parseWithin, parse, StateT.run', Descent.whole, performs.bind, Rank.reader]
  cases sum (operand maxNesting) tokens with
  | error fault => rfl
  | ok answer =>
    obtain ⟨formula, rest⟩ := answer
    cases rest with
    | nil => rfl
    | cons token rest => rfl

theorem parseWithin_of_le {calls more : Nat} (le : calls ≤ more) {tokens : List Token}
    {answer : Except SyntaxFault Formula} (done : parseWithin calls tokens = some answer) :
    parseWithin more tokens = some answer := by
  induction le with
  | refl => exact done
  | step _ ih => exact (Rank.descend_grows _ _).whole.run' ih

/-- Parentheses that are opened up to the nesting allowed take all calls that there may be. -/
theorem parseWithin_openings {calls : Nat} (few : calls < 4 * (maxNesting + 1)) :
    parseWithin calls (List.replicate maxNesting .opening) = none := by
  have gives_up : (Rank.chain .sum).descend calls ⟨List.replicate maxNesting .opening, 0⟩ = none :=
    Rank.descend_openings few (Nat.zero_add _)
  rw [parseWithin, StateT.run', Descent.whole, Descent.bind_of_none gives_up]
  rfl

/-- The number of calls of the four functions that are under way at once has a bound that depends on
no tokens, be they an expression or not. Given this many calls nothing is given up, and the answer
is the parser's own. No smaller number will do. -/
theorem calls_bounded (tokens : List Token) :
    parseWithin (4 * (maxNesting + 1)) tokens = some (parse tokens) ∧
      (∃ needed ≤ 4 * (maxNesting + 1), ∀ calls,
        parseWithin calls tokens = if needed ≤ calls then some (parse tokens) else none) ∧
      ∃ deepest, ∀ calls, parseWithin calls deepest =
        if 4 * (maxNesting + 1) ≤ calls then some (parse deepest) else none := by
  have enough := parseWithin_of_enough (Nat.le_refl _) tokens
  have answered : (parseWithin (4 * (maxNesting + 1)) tokens).isSome = true := by rw [enough]; rfl
  have answers : ∃ calls, (parseWithin calls tokens).isSome = true := ⟨_, answered⟩
  have bounded : Nat.find answers ≤ 4 * (maxNesting + 1) := Nat.find_min' answers answered
  refine ⟨enough, ⟨Nat.find answers, bounded, fun calls => ?_⟩, List.replicate maxNesting .opening,
    fun calls => ?_⟩
  · split
    · rename_i le
      obtain ⟨answer, done⟩ := Option.isSome_iff_exists.mp (Nat.find_spec answers)
      have same := (parseWithin_of_le bounded done).symm.trans enough
      rw [← same]
      exact parseWithin_of_le le done
    · rename_i few
      exact Option.not_isSome_iff_eq_none.mp (Nat.find_min answers (Nat.lt_of_not_le few))
  · split
    · rename_i le
      exact parseWithin_of_enough le _
    · rename_i few
      exact parseWithin_openings (Nat.lt_of_not_le few)

example : parseWithin 8 [.opening, .number 1, .closing] = some (.ok (.number 1)) ∧
    parseWithin 7 [.opening, .number 1, .closing] = none :=
  ⟨rfl, rfl⟩

end Formula

end CalcLength
