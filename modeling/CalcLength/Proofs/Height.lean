import CalcLength.Proofs.Composition

namespace CalcLength

namespace Formula

/-- How many evaluations are under way at once where the most are, each inside the one before. -/
def height : Formula → Nat
  | number _ => 1
  | negate operand => operand.height + 1
  | binary _ left right => max left.height right.height + 1

/-- The height without the steps to left operands. -/
def rightHeight : Formula → Nat
  | number _ => 1
  | negate operand => operand.rightHeight + 1
  | binary _ left right => max left.rightHeight (right.rightHeight + 1)

/-- The value, unless more than so many evaluations would be under way at once. -/
def valueWithin : Nat → Formula → Option Float
  | 0, _ => none
  | _ + 1, number x => some x
  | limit + 1, negate operand => do return -(← valueWithin limit operand)
  | limit + 1, binary op left right =>
    do return op.apply (← valueWithin limit left) (← valueWithin limit right)

/-- The height is what the evaluation takes. -/
theorem valueWithin_eq (formula : Formula) (limit : Nat) :
    formula.valueWithin limit = if formula.height ≤ limit then some formula.value else none := by
  induction formula generalizing limit with
  | number x =>
    cases limit with
    | zero => rfl
    | succ limit => simp [valueWithin, height, value]
  | negate operand ih =>
    cases limit with
    | zero => rfl
    | succ limit =>
      simp only [valueWithin, height, Nat.add_le_add_iff_right, ih]
      split
      · rfl
      · rfl
  | binary op left right ihLeft ihRight =>
    cases limit with
    | zero => rfl
    | succ limit =>
      simp only [valueWithin, height, Nat.add_le_add_iff_right, Nat.max_le, ihLeft, ihRight]
      by_cases low : left.height ≤ limit
      · by_cases low' : right.height ≤ limit
        · simp [low, low', value]
        · simp [low, low']
      · simp [low]

end Formula

namespace Phrase

variable {α : Type} {r : Rank}

/-- How many operators join the operands of a chain. -/
def chainLength {r : Rank} : Phrase α r → Nat
  | single _ => 0
  | join left _ _ _ => left.chainLength + 1
  | signed .. => 0
  | unsigned _ => 0
  | operand _ => 0
  | group _ => 0

/-- How many operators the longest chain in a phrase has. -/
def longestChain {r : Rank} : Phrase α r → Nat
  | single only => only.longestChain
  | join left _ _ right => max (max left.longestChain right.longestChain) (left.chainLength + 1)
  | signed _ _ inner => inner.longestChain
  | unsigned inner => inner.longestChain
  | operand _ => 0
  | group inner => inner.longestChain

theorem chainLength_le (p : Phrase α r) : p.chainLength ≤ p.longestChain := by
  cases p with
  | join => exact Nat.le_max_right _ _
  | _ => exact Nat.zero_le _

@[simp] theorem height_tree_join {level : Level} (left : Phrase Float (.chain level))
    (op : Operator) (accepted : level.accepts op = true) (right : Phrase Float level.operand) :
    (join left op accepted right).tree.height = max left.tree.height right.tree.height + 1 := rfl

/-- Each operator of a chain adds one to the height. -/
theorem longestChain_lt_height (p : Phrase Float r) : p.longestChain < p.tree.height := by
  induction p with
  | single only ih => exact ih
  | join left op accepted right ihLeft ihRight =>
    have own := left.chainLength_le
    rw [longestChain, height_tree_join]
    omega
  | signed op accepted inner ih =>
    show inner.longestChain <
      Formula.height (if op = .subtract then .negate inner.tree else inner.tree)
    split
    · exact Nat.lt_succ_of_lt ih
    · exact ih
  | unsigned inner ih => exact ih
  | operand => exact Nat.one_pos
  | group inner ih => exact ih

end Phrase

namespace Rank

/-- How much the operators outside of all groups add to a height: those of a sum, and
those of one of its products. -/
def joined (longest own : Nat) : Rank → Nat
  | chain .sum => longest + own
  | chain .product => own
  | _ => 0

theorem joined_succ (level : Level) (longest own : Nat) :
    (chain level).joined longest (own + 1) = (chain level).joined longest own + 1 := by
  cases level <;> rfl

/-- The first operator of a chain makes up for all that those in its operands may add. -/
theorem joined_operand_lt (level : Level) {longest own : Nat} (within : own ≤ longest)
    (more : Nat) : level.operand.joined longest own < (chain level).joined longest (more + 1) := by
  cases level with
  | sum => exact Nat.lt_of_le_of_lt within (Nat.lt_add_of_pos_right (Nat.succ_pos more))
  | product => exact Nat.succ_pos more

/-- How many steps to right operands there may be in a row outside of all groups. -/
def turns : Rank → Nat
  | chain .sum => 2
  | chain .product => 1
  | _ => 0

theorem turns_chain (level : Level) : (chain level).turns = level.operand.turns + 1 := by
  cases level <;> rfl

end Rank

namespace Phrase

variable {r : Rank}

/-- A sign adds one to the height and a group at most the lengths of two chains. -/
theorem height_tree_le (p : Phrase Float r) {longest : Nat} (chains : p.longestChain ≤ longest) :
    p.tree.height ≤ p.depth * max 1 (2 * longest) + r.joined longest p.chainLength + 1 := by
  induction p with
  | @single level only ih =>
    have low := ih chains
    have within := Nat.le_trans only.chainLength_le chains
    cases level with
    | sum => exact Nat.le_trans low (Nat.succ_le_succ (Nat.add_le_add_left within _))
    | product => exact low
  | @join level left op accepted right ihLeft ihRight =>
    obtain ⟨chains, _⟩ := Nat.max_le.mp chains
    obtain ⟨chainsLeft, chainsRight⟩ := Nat.max_le.mp chains
    have lowLeft := ihLeft chainsLeft
    have lowRight := ihRight chainsRight
    have within := Nat.le_trans right.chainLength_le chainsRight
    have makes_up := Rank.joined_operand_lt level within left.chainLength
    have deepLeft :=
      Nat.mul_le_mul_right (max 1 (2 * longest)) (Nat.le_max_left left.depth right.depth)
    have deepRight :=
      Nat.mul_le_mul_right (max 1 (2 * longest)) (Nat.le_max_right left.depth right.depth)
    show max left.tree.height right.tree.height + 1 ≤
      max left.depth right.depth * max 1 (2 * longest) +
        (Rank.chain level).joined longest (left.chainLength + 1) + 1
    rw [Rank.joined_succ] at makes_up ⊢
    omega
  | signed op accepted inner ih =>
    have low : inner.tree.height ≤ inner.depth * max 1 (2 * longest) + 1 := ih chains
    show Formula.height (if op = .subtract then .negate inner.tree else inner.tree) ≤
      (inner.depth + 1) * max 1 (2 * longest) + 1
    rw [Nat.succ_mul]
    split
    · show inner.tree.height + 1 ≤ _
      omega
    · omega
  | unsigned inner ih => exact ih chains
  | operand => exact Nat.le_add_left 1 _
  | group inner ih =>
    have low : inner.tree.height ≤ inner.depth * max 1 (2 * longest) +
        (longest + inner.chainLength) + 1 := ih chains
    have within := Nat.le_trans inner.chainLength_le chains
    show inner.tree.height ≤ (inner.depth + 1) * max 1 (2 * longest) + 1
    rw [Nat.succ_mul]
    omega

/-- Apart from the steps to left operands there are at most two for each
sign or group, and two more. -/
theorem rightHeight_tree_le (p : Phrase Float r) :
    p.tree.rightHeight ≤ 2 * p.depth + r.turns + 1 := by
  induction p with
  | @single level only ih =>
    rw [Rank.turns_chain]
    exact Nat.le_succ_of_le ih
  | @join level left op accepted right ihLeft ihRight =>
    rw [Rank.turns_chain] at ihLeft ⊢
    show max left.tree.rightHeight (right.tree.rightHeight + 1) ≤
      2 * max left.depth right.depth + (level.operand.turns + 1) + 1
    omega
  | signed op accepted inner ih =>
    have low : inner.tree.rightHeight ≤ 2 * inner.depth + 1 := ih
    show Formula.rightHeight (if op = .subtract then .negate inner.tree else inner.tree) ≤
      2 * (inner.depth + 1) + 1
    split
    · show inner.tree.rightHeight + 1 ≤ _
      omega
    · omega
  | unsigned inner ih => exact ih
  | operand => exact Nat.le_refl _
  | group inner ih =>
    have low : inner.tree.rightHeight ≤ 2 * inner.depth + 3 := ih
    show inner.tree.rightHeight ≤ 2 * (inner.depth + 1) + 1
    omega

end Phrase

namespace Formula

/-- How high a formula may be with so much nesting and no chain of more operators. -/
def heightBound (nesting operators : Nat) : Nat :=
  nesting * max 1 (2 * operators) + 2 * operators + 1

/-- The evaluation of an expression that is read goes deeper than its longest chain has operators,
but no deeper than chains of this length allow within the nesting. But for the steps to left
operands the nesting alone bounds it. -/
theorem height_of_read {cs : List Char} {formula : Formula} (reads : read cs = .ok formula) :
    (∃ s : Sentence Float, Token.scan cs = .ok s.tokens ∧ s.depth ≤ maxNesting ∧ s.tree = formula ∧
      s.longestChain < formula.height ∧
      ∀ operators, s.longestChain ≤ operators → formula.height ≤ heightBound maxNesting operators) ∧
    formula.rightHeight ≤ 2 * maxNesting + 3 ∧
    ∀ limit, formula.valueWithin limit = if formula.height ≤ limit then some formula.value
      else none := by
  unfold read at reads
  split at reads
  · rename_i tokens scanned
    obtain ⟨s, rfl, shallow, rfl⟩ := exists_sentence_of_parse reads
    have right := s.rightHeight_tree_le
    have turns : (Rank.chain .sum).turns = 2 := rfl
    refine ⟨⟨s, scanned, shallow, rfl, s.longestChain_lt_height, fun operators chains => ?_⟩,
      by omega, valueWithin_eq _⟩
    have low := s.height_tree_le chains
    have own := Nat.le_trans s.chainLength_le chains
    have deep := Nat.mul_le_mul_right (max 1 (2 * operators)) shallow
    simp only [Rank.joined] at low
    rw [heightBound]
    omega
  · cases reads

theorem height_of_read_groups :
    let cs := "-(1 + 2 * 3) / 4 - 5".toList
    ∃ formula, read cs = .ok formula ∧
      (∃ s : Sentence Float, Token.scan cs = .ok s.tokens ∧
        s.depth ≤ maxNesting ∧ s.tree = formula ∧
        s.longestChain < formula.height ∧
        ∀ operators, s.longestChain ≤ operators →
          formula.height ≤ heightBound maxNesting operators) ∧
      formula.rightHeight ≤ 2 * maxNesting + 3 ∧
      ∀ limit, formula.valueWithin limit = if formula.height ≤ limit then some formula.value
        else none := by
  intro cs
  have succeeds : (read cs).toBool = true := by decide +kernel
  match reads : read cs with
  | .ok formula => exact ⟨formula, rfl, height_of_read reads⟩
  | .error fault =>
    rw [reads] at succeeds
    cases succeeds

/-- So many operators and one operand more, all of them ones. -/
def ones : Nat → List Char
  | 0 => ['1']
  | operators + 1 => ones operators ++ ['+', '1']

def one : Phrase Float (.chain .product) :=
  @Phrase.single _ .product (.unsigned (.operand 1))

/-- The sum that they make. -/
def sumOfOnes : Nat → Sentence Float
  | 0 => @Phrase.single _ .sum one
  | operators + 1 => @Phrase.join _ .sum (sumOfOnes operators) .add rfl one

theorem scan_ones (operators : Nat) :
    Token.scan (ones operators) = .ok (sumOfOnes operators).tokens := by
  induction operators with
  | zero => decide +kernel
  | succ operators ih =>
    have delimited : Delimited ['+', '1'] := delimited_cons.mpr (.inr rfl)
    have last : Token.scan ['+', '1'] = .ok [.operator .add, .number 1] := by decide +kernel
    rw [ones, Token.scan_append ih delimited, last]
    exact congrArg Except.ok (@Phrase.tokens_join .sum (sumOfOnes operators) .add rfl one).symm

theorem depth_sumOfOnes (operators : Nat) : (sumOfOnes operators).depth = 0 := by
  induction operators with
  | zero => rfl
  | succ operators ih => exact congrArg (max · 0) ih

theorem height_sumOfOnes (operators : Nat) : (sumOfOnes operators).tree.height = operators + 1 := by
  induction operators with
  | zero => rfl
  | succ operators ih =>
    show max (sumOfOnes operators).tree.height 1 + 1 = operators + 1 + 1
    rw [ih]
    omega

theorem read_ones (operators : Nat) : read (ones operators) = .ok (sumOfOnes operators).tree := by
  have shallow : (sumOfOnes operators).depth ≤ maxNesting := by
    rw [depth_sumOfOnes]
    exact Nat.zero_le _
  rw [read, scan_ones]
  exact parse_tokens shallow

/-- Nesting is limited, the length of chains is not, so nothing bounds
how deep an evaluation goes. -/
theorem height_unbounded :
    ¬∃ bound, ∀ cs formula, read cs = .ok formula → formula.height < bound := by
  rintro ⟨bound, below⟩
  have high := below _ _ (read_ones bound)
  rw [height_sumOfOnes] at high
  omega

end Formula

end CalcLength
