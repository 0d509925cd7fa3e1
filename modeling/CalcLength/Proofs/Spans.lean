import CalcLength.Proofs.Precedence

namespace CalcLength

/-- Where a length may stand in a text, with its number and its suffix. -/
structure Span where
  start : Nat
  number : List Char
  suffix : Suffix
deriving DecidableEq

namespace Span

def text (span : Span) : List Char :=
  span.number ++ span.suffix.letters

def stop (span : Span) : Nat :=
  span.start + span.text.length

/-- Whether a text has this length there, whatever is around it. -/
structure Occurs (cs : List Char) (span : Span) : Prop where
  isNumber : IsNumber span.number
  here : span.text <+: cs.drop span.start

/-- Lengths that occur in a text one behind the other. Each is the first from where the one before
it stops, and from where the last one stops there is no other. -/
inductive LeftToRight (cs : List Char) : Nat → List Span → Prop
  | done {position : Nat} (none : ∀ span, Occurs cs span → span.start < position) :
      LeftToRight cs position []
  | next {position : Nat} {first : Span} {rest : List Span} (occurs : Occurs cs first)
      (le : position ≤ first.start)
      (leftmost : ∀ span, Occurs cs span → position ≤ span.start → first.start ≤ span.start)
      (goes_on : LeftToRight cs first.stop rest) : LeftToRight cs position (first :: rest)

/-- The text from a position on, with each of these lengths replaced. -/
def replaceAll (cs : List Char)
    (written : List Char → Suffix → List Char) : Nat → List Span → List Char
  | position, [] => cs.drop position
  | position, span :: rest => (cs.drop position).take (span.start - position) ++
      (written span.number span.suffix ++ replaceAll cs written span.stop rest)

namespace Occurs

variable {cs : List Char} {a b : Span}

theorem exists_scan? (occurs : Occurs cs a) :
    ∃ rest, Piece.scan? (cs.drop a.start) = some (a.number, a.suffix, rest) := by
  obtain ⟨rest, here⟩ := occurs.here
  rw [text, List.append_assoc] at here
  exact ⟨rest, here ▸ Piece.scan?_append occurs.isNumber a.suffix rest⟩

/-- From one place there is one length at most. -/
theorem unique (occurs : Occurs cs a) (occurs' : Occurs cs b) (same : a.start = b.start) :
    a = b := by
  obtain ⟨rest, found⟩ := occurs.exists_scan?
  obtain ⟨rest', found'⟩ := occurs'.exists_scan?
  rw [same, found'] at found
  cases a
  cases b
  cases same
  cases found
  rfl

theorem start_lt (occurs : Occurs cs a) : a.start < cs.length := by
  have long := occurs.here.length_le
  have some_number := List.length_pos_iff.mpr occurs.isNumber.numberShape.ne_nil
  rw [text, List.length_append, List.length_drop] at long
  omega

end Occurs

namespace LeftToRight

variable {cs : List Char} {position : Nat} {spans spans' : List Span}

theorem unique (walk : LeftToRight cs position spans) (walk' : LeftToRight cs position spans') :
    spans = spans' := by
  induction walk generalizing spans' with
  | done none =>
    cases walk' with
    | done => rfl
    | next occurs le => exact absurd (none _ occurs) (Nat.not_lt.mpr le)
  | next occurs le leftmost _ ih =>
    cases walk' with
    | done none => exact absurd (none _ occurs) (Nat.not_lt.mpr le)
    | next occurs' le' leftmost' goes_on' =>
      have same := Nat.le_antisymm (leftmost _ occurs' le') (leftmost' _ occurs le)
      obtain rfl := occurs.unique occurs' same
      rw [ih goes_on']

/-- Where no length begins the search goes on with the next character. -/
theorem skip (nothing : ∀ span, Occurs cs span → span.start ≠ position)
    (walk : LeftToRight cs (position + 1) spans) : LeftToRight cs position spans := by
  have behind {span : Span} (occurs : Occurs cs span) (le : position ≤ span.start) :
      position + 1 ≤ span.start :=
    Nat.lt_of_le_of_ne le (nothing span occurs).symm
  cases walk with
  | done none =>
    exact .done fun span occurs => Nat.lt_of_not_le fun le =>
      Nat.not_lt.mpr (behind occurs le) (none span occurs)
  | next occurs le leftmost goes_on =>
    exact .next occurs (Nat.le_of_succ_le le)
      (fun span occurs le => leftmost span occurs (behind occurs le)) goes_on

end LeftToRight

end Span

namespace Piece

/-- Where the lengths of a text in pieces stand, if the first piece stands at the position. -/
def spans : Nat → List Piece → List Span
  | _, [] => []
  | position, plain _ :: rest => spans (position + 1) rest
  | position, length number suffix :: rest =>
    ⟨position, number, suffix⟩ :: spans (position + (number ++ suffix.letters).length) rest

/-- The text of a piece, with a length replaced. -/
def rewrite (written : List Char → Suffix → List Char) : Piece → List Char
  | plain c => [c]
  | length number suffix => written number suffix

theorem mem_spans {span : Span} {position : Nat} {pieces : List Piece}
    (member : span ∈ spans position pieces) :
    position ≤ span.start ∧ .length span.number span.suffix ∈ pieces := by
  induction pieces generalizing position with
  | nil => cases member
  | cons piece pieces ih =>
    cases piece with
    | plain c =>
      obtain ⟨le, member⟩ := ih member
      exact ⟨Nat.le_of_succ_le le, List.mem_cons_of_mem _ member⟩
    | length number suffix =>
      rcases List.mem_cons.mp member with rfl | member
      · exact ⟨Nat.le_refl _, List.mem_cons_self ..⟩
      · obtain ⟨le, member⟩ := ih member
        exact ⟨Nat.le_trans (Nat.le_add_right _ _) le, List.mem_cons_of_mem _ member⟩

/-- The lengths of a text in its pieces are those found from left to right. -/
theorem leftToRight_spans (front cs : List Char) :
    Span.LeftToRight (front ++ cs) front.length (spans front.length (split cs)) := by
  fun_induction split cs generalizing front with
  | case1 =>
    rw [List.append_nil]
    exact .done fun span occurs => occurs.start_lt
  | case2 c rest number suffix after found ih =>
    obtain ⟨text, isNumber⟩ := scan?_isNumber found
    have ih := ih (front ++ (number ++ suffix.letters))
    rw [List.append_assoc, List.append_assoc, ← text, List.length_append] at ih
    refine .next ⟨isNumber, ?_⟩ (Nat.le_refl _) (fun _ _ => id) ih
    rw [List.drop_left, text, ← List.append_assoc]
    exact List.prefix_append ..
  | case3 c rest none ih =>
    have ih := ih (front ++ [c])
    rw [List.append_assoc, List.length_append] at ih
    refine .skip (fun span occurs same => ?_) ih
    obtain ⟨_, found⟩ := occurs.exists_scan?
    rw [same, List.drop_left, none] at found
    cases found

theorem replaceAll_skip {cs tail : List Char} {c : Char} {position : Nat}
    (here : cs.drop position = c :: tail) (written : List Char → Suffix → List Char)
    {spans : List Span} (behind : ∀ span ∈ spans, position < span.start) :
    Span.replaceAll cs written position spans =
      c :: Span.replaceAll cs written (position + 1) spans := by
  have next : cs.drop (position + 1) = tail := by rw [← List.tail_drop, here, List.tail_cons]
  cases spans with
  | nil => rw [Span.replaceAll, Span.replaceAll, here, next]
  | cons span spans =>
    have start := behind span (List.mem_cons_self ..)
    have size : span.start - position = span.start - (position + 1) + 1 := by omega
    rw [Span.replaceAll, Span.replaceAll, here, next, size, List.take_succ_cons, List.cons_append]

/-- Replacing the lengths where they stand is replacing them among the pieces. -/
theorem replaceAll_spans (written : List Char → Suffix → List Char) (front : List Char)
    (pieces : List Piece) :
    Span.replaceAll (front ++ pieces.flatMap text) written front.length
      (spans front.length pieces) =
      pieces.flatMap (rewrite written) := by
  induction pieces generalizing front with
  | nil => rw [spans, Span.replaceAll, List.drop_left]; rfl
  | cons piece pieces ih =>
    have ih := ih (front ++ piece.text)
    rw [List.append_assoc, List.length_append] at ih
    rw [List.flatMap_cons, List.flatMap_cons]
    cases piece with
    | plain c =>
      have here : (front ++ ((plain c).text ++ pieces.flatMap text)).drop front.length =
          c :: pieces.flatMap text :=
        List.drop_left ..
      have behind : ∀ span ∈ spans (front.length + 1) pieces, front.length < span.start :=
        fun _ member => (mem_spans member).1
      rw [spans, replaceAll_skip here written behind]
      exact congrArg (c :: ·) ih
    | length number suffix =>
      rw [spans, Span.replaceAll, Nat.sub_self, List.take_zero, List.nil_append]
      exact congrArg (written number suffix ++ ·) ih

end Piece

theorem Suffix.ofName?_name (suffix : Suffix) : ofName? suffix.name = some suffix := by
  cases suffix with
  | relative unit => cases unit <;> rfl
  | physical unit => cases unit <;> rfl
  | percent => rfl
  | pixel => rfl

namespace Calc

open Piece

variable {scale : Scale} {axis : Axis}

/-- What a length comes to, or zero where it comes to nothing. -/
def lengthWorth (scale : Scale) (axis : Axis) (number : List Char) (suffix : Suffix) : Float :=
  match lengthPixels scale axis number suffix with
  | .ok x => x
  | .error _ => 0

theorem lengthWorth_eq {number : List Char} {suffix : Suffix} {x : Float}
    (pixels : lengthPixels scale axis number suffix = .ok x) :
    lengthWorth scale axis number suffix = x := by
  rw [lengthWorth, pixels]

/-- A length that is replaced comes to a number of pixels, and is replaced by its text. -/
theorem Becomes.eq_rewrite {piece : Piece} {text : List Char}
    (becomes : Becomes scale axis piece text) :
    text =
      rewrite (fun number suffix => Number.write (lengthWorth scale axis number suffix)) piece ∧
      ∀ number suffix, piece = .length number suffix →
        lengthPixels scale axis number suffix = .ok (lengthWorth scale axis number suffix) := by
  cases becomes with
  | plain c => exact ⟨rfl, nofun⟩
  | length l known =>
    have pixels := (lengthPixels_text l _).trans (congrArg (Except.map (l.value * ·)) known)
    refine ⟨?_, fun number suffix same => ?_⟩
    · rw [rewrite, lengthWorth_eq pixels]
    · cases same
      rw [lengthWorth_eq pixels, pixels]
      rfl

theorem flatten_eq_flatMap {pieces : List Piece} {texts : List (List Char)}
    (become : List.Forall₂ (Becomes scale axis) pieces texts) :
    texts.flatten = pieces.flatMap
      (rewrite fun number suffix => Number.write (lengthWorth scale axis number suffix)) ∧
      ∀ number suffix, .length number suffix ∈ pieces →
        lengthPixels scale axis number suffix = .ok (lengthWorth scale axis number suffix) := by
  induction become with
  | nil => exact ⟨rfl, nofun⟩
  | cons becomes _ ih =>
    obtain ⟨text, pixels⟩ := becomes.eq_rewrite
    obtain ⟨texts, pixels'⟩ := ih
    refine ⟨by rw [List.flatten_cons, List.flatMap_cons, texts, text],
      fun number suffix member => ?_⟩
    rcases List.mem_cons.mp member with same | member
    · exact pixels number suffix same.symm
    · exact pixels' number suffix member

/-- What is replaced in a text is replaced piece by piece. -/
theorem inPixels_eq_flatMap {pieces : List Piece} {plain : List Char}
    (replaced : inPixels scale axis none pieces = .ok plain) :
    plain = pieces.flatMap
      (rewrite fun number suffix => Number.write (lengthWorth scale axis number suffix)) ∧
      ∀ number suffix, .length number suffix ∈ pieces →
        lengthPixels scale axis number suffix = .ok (lengthWorth scale axis number suffix) := by
  rcases inPixels_cases axis [] pieces with ⟨_, _, _, stops⟩ | ⟨_, texts, become, done⟩
  · cases replaced.symm.trans stops
  · obtain rfl : plain = texts.flatten := Except.ok.inj (replaced.symm.trans done)
    exact flatten_eq_flatMap become

/-- Wherever a length may begin, one length at most stands there. So the lengths of a text are the
only ones that can be found from left to right, each as far left as can be behind the one before.
Their suffixes all have a name that is known. Where they are replaced, each is replaced by the text
of its number of pixels, and all else in the text is kept. -/
theorem lengths_unambiguous (cs : List Char) :
    let spans := spans 0 (split cs)
    (∀ a b : Span, a.Occurs cs → b.Occurs cs → a.start = b.start → a = b) ∧
    (∀ spans', Span.LeftToRight cs 0 spans' ↔ spans' = spans) ∧
    (∀ span ∈ spans, Suffix.ofName? span.suffix.name = some span.suffix) ∧
    ∀ (scale : Scale) (axis : Axis) (plain : List Char),
      inPixels scale axis none (split cs) = .ok plain →
      ∃ pixels : List Char → Suffix → Float,
        (∀ span ∈ spans, lengthPixels scale axis span.number span.suffix =
          .ok (pixels span.number span.suffix)) ∧
        plain = Span.replaceAll cs
          (fun number suffix => Number.write (pixels number suffix)) 0 spans := by
  intro spans
  have found : Span.LeftToRight cs 0 spans := leftToRight_spans [] cs
  refine ⟨fun a b occurs occurs' => occurs.unique occurs',
    fun spans' => ⟨fun other => other.unique found, fun same => same ▸ found⟩,
    fun span _ => Suffix.ofName?_name span.suffix,
    fun scale axis plain replaced => ⟨lengthWorth scale axis, fun span member => ?_, ?_⟩⟩
  · exact (inPixels_eq_flatMap replaced).2 _ _ (mem_spans member).2
  · have whole := replaceAll_spans
      (fun number suffix => Number.write (lengthWorth scale axis number suffix)) [] (split cs)
    rw [flatMap_text_split] at whole
    exact (inPixels_eq_flatMap replaced).1.trans whole.symm

theorem lengths_unambiguous_of_powers :
    let scale := ((Scale.ofPercents 1 1).set .em 16).set .ex 8
    let cs := "1e2em+.5E1ex-3".toList
    let em : Span := ⟨0, ['1', 'e', '2'], .relative .em⟩
    let ex : Span := ⟨6, ['.', '5', 'E', '1'], .relative .ex⟩
    Span.LeftToRight cs 0 [em, ex] ∧ inPixels scale .horizontal none (split cs) =
      .ok "1600+40-3".toList ∧
      ∃ pixels : List Char → Suffix → Float, pixels em.number em.suffix = 1600 ∧
        pixels ex.number ex.suffix = 40 ∧
        "1600+40-3".toList = Span.replaceAll cs
          (fun number suffix => Number.write (pixels number suffix)) 0 [em, ex] := by
  intro scale cs em ex
  have replaced : inPixels scale .horizontal none (split cs) = .ok "1600+40-3".toList := by
    decide +kernel
  have pieces : spans 0 (split cs) = [em, ex] := by decide +kernel
  have unambiguous := lengths_unambiguous cs
  rw [pieces] at unambiguous
  obtain ⟨_, walks, _, written⟩ := unambiguous
  obtain ⟨pixels, measured, whole⟩ := written scale .horizontal _ replaced
  have first : lengthPixels scale .horizontal em.number em.suffix = .ok 1600 := by decide +kernel
  have second : lengthPixels scale .horizontal ex.number ex.suffix = .ok 40 := by decide +kernel
  have sizes := measured em (List.mem_cons_self ..)
  have sizes' := measured ex (List.mem_cons_of_mem _ (List.mem_cons_self ..))
  exact ⟨(walks _).mpr rfl, replaced, pixels, Except.ok.inj (sizes.symm.trans first),
    Except.ok.inj (sizes'.symm.trans second), whole⟩

end Calc

end CalcLength
