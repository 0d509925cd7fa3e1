import CalcLength.Proofs.Consultation
import CalcLength.Proofs.Substitution
import CalcLength.Proofs.Tokenizing

namespace CalcLength.Calc

open Piece

/-- Whether what stands between two texts would not grow together with either. -/
def Apart (before after : List Char) : Prop :=
  ∀ c, before.getLast? = some c ∨ after.head? = some c → joins c = false

/-- What is wrong with a length between two texts. The number of one that touches them is not looked
at, and without a number that can be read nothing is measured. -/
inductive Faulty (scale : Scale) (before after number : List Char) : Suffix → LengthFault → Prop
  | touching {suffix : Suffix} (touches : ¬Apart before after) :
      Faulty scale before after number suffix (.malformed .unexpectedToken)
  | unreadable {suffix : Suffix} (apart : Apart before after)
      (no_literal : ∀ l : Literal, l.text ≠ number) :
      Faulty scale before after number suffix (.malformed .invalidNumeral)
  | unresolved {unit : RelativeUnit} (apart : Apart before after)
      (l : Literal) (text : l.text = number)
      (missing : scale.pixels? unit = none) :
        Faulty scale before after number (.relative unit) (.unresolved unit)

/-- What a piece without a fault is replaced by. -/
inductive Becomes (scale : Scale) (axis : Axis) : Piece → List Char → Prop
  | plain (c : Char) : Becomes scale axis (.plain c) [c]
  | length (l : Literal) {suffix : Suffix} {ratio : Float}
      (known : scale.ratio axis suffix = .ok ratio) :
      Becomes scale axis (.length l.text suffix) (Number.write (l.value * ratio))

/-- Whether the piece right behind those in front is a faulty length. What stands
before all pieces counts as well. -/
def FaultAt (scale : Scale) (past : List Char) (pieces front : List Piece)
    (fault : LengthFault) : Prop :=
  ∃ number suffix back, pieces = front ++ .length number suffix :: back ∧
    Faulty scale (past ++ front.flatMap text) (back.flatMap text) number suffix fault

structure FirstFaultAt (scale : Scale) (past : List Char) (pieces front : List Piece)
    (fault : LengthFault) : Prop where
  here : FaultAt scale past pieces front fault
  no_earlier : ∀ other fault', FaultAt scale past pieces other fault' → front.length ≤ other.length

/-- What a text without lengths comes to. A place where no word starts goes before a fault in the
order of the words, and that before the size of the number. -/
inductive ComesTo (plain : List Char) : Except LengthFault Float → Prop
  | stuck {words : List (Lexeme Literal)} {c : Char} {rest : List Char}
      (advances : Token.Advances plain words (c :: rest))
      (stuck : Token.Stuck c rest) :
      ComesTo plain (.error (.malformed (if c = '.' then .invalidNumeral else .illegalCharacter)))
  | disordered {words : List (Lexeme Literal)} {fault : SyntaxFault}
      (advances : Token.Advances plain words [])
      (refused : Formula.parse (words.map Lexeme.plainToken) = .error fault) :
        ComesTo plain (.error (.malformed fault))
  | infinite {words : List (Lexeme Literal)} {formula : Formula}
      (advances : Token.Advances plain words [])
      (parsed : Formula.parse (words.map Lexeme.plainToken) = .ok formula)
      (infinite : formula.value.isFinite = false) :
      ComesTo plain (.error .notFinite)
  | finite {words : List (Lexeme Literal)} {formula : Formula}
      (advances : Token.Advances plain words [])
      (parsed : Formula.parse (words.map Lexeme.plainToken) = .ok formula)
      (finite : formula.value.isFinite = true) :
      ComesTo plain (.ok formula.value)

variable {scale : Scale} {axis : Axis}

theorem standsApart_iff {before after : List Char} :
    standsApart before.getLast? after.head? = true ↔ Apart before after := by
  have beside (c? : Option Char) : (!c?.any joins) = true ↔ ∀ c, c? = some c → joins c = false := by
    cases c? with
    | none => exact ⟨fun _ _ => nofun, fun _ => rfl⟩
    | some c => simp
  rw [standsApart, Bool.and_eq_true, beside, beside]
  constructor
  · rintro ⟨left, right⟩ c (last | first)
    · exact left c last
    · exact right c first
  · exact fun apart => ⟨fun c last => apart c (.inl last), fun c first => apart c (.inr first)⟩

namespace Faulty

variable {before after number : List Char} {suffix : Suffix} {fault fault' : LengthFault}

/-- Only the first thing that is wrong with a length counts. -/
theorem unique (faulty : Faulty scale before after number suffix fault)
    (faulty' : Faulty scale before after number suffix fault') : fault = fault' := by
  cases faulty with
  | touching touches =>
    cases faulty' with
    | touching => rfl
    | unreadable apart => exact absurd apart touches
    | unresolved apart => exact absurd apart touches
  | unreadable apart no_literal =>
    cases faulty' with
    | touching touches => exact absurd apart touches
    | unreadable => rfl
    | unresolved _ l text => exact absurd text (no_literal l)
  | unresolved apart l text =>
    cases faulty' with
    | touching touches => exact absurd apart touches
    | unreadable _ no_literal => exact absurd text (no_literal l)
    | unresolved => rfl

theorem inPixels_eq_error {rest : List Piece}
    (faulty : Faulty scale before (rest.flatMap text) number suffix fault) :
    inPixels scale axis before.getLast? (.length number suffix :: rest) = .error fault := by
  rw [inPixels, first?_eq_head?]
  cases faulty with
  | touching touches => rw [if_neg (standsApart_iff.not.mpr touches)]
  | unreadable apart no_literal =>
    have unread : Numeral.read? number = none := by
      rw [Option.eq_none_iff_forall_not_mem]
      intro x read
      obtain ⟨l, text, _⟩ := Numeral.read?_eq_some_iff.mp read
      exact no_literal l text
    rw [if_pos (standsApart_iff.mpr apart), lengthPixels, unread]
  | unresolved apart l text missing =>
    subst text
    rw [if_pos (standsApart_iff.mpr apart), lengthPixels, Numeral.read?_text, Scale.ratio, missing]

/-- A length without a fault stands apart, its number is a literal, and what
it is measured in has a size. -/
theorem exists_ratio (axis : Axis)
    (sound : ∀ fault, ¬Faulty scale before after number suffix fault) :
    Apart before after ∧ ∃ (l : Literal) (ratio : Float), l.text = number ∧
      scale.ratio axis suffix = .ok ratio := by
  have apart : Apart before after := by_contra fun touches => sound _ (.touching touches)
  obtain ⟨l, text⟩ : ∃ l : Literal, l.text = number :=
    by_contra fun no_literal => sound _ (.unreadable apart fun l text => no_literal ⟨l, text⟩)
  refine ⟨apart, l, ?_⟩
  cases suffix with
  | relative unit =>
    cases size : scale.pixels? unit with
    | none => exact absurd (.unresolved apart l text size) (sound _)
    | some pixels => exact ⟨pixels, text, by rw [Scale.ratio, size]⟩
  | physical unit => exact ⟨unit.pixels, text, rfl⟩
  | percent => exact ⟨scale.percent axis, text, rfl⟩
  | pixel => exact ⟨1, text, rfl⟩

end Faulty

namespace FaultAt

variable {past : List Char} {piece : Piece} {pieces front : List Piece} {fault fault' : LengthFault}

theorem unique (faulty : FaultAt scale past pieces front fault)
    (faulty' : FaultAt scale past pieces front fault') : fault = fault' := by
  obtain ⟨number, suffix, back, whole, faulty⟩ := faulty
  obtain ⟨number', suffix', back', whole', faulty'⟩ := faulty'
  obtain ⟨same, rfl⟩ := List.cons.inj (List.append_cancel_left (whole.symm.trans whole'))
  obtain ⟨rfl, rfl⟩ := Piece.length.inj same
  exact faulty.unique faulty'

theorem cons_iff : FaultAt scale past (piece :: pieces) (piece :: front) fault ↔
    FaultAt scale (past ++ piece.text) pieces front fault := by
  simp only [FaultAt, List.cons_append, List.cons.injEq, true_and, List.flatMap_cons,
    List.append_assoc]

/-- A fault lies in the first piece or behind it. -/
theorem cases_cons (faulty : FaultAt scale past (piece :: pieces) front fault) :
    front = [] ∨ ∃ more, front = piece :: more ∧
      FaultAt scale (past ++ piece.text) pieces more fault := by
  cases front with
  | nil => exact .inl rfl
  | cons first more =>
    obtain rfl : piece = first := by
      obtain ⟨number, suffix, back, whole, _⟩ := faulty
      exact (List.cons.inj whole).1
    exact .inr ⟨more, rfl, cons_iff.mp faulty⟩

theorem nil_iff {number : List Char} {suffix : Suffix} :
    FaultAt scale past (.length number suffix :: pieces) [] fault ↔
      Faulty scale past (pieces.flatMap text) number suffix fault := by
  constructor
  · rintro ⟨_, _, _, whole, faulty⟩
    obtain ⟨same, rfl⟩ := List.cons.inj whole
    obtain ⟨rfl, rfl⟩ := Piece.length.inj same
    rw [List.flatMap_nil, List.append_nil] at faulty
    exact faulty
  · exact fun faulty => ⟨number, suffix, pieces, rfl, by rwa [List.flatMap_nil, List.append_nil]⟩

end FaultAt

/-- One piece is faulty, or it is replaced for itself and the rest goes on behind it. -/
theorem inPixels_cons (axis : Axis) (past : List Char) (piece : Piece) (pieces : List Piece) :
    (∃ fault, FaultAt scale past (piece :: pieces) [] fault ∧
      inPixels scale axis past.getLast? (piece :: pieces) = .error fault) ∨
    (∀ fault, ¬FaultAt scale past (piece :: pieces) [] fault) ∧
      ∃ plain, Becomes scale axis piece plain ∧
      inPixels scale axis past.getLast? (piece :: pieces) =
        (inPixels scale axis (past ++ piece.text).getLast? pieces).map (plain ++ ·) := by
  cases piece with
  | plain c =>
    have sound (fault : LengthFault) : ¬FaultAt scale past (.plain c :: pieces) [] fault := by
      rintro ⟨_, _, _, whole, _⟩
      cases whole
    refine .inr ⟨sound, [c], .plain c, ?_⟩
    rw [inPixels, Piece.text, List.getLast?_concat]
    rfl
  | length number suffix =>
    by_cases sound : ∀ fault, ¬Faulty scale past (pieces.flatMap text) number suffix fault
    · obtain ⟨apart, l, ratio, rfl, known⟩ := Faulty.exists_ratio axis sound
      refine .inr ⟨fun fault faulty => sound fault (FaultAt.nil_iff.mp faulty),
        _, .length l known, ?_⟩
      have last : (past ++ (Piece.length l.text suffix).text).getLast? =
          suffix.letters.getLast? := by
        rw [Piece.text, ← List.append_assoc, List.getLast?_append_of_ne_nil _ suffix.letters_ne_nil]
      rw [inPixels, first?_eq_head?, if_pos (standsApart_iff.mpr apart), lengthPixels,
        Numeral.read?_text, known, last]
    · obtain ⟨fault, faulty⟩ := not_forall_not.mp sound
      exact .inl ⟨fault, FaultAt.nil_iff.mpr faulty, faulty.inPixels_eq_error⟩

/-- Either the first fault of all ends the replacement, or there is none
and each piece is replaced. -/
theorem inPixels_cases (axis : Axis) (past : List Char) (pieces : List Piece) :
    (∃ front fault, FirstFaultAt scale past pieces front fault ∧
      inPixels scale axis past.getLast? pieces = .error fault) ∨
    (∀ front fault, ¬FaultAt scale past pieces front fault) ∧
      ∃ texts, List.Forall₂ (Becomes scale axis) pieces texts ∧
      inPixels scale axis past.getLast? pieces = .ok texts.flatten := by
  induction pieces generalizing past with
  | nil =>
    refine .inr ⟨fun front fault ⟨_, _, _, whole, _⟩ => ?_, [], .nil, rfl⟩
    exact List.append_ne_nil_of_right_ne_nil _ (List.cons_ne_nil _ _) whole.symm
  | cons piece pieces ih =>
    rcases inPixels_cons axis past piece pieces with ⟨fault, faulty, stops⟩ |
      ⟨sound, plain, becomes, goes_on⟩
    · exact .inl ⟨[], fault, ⟨faulty, fun _ _ _ => Nat.zero_le _⟩, stops⟩
    · have behind {front fault} (faulty : FaultAt scale past (piece :: pieces) front fault) :
          ∃ more, front = piece :: more ∧ FaultAt scale (past ++ piece.text) pieces more fault :=
        faulty.cases_cons.resolve_left fun none => sound fault (none ▸ faulty)
      rcases ih (past ++ piece.text) with ⟨front, fault, first, stops⟩ |
        ⟨sound, texts, become, replaced⟩
      · refine .inl ⟨piece :: front, fault,
          ⟨FaultAt.cons_iff.mpr first.here, fun other fault' faulty => ?_⟩, ?_⟩
        · obtain ⟨more, rfl, later⟩ := behind faulty
          exact Nat.succ_le_succ (first.no_earlier more fault' later)
        · rw [goes_on, stops]
          rfl
      · refine .inr ⟨fun front fault faulty => ?_, plain :: texts, .cons becomes become, ?_⟩
        · obtain ⟨more, _, later⟩ := behind faulty
          exact sound more fault later
        · rw [goes_on, replaced]
          rfl

theorem FirstFaultAt.unique {past : List Char} {pieces front front' : List Piece}
    {fault fault' : LengthFault} (first : FirstFaultAt scale past pieces front fault)
    (first' : FirstFaultAt scale past pieces front' fault') : fault = fault' := by
  have same : front.length = front'.length :=
    Nat.le_antisymm (first.no_earlier _ _ first'.here) (first'.no_earlier _ _ first.here)
  obtain ⟨number, suffix, back, whole, _⟩ := id first.here
  obtain ⟨number', suffix', back', whole', _⟩ := id first'.here
  obtain ⟨rfl, _⟩ := List.append_inj (whole.symm.trans whole') same
  exact first.here.unique first'.here

/-- A text comes to one thing only. -/
theorem ComesTo.pixels_eq {cs plain : List Char} {outcome : Except LengthFault Float}
    (comes : ComesTo plain outcome)
    (replaced : inPixels scale axis none (split (body cs)) = .ok plain) :
    pixels scale axis cs = outcome := by
  have scanned {words : List (Lexeme Literal)} (advances : Token.Advances plain words []) :
      Token.scan plain = .ok (words.map Lexeme.plainToken) :=
        Token.scan_eq_ok_iff.mpr ⟨words, advances, rfl⟩
  simp only [pixels, value, replaced, Formula.read]
  cases comes with
  | @stuck words c rest advances stuck =>
    rw [Token.scan_eq_error_iff.mpr ⟨words, c, rest, advances, stuck, rfl⟩]
    rfl
  | disordered advances refused =>
    simp only [scanned advances, refused]
    rfl
  | infinite advances parsed infinite =>
    simp only [scanned advances, parsed, Except.map, Except.mapError, infinite,
      Bool.false_eq_true, if_false]
  | finite advances parsed finite =>
    simp only [scanned advances, parsed, Except.map, Except.mapError, finite, if_true]

theorem exists_comesTo (plain : List Char) : ∃ outcome, ComesTo plain outcome := by
  obtain ⟨words, rest, advances, rfl | ⟨c, more, rfl, stuck⟩⟩ := Token.exists_advances plain
  · cases parsed : Formula.parse (words.map Lexeme.plainToken) with
    | error fault => exact ⟨_, .disordered advances parsed⟩
    | ok formula =>
      cases finite : formula.value.isFinite with
      | false => exact ⟨_, .infinite advances parsed finite⟩
      | true => exact ⟨_, .finite advances parsed finite⟩
  · exact ⟨_, .stuck advances stuck⟩

theorem pixels_eq_iff_comesTo {cs plain : List Char}
    (replaced : inPixels scale axis none (split (body cs)) = .ok plain)
    (outcome : Except LengthFault Float) :
    pixels scale axis cs = outcome ↔ ComesTo plain outcome := by
  constructor
  · rintro rfl
    obtain ⟨outcome, comes⟩ := exists_comesTo plain
    rw [comes.pixels_eq replaced]
    exact comes
  · exact fun comes => comes.pixels_eq replaced

theorem ComesTo.ne_unresolved {plain : List Char} {outcome : Except LengthFault Float}
    (comes : ComesTo plain outcome) (unit : RelativeUnit) :
    outcome ≠ .error (.unresolved unit) := by
  cases comes <;> exact nofun

theorem pixels_of_fault {cs : List Char} {fault : LengthFault}
    (stops : inPixels scale axis none (split (body cs)) = .error fault) :
    pixels scale axis cs = .error fault := by
  simp only [pixels, value, stops]

theorem not_faultAt_of_replaced {past : List Char} {pieces : List Piece} {plain : List Char}
    (replaced : inPixels scale axis past.getLast? pieces = .ok plain) (front : List Piece)
    (fault : LengthFault) : ¬FaultAt scale past pieces front fault := by
  rcases inPixels_cases axis past pieces with ⟨_, _, _, stops⟩ | ⟨sound, _⟩
  · rw [replaced] at stops
    cases stops
  · exact sound front fault

/-- A unit is missed only by a length that is measured in it. -/
theorem FaultAt.unresolved {past cs : List Char} {front : List Piece} {unit : RelativeUnit}
    (faulty : FaultAt scale past (split (body cs)) front (.unresolved unit)) :
    .relative unit ∈ Piece.suffixes cs ∧ scale.pixels? unit = none := by
  obtain ⟨number, suffix, back, whole, faulty⟩ := faulty
  cases faulty with
  | unresolved _ _ _ missing =>
    refine ⟨?_, missing⟩
    have member : Piece.length number (.relative unit) ∈ split (body cs) := by
      rw [whole]
      exact List.mem_append_right _ (List.mem_cons_self ..)
    rw [← suffixes_body]
    exact List.mem_filterMap.mpr ⟨_, member, rfl⟩

/-- The first faulty length decides, whatever else is wrong before it or behind it. Without one no
unit is missed, and what the text comes to with its lengths replaced decides: the first place where
no word starts, else the order of the words, else the size of the number. So a missed unit occurs in
the text, and the scale has no size for it. -/
theorem pixels_reports_first_fault (scale : Scale) (axis : Axis) (cs : List Char) :
    (∀ front fault, FaultAt scale [] (split (body cs)) front fault →
      ∃ first fault', FirstFaultAt scale [] (split (body cs)) first fault') ∧
    (∀ first fault, FirstFaultAt scale [] (split (body cs)) first fault →
      pixels scale axis cs = .error fault) ∧
    ((∀ front fault, ¬FaultAt scale [] (split (body cs)) front fault) →
      (∀ unit, pixels scale axis cs ≠ .error (.unresolved unit)) ∧
      ∃ texts, List.Forall₂ (Becomes scale axis) (split (body cs)) texts ∧
        ∀ outcome, pixels scale axis cs = outcome ↔ ComesTo texts.flatten outcome) ∧
    ∀ unit, pixels scale axis cs = .error (.unresolved unit) → .relative unit ∈ Piece.suffixes cs ∧
      scale.pixels? unit = none := by
  rcases inPixels_cases axis [] (split (body cs)) with ⟨first, fault, isFirst, stops⟩ |
    ⟨sound, texts, become, replaced⟩
  · refine ⟨fun _ _ _ => ⟨first, fault, isFirst⟩, fun first' fault' isFirst' => ?_, fun sound => ?_,
      fun unit missed => ?_⟩
    · rw [isFirst'.unique isFirst]
      exact pixels_of_fault stops
    · exact absurd isFirst.here (sound first fault)
    · rw [pixels_of_fault stops, Except.error.injEq] at missed
      subst missed
      exact isFirst.here.unresolved
  · have comes := pixels_eq_iff_comesTo replaced
    have no_missed (unit : RelativeUnit) :
        pixels scale axis cs ≠ .error (.unresolved unit) := fun missed =>
      ((comes _).mp missed).ne_unresolved unit rfl
    exact ⟨fun front fault faulty => absurd faulty (sound front fault),
      fun first fault isFirst => absurd isFirst.here (sound first fault), fun _ =>
        ⟨no_missed, texts, become, comes⟩,
      fun unit missed => absurd missed (no_missed unit)⟩

/-- Here a unit is missed before a length touches a digit and before a character is out of place;
there the lengths are sound. -/
theorem pixels_reports_first_fault_em :
    let scale := Scale.ofPercents 2 3
    let faulty := "calc(1em @ 2px3)".toList
    let sound := "calc(1px @ (".toList
    pixels scale .horizontal faulty = .error (.unresolved .em) ∧
      .relative .em ∈ Piece.suffixes faulty ∧
      ∃ texts, List.Forall₂ (Becomes scale .horizontal) (split (body sound)) texts ∧
        ComesTo texts.flatten (.error (.malformed .illegalCharacter)) := by
  intro scale faulty sound
  have pieces : split (body faulty) = [.plain '(', .length ['1'] (.relative .em), .plain ' ',
      .plain '@', .plain ' ', .length ['2'] .pixel, .plain '3', .plain ')'] := by
    decide +kernel
  have isFirst : FirstFaultAt scale [] (split (body faulty)) [.plain '('] (.unresolved .em) := by
    rw [pieces]
    refine ⟨⟨['1'], .relative .em, _, rfl, ?_⟩, fun other fault' later => ?_⟩
    · let one : Literal := .ofDigits ['1'] (List.all_eq_true.mp rfl) (List.cons_ne_nil _ _)
      refine .unresolved (fun c beside => ?_) one rfl rfl
      rcases beside with last | first
      · cases last
        rfl
      · cases first
        rfl
    · rcases later.cases_cons with rfl | ⟨more, rfl, _⟩
      · obtain ⟨_, _, _, whole, _⟩ := later
        cases whole
      · exact Nat.le_add_left 1 more.length
  have replaced : inPixels scale .horizontal none (split (body sound)) =
      .ok ['(', '1', ' ', '@', ' ', '('] := by decide +kernel
  have no_fault : ∀ front fault, ¬FaultAt scale [] (split (body sound)) front fault :=
    not_faultAt_of_replaced replaced
  obtain ⟨_, decides, _, missed⟩ := pixels_reports_first_fault scale .horizontal faulty
  obtain ⟨_, _, settled, _⟩ := pixels_reports_first_fault scale .horizontal sound
  obtain ⟨_, texts, become, comes⟩ := settled no_fault
  have fails := decides _ _ isFirst
  exact ⟨fails, (missed _ fails).1, texts, become, (comes _).mp (by decide +kernel)⟩

end CalcLength.Calc
