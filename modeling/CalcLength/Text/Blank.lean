namespace CalcLength.Text

/-- The blanks between tokens: space, tab, line feed, form feed and carriage return. -/
def isBlank (c : Char) : Bool :=
  c = ' ' || c = '\t' || c = '\n' || c = '\x0c' || c = '\r'

/-- The first and last members of the runs of Unicode white space. -/
def spaceRuns : List (Nat × Nat) :=
  [(0x0009, 0x000D), (0x0020, 0x0020), (0x0085, 0x0085), (0x00A0, 0x00A0), (0x1680, 0x1680),
   (0x2000, 0x200A), (0x2028, 0x2029), (0x202F, 0x202F), (0x205F, 0x205F), (0x3000, 0x3000)]

/-- Unicode white space, which may surround a whole expression. -/
def isSpace (c : Char) : Bool :=
  spaceRuns.any fun (first, last) => first ≤ c.toNat && c.toNat ≤ last

/-- The text without the white space at its two ends. -/
def trim (cs : List Char) : List Char :=
  ((cs.dropWhile isSpace).reverse.dropWhile isSpace).reverse

/-- The text without a given beginning, if it has that beginning. -/
def dropFirst (beginning cs : List Char) : List Char :=
  if beginning.isPrefixOf cs then cs.drop beginning.length else cs

theorem isSpace_of_isBlank {c : Char} (blank : isBlank c = true) : isSpace c = true := by
  simp only [isBlank, Bool.or_eq_true, decide_eq_true_eq] at blank
  rcases blank with (((rfl | rfl) | rfl) | rfl) | rfl <;> decide

theorem dropFirst_append (beginning cs : List Char) :
    dropFirst beginning (beginning ++ cs) = cs := by
  simp [dropFirst]

end CalcLength.Text
