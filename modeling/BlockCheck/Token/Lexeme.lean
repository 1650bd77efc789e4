import BlockCheck.Text.Word
import BlockCheck.Token.Category

/-!
# Lexemes

`Shape.lexemeLength?` says how many characters at the beginning of a text form a token of a shape, and
`Category.firstMatch?` picks the first category of the priority order that has such a token. A lexeme is never empty
and never longer than the text (`lexemeLength?_pos`, `lexemeLength?_le`).
-/

namespace BlockCheck

open Text (atWordEnd digitRun wordRun digitRun_le_length wordRun_le_length)

/-! ## Numbers -/

/-- The number of characters of a leading minus. -/
def minusLength : List Char → Nat
  | '-' :: _ => 1
  | _ => 0

/-- The length of an integer at the beginning of the text. -/
def integerLength? (cs : List Char) : Option Nat :=
  let minus := minusLength cs
  let digits := digitRun (cs.drop minus)
  if 0 < digits && atWordEnd (cs.drop (minus + digits)) then some (minus + digits) else none

/-- The length of a decimal number at the beginning of the text. -/
def decimalLength? (cs : List Char) : Option Nat :=
  let minus := minusLength cs
  let whole := digitRun (cs.drop minus)
  match cs.drop (minus + whole) with
  | '.' :: fraction =>
    let places := digitRun fraction
    if 0 < whole && 0 < places && atWordEnd (fraction.drop places) then some (minus + whole + 1 + places) else none
  | _ => none

theorem minusLength_le_length (cs : List Char) : minusLength cs ≤ cs.length := by
  unfold minusLength; split <;> simp

theorem integerLength?_bounds {cs : List Char} {n : Nat} (h : integerLength? cs = some n) :
    0 < n ∧ n ≤ cs.length := by
  simp only [integerLength?, Option.ite_none_right_eq_some, Bool.and_eq_true, decide_eq_true_eq,
    Option.some.injEq] at h
  have h1 := minusLength_le_length cs
  have h2 := digitRun_le_length (cs.drop (minusLength cs))
  rw [List.length_drop] at h2
  omega

theorem decimalLength?_bounds {cs : List Char} {n : Nat} (h : decimalLength? cs = some n) :
    0 < n ∧ n ≤ cs.length := by
  simp only [decimalLength?] at h
  split at h
  · next fraction hf =>
    simp only [Option.ite_none_right_eq_some, Bool.and_eq_true, decide_eq_true_eq, Option.some.injEq] at h
    have h1 := digitRun_le_length fraction
    have h2 := congrArg List.length hf
    rw [List.length_drop, List.length_cons] at h2
    omega
  · cases h

/-! ## Quoted tokens and names -/

/-- The character may stand in quoted text. -/
def isQuotable (c : Char) : Bool := c != '"' && c != '\\' && c != '\'' && c != ','

/-- The length of quoted text at the beginning of the text. -/
def quotedTextLength? : List Char → Option Nat
  | '"' :: cs =>
    let inner := (cs.takeWhile isQuotable).length
    if cs[inner]? = some '"' then some (inner + 2) else none
  | _ => none

/-- The length of a quoted character at the beginning of the text. -/
def quotedCharLength? : List Char → Option Nat
  | '\'' :: c :: '\'' :: _ => if c = '\'' ∨ c = '\\' then none else some 3
  | _ => none

/-- The length of a name at the beginning of the text. -/
def nameLength? : List Char → Option Nat
  | [] => none
  | c :: cs =>
    let more := wordRun cs
    if c.isAlpha || (c == '_' && 0 < more) then some (more + 1) else none

theorem quotedTextLength?_bounds {cs : List Char} {n : Nat} (h : quotedTextLength? cs = some n) :
    0 < n ∧ n ≤ cs.length := by
  unfold quotedTextLength? at h
  split at h
  · next cs =>
    simp only [Option.ite_none_right_eq_some, Option.some.injEq] at h
    obtain ⟨hq, rfl⟩ := h
    obtain ⟨hlt, _⟩ := List.getElem?_eq_some_iff.1 hq
    simp only [List.length_cons]
    omega
  · cases h

theorem quotedCharLength?_bounds {cs : List Char} {n : Nat} (h : quotedCharLength? cs = some n) :
    0 < n ∧ n ≤ cs.length := by
  unfold quotedCharLength? at h
  split at h
  · split at h
    · cases h
    · cases h; simp
  · cases h

theorem nameLength?_bounds {cs : List Char} {n : Nat} (h : nameLength? cs = some n) : 0 < n ∧ n ≤ cs.length := by
  cases cs with
  | nil => cases h
  | cons c cs =>
    simp only [nameLength?, Option.ite_none_right_eq_some, Option.some.injEq] at h
    have := wordRun_le_length cs
    simp only [List.length_cons]
    omega

/-! ## Shapes and categories -/

/-- The number of characters that a token of the shape takes at the beginning of the text. -/
def Shape.lexemeLength? : Shape → List Char → Option Nat
  | .sign spelling, cs => if spelling.toList.isPrefixOf cs then some spelling.toList.length else none
  | .keyword spelling, cs =>
    if spelling.toList.isPrefixOf cs && atWordEnd (cs.drop spelling.toList.length) then
      some spelling.toList.length
    else none
  | .decimal, cs => decimalLength? cs
  | .integer, cs => integerLength? cs
  | .quotedText, cs => quotedTextLength? cs
  | .quotedChar, cs => quotedCharLength? cs
  | .name, cs => nameLength? cs

theorem spelling_bounds {w cs : List Char} (hw : w ≠ []) (hp : w.isPrefixOf cs = true) :
    0 < w.length ∧ w.length ≤ cs.length :=
  ⟨List.length_pos_iff.2 hw, (List.isPrefixOf_iff_prefix.1 hp).length_le⟩

theorem Shape.lexemeLength?_bounds {sh : Shape} {cs : List Char} {n : Nat}
    (hw : ∀ w, sh.spelling? = some w → w.toList ≠ []) (h : sh.lexemeLength? cs = some n) :
    0 < n ∧ n ≤ cs.length := by
  cases sh with
  | sign w =>
    simp only [Shape.lexemeLength?, Option.ite_none_right_eq_some, Option.some.injEq] at h
    exact h.2 ▸ spelling_bounds (hw w rfl) h.1
  | keyword w =>
    simp only [Shape.lexemeLength?, Option.ite_none_right_eq_some, Bool.and_eq_true, Option.some.injEq] at h
    exact h.2 ▸ spelling_bounds (hw w rfl) h.1.1
  | decimal => exact decimalLength?_bounds h
  | integer => exact integerLength?_bounds h
  | quotedText => exact quotedTextLength?_bounds h
  | quotedChar => exact quotedCharLength?_bounds h
  | name => exact nameLength?_bounds h

namespace Category

/-- The number of characters that a token of the category takes at the beginning of the text. -/
def lexemeLength? (k : Category) (cs : List Char) : Option Nat := k.shape.lexemeLength? cs

/-- The first category in priority order that has a token at the beginning of the text, and the token's length. -/
def firstMatch? (cs : List Char) : Option (Category × Nat) :=
  priority.findSome? fun k => (k.lexemeLength? cs).map fun n => (k, n)

theorem lexemeLength?_bounds {k : Category} {cs : List Char} {n : Nat} (h : k.lexemeLength? cs = some n) :
    0 < n ∧ n ≤ cs.length :=
  Shape.lexemeLength?_bounds (fun _ hw => spelling?_ne_nil hw) h

theorem firstMatch?_bounds {cs : List Char} {k : Category} {n : Nat} (h : firstMatch? cs = some (k, n)) :
    0 < n ∧ n ≤ cs.length := by
  obtain ⟨k', _, hk⟩ := List.exists_of_findSome?_eq_some h
  simp only [Option.map_eq_some_iff, Prod.mk.injEq] at hk
  obtain ⟨m, hm, _, rfl⟩ := hk
  exact lexemeLength?_bounds hm

end Category

end BlockCheck
