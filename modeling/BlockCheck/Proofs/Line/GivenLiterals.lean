import BlockCheck.Proofs.Line.MoreValues
import BlockCheck.Proofs.Token.Insertion

/-!
# Literals that are given to declared variables

A literal is given to a variable by writing `=` and the literal behind its name in the declaration (`GivesLiteral`). The
line is read as the same declaration with one value more, so it adds values to the first one (`GivesLiteral.addsValues`).
Nothing else in the line matters: the tokens behind the literal have moved, but are the same.
-/

namespace BlockCheck

open Text (size isSeparator)

/-- The second line is the first one with ` = ` and a literal of the type behind the name of a declarator that has no
value. -/
inductive GivesLiteral (line line' : List Char) : Prop
  | intro {type : ValueType} {before after : List Declarator} {name : Token} {ts : List Token}
      {front back literal : List Char} {k : Category} :
      readLine line = ⟨ts, none⟩ →
      (StatementTree.variableDeclaration false type (before ++ ⟨name, none⟩ :: after)).Written ts →
      line = front ++ back → size front = name.span.offset + name.span.length →
      ReadsAs literal k → k ∈ type.assignable → k ≠ .identifier →
      line' = front ++ (" = ".toList ++ literal ++ back) → GivesLiteral line line'

/-! ## The text of a value -/

/-- A sign of assignment and a literal are read as such, wherever they stand. -/
theorem scansAs_value {literal : List Char} {k : Category} (n : Nat) (h : ReadsAs literal k) :
    ∃ sign value : Token, ScansAs n (" = ".toList ++ literal) ⟨[sign, value], none⟩ ∧ sign.category = .assign ∧
      value.category = k := by
  obtain ⟨value, hread, rfl⟩ := h
  have hcomment : isComment literal = false := isComment_of_readLine (by rw [hread]; simp)
  obtain ⟨⟨values, failure⟩, hscan, halike, hfailure⟩ :=
    ((scansAs_line_iff hcomment).2 hread).shift (n + size [' ', '='] + size [' '])
  cases hfailure rfl
  obtain ⟨value', hvalue, rfl⟩ : ∃ value', value.Alike value' ∧ values = [value'] := by
    cases halike with
    | cons hvalue hnothing =>
      cases hnothing
      exact ⟨_, hvalue, rfl⟩
  have hsign : Category.firstMatch? (['='] ++ []) = some (.assign, ['='].length) := by decide +kernel
  have hdark : ∀ c ∈ ['='].head?, Text.isBlank c = false := by
    rintro _ ⟨⟩
    rfl
  have hfront : ScansAs n ([' '] ++ (['='] ++ [])) (Reading.empty.cons (.ofPart .assign ['='] (n + size [' ']))) :=
    .token rfl hdark hsign (.stop rfl)
  have hback : ScansAs (n + size [' ', '=']) ([' '] ++ literal) ⟨[value'], none⟩ := ScansAs.gap_append rfl hscan
  refine ⟨_, value', hfront.append rfl ?_ hback, rfl, hvalue.category⟩
  rintro _ ⟨⟩
  rfl

/-! ## Declarators -/

namespace Declarator

variable {type : ValueType} {d : Declarator} {ds before after : List Declarator} {ts ts' : List Token} {name : Token}

/-- Tokens alike are those of a declarator alike. -/
theorem Written.exists_alike (h : d.Written ts) (halike : List.Forall₂ Token.Alike ts ts') :
    ∃ d' : Declarator, d'.Written ts' ∧ d.Gains type d' := by
  cases h with
  | bare hname =>
    cases halike with
    | cons hfirst hnothing =>
      cases hnothing
      exact ⟨_, .bare (hfirst.category.trans hname), .same hfirst .none⟩
  | valued hname hsign =>
    cases halike with
    | cons hfirst halike =>
      cases halike with
      | cons hsecond halike =>
        cases halike with
        | cons hvalue hnothing =>
          cases hnothing
          exact ⟨_, .valued (hfirst.category.trans hname) (hsecond.category.trans hsign),
            .same hfirst (.some hvalue)⟩

theorem exists_alike_of_separated (h : Separated [.comma] Written ds ts) (halike : List.Forall₂ Token.Alike ts ts') :
    ∃ ds', Separated [.comma] Written ds' ts' ∧ List.Forall₂ (Gains type) ds ds' := by
  induction h generalizing ts' with
  | one hw =>
    obtain ⟨d', hw', hd⟩ := hw.exists_alike halike
    exact ⟨[d'], .one hw', .cons hd .nil⟩
  | more hw hcomma _ ih =>
    obtain ⟨first, rest, rfl, hfirst, hrest⟩ := forall₂_append_parts halike
    cases hrest with
    | cons hsign hrest =>
      obtain ⟨d', hw', hd⟩ := hw.exists_alike hfirst
      obtain ⟨ds', hseparated, hds⟩ := ih hrest
      exact ⟨d' :: ds', .more hw' (hsign.category ▸ hcomma) hseparated, .cons hd hds⟩

/-- A value is written behind the name of one of the declarators. The tokens of those behind it may be replaced by
tokens alike. -/
theorem exists_given_of_separated (type : ValueType)
    (h : Separated [.comma] Written (before ++ ⟨name, none⟩ :: after) ts) :
    ∃ front back, ts = front ++ name :: back ∧ (∀ t ∈ back.head?, t.category = .comma) ∧
      ∀ (sign value : Token) (back' : List Token), sign.category = .assign → List.Forall₂ Token.Alike back back' →
        ∃ after', Separated [.comma] Written (before ++ ⟨name, some value⟩ :: after')
          (front ++ name :: sign :: value :: back') ∧ List.Forall₂ (Gains type) after after' := by
  generalize hds : before ++ ⟨name, none⟩ :: after = ds at h
  induction h generalizing before with
  | @one d ts hw =>
    cases before with
    | nil =>
      cases hds
      cases hw with
      | bare hname =>
        refine ⟨[], [], rfl, nofun, fun sign value _ hsign halike => ?_⟩
        cases halike
        exact ⟨[], .one (.valued hname hsign), .nil⟩
    | cons b before => exact absurd (List.cons.inj hds).2 (by simp)
  | @more d ds comma ts us hw hcomma hrest ih =>
    cases before with
    | nil =>
      cases hds
      cases hw with
      | bare hname =>
        refine ⟨[], comma :: us, rfl, ?_, fun sign value _ hsign halike => ?_⟩
        · rintro _ ⟨⟩
          exact List.mem_singleton.1 hcomma
        · cases halike with
          | @cons _ comma' _ us' halikeComma halike =>
            obtain ⟨after', hseparated, hafter⟩ := exists_alike_of_separated hrest halike
            have hcomma' : comma'.category ∈ [Category.comma] := by
              rw [halikeComma.category]
              exact hcomma
            have hmore : Separated [.comma] Written (⟨name, some value⟩ :: after')
                ([name, sign, value] ++ comma' :: us') := .more (.valued hname hsign) hcomma' hseparated
            exact ⟨after', hmore, hafter⟩
    | cons b before =>
      obtain ⟨rfl, htail⟩ := List.cons.inj hds
      obtain ⟨front, back, rfl, hback, hgiven⟩ := ih htail
      refine ⟨ts ++ comma :: front, back, by simp, hback, fun sign value back' hsign halike => ?_⟩
      obtain ⟨after', hseparated, hafter⟩ := hgiven sign value back' hsign halike
      refine ⟨after', ?_, hafter⟩
      rw [List.append_assoc, List.cons_append]
      exact .more hw hcomma hseparated

end Declarator

/-- Behind a name without a value stands a comma or the semicolon of the declaration, and a value may be written in front
of it. -/
theorem StatementTree.exists_given_of_written {type : ValueType} {before after : List Declarator} {name : Token}
    {ts : List Token} (h : (variableDeclaration false type (before ++ ⟨name, none⟩ :: after)).Written ts) :
    ∃ front next back, ts = front ++ name :: next :: back ∧ (next.category = .comma ∨ next.category = .semicolon) ∧
      ∀ (sign value : Token) (back' : List Token), sign.category = .assign →
        List.Forall₂ Token.Alike (next :: back) back' →
          ∃ after', (variableDeclaration false type (before ++ ⟨name, some value⟩ :: after')).Written
            (front ++ name :: sign :: value :: back') ∧ List.Forall₂ (Declarator.Gains type) after after' := by
  cases h with
  | @variableDeclaration _ _ keyword stop ts hkeyword hds hstop =>
    obtain ⟨first, rest, rfl, hrest, hgiven⟩ := Declarator.exists_given_of_separated type hds
    obtain ⟨next, back, hnext, hcategory⟩ : ∃ next back, rest ++ [stop] = next :: back ∧
        (next.category = .comma ∨ next.category = .semicolon) := by
      cases rest with
      | nil => exact ⟨stop, [], rfl, .inr hstop⟩
      | cons comma rest => exact ⟨comma, rest ++ [stop], rfl, .inl (hrest comma rfl)⟩
    refine ⟨keyword :: first, next, back, ?_, hcategory, fun sign value back' hsign halike => ?_⟩
    · rw [← hnext]
      simp
    · rw [← hnext] at halike
      obtain ⟨rest', last, rfl, hrest', hlast⟩ := forall₂_append_parts halike
      cases hlast with
      | @cons _ stop' _ _ hstopAlike hnothing =>
        cases hnothing
        obtain ⟨after', hseparated, hafter⟩ := hgiven sign value rest' hsign hrest'
        refine ⟨after', ?_, hafter⟩
        have hwritten := Written.variableDeclaration hkeyword hseparated (hstopAlike.category.trans hstop)
        simpa using hwritten

/-! ## Lines -/

/-- **A literal written behind a name adds a value** to the declaration. -/
theorem GivesLiteral.addsValues {line line' : List Char} (h : GivesLiteral line line') : AddsValues line line' := by
  obtain @⟨type, _, _, _, _, front, _, literal, _, hread, hw, hline, hplace, hliteral, hassignable, hidentifier, rfl⟩ := h
  obtain ⟨first, next, rest, rfl, hnext, hgiven⟩ := StatementTree.exists_given_of_written hw
  obtain ⟨sign, value, hscan, hsign, rfl⟩ := scansAs_value (size front) hliteral
  have hblank : ∀ c ∈ (" = ".toList ++ literal).head?, isSeparator c = true := by
    rintro _ ⟨⟩
    rfl
  obtain ⟨back, hread', halike⟩ := readLine_insert hread hline hplace hnext hscan hblank
  obtain ⟨after', hw', hafter⟩ := hgiven sign value back hsign halike
  refine .intro (by rw [hread]; exact hw) (by rw [hread']) (by rw [hread']; exact hw') ?_
  refine List.rel_append (List.forall₂_same.2 fun d _ => .refl type d) (.cons ?_ hafter)
  exact .given (.refl _) hassignable hidentifier

end BlockCheck
