import BlockCheck.Proofs.Line.Acceptance

/-!
# Reading a statement off its tokens

The grammar of statements is not ambiguous: tokens are written as one statement at most, and
`StatementTree.ofTokens?` reads it off them from left to right (`StatementTree.Written.ofTokens?`). Hence an accepted
line has one statement, which the line alone determines (`statementOn?`), and the check of the line is the check of
this statement (`ScopeChain.statementOn?_of_checkLine`).
-/

namespace BlockCheck

/-! ## Lists of items -/

/-- The first token, and every second one from there. -/
def everySecond : List Token → List Token
  | t :: _ :: ts => t :: everySecond ts
  | ts => ts

theorem everySecond_of_separated {separators : List Category} {values ts : List Token}
    (h : Separated separators Token.Written values ts) : everySecond ts = values := by
  induction h with
  | one hitem => rw [hitem]; rfl
  | more hitem _ _ ih => rw [hitem, List.singleton_append, everySecond, ih]

theorem everySecond_of_listed {values ts : List Token} (h : Listed Token.Written values ts) :
    everySecond ts = values := by
  rcases h with ⟨rfl, rfl⟩ | h
  · rfl
  · exact everySecond_of_separated h

namespace Declarator

/-- Reads declarators with a token between any two. -/
def readAll : List Token → List Declarator
  | [] => []
  | [name] | [name, _] => [⟨name, none⟩]
  | [name, sign, value] =>
    if sign.category = .assign then [⟨name, some value⟩] else ⟨name, none⟩ :: readAll [value]
  | name :: sign :: value :: separator :: ts =>
    if sign.category = .assign then ⟨name, some value⟩ :: readAll ts
    else ⟨name, none⟩ :: readAll (value :: separator :: ts)

theorem readAll_bare {name separator : Token} (ts : List Token) (h : separator.category ≠ .assign) :
    readAll (name :: separator :: ts) = ⟨name, none⟩ :: readAll ts := by
  match ts with
  | [] => rfl
  | [_] => exact if_neg h
  | _ :: _ :: _ => exact if_neg h

theorem readAll_valued {name sign value separator : Token} (ts : List Token) (h : sign.category = .assign) :
    readAll (name :: sign :: value :: separator :: ts) = ⟨name, some value⟩ :: readAll ts := if_pos h

theorem readAll_of_separated {ds : List Declarator} {ts : List Token} (h : Separated [.comma] Written ds ts) :
    readAll ts = ds := by
  induction h with
  | one hitem =>
    cases hitem with
    | bare => rfl
    | valued _ hsign => exact if_pos hsign
  | more hitem hseparator _ ih =>
    cases hitem with
    | bare =>
      have hcomma : Token.category _ = .comma := List.mem_singleton.1 hseparator
      rw [List.singleton_append, readAll_bare _ (by rw [hcomma]; decide), ih]
    | valued _ hsign =>
      rw [List.cons_append, List.cons_append, List.singleton_append, readAll_valued _ hsign, ih]

end Declarator

namespace Parameter

/-- The parameter with a keyword and a name. -/
def read (isFinal : Bool) (keyword name : Token) : List Parameter :=
  ((ValueType.ofKeyword? keyword.category).map fun type => ⟨isFinal, type, name⟩).toList

/-- Reads parameters with a token between any two. -/
def readAll : List Token → List Parameter
  | [] | [_] => []
  | [keyword, name] => read false keyword name
  | [first, second, third] => if first.category = .kwFinal then read true second third else read false first second
  | first :: second :: third :: fourth :: ts =>
    if first.category = .kwFinal then read true second third ++ readAll ts
    else read false first second ++ readAll (fourth :: ts)

theorem read_of_keyword {isFinal : Bool} {keyword : Token} {type : ValueType} (name : Token)
    (h : keyword.category = type.keyword) : read isFinal keyword name = [⟨isFinal, type, name⟩] := by
  rw [read, ValueType.ofKeyword?_eq_some_iff.2 h]
  rfl

/-- A keyword of a type does not make a parameter final. -/
theorem ne_kwFinal {keyword : Token} {type : ValueType} (h : keyword.category = type.keyword) :
    keyword.category ≠ .kwFinal := by
  rw [h]
  cases type <;> decide

theorem readAll_plain {keyword name separator : Token} (ts : List Token) (h : keyword.category ≠ .kwFinal) :
    readAll (keyword :: name :: separator :: ts) = read false keyword name ++ readAll ts := by
  match ts with
  | [] => exact (if_neg h).trans (List.append_nil _).symm
  | _ :: _ => exact if_neg h

theorem readAll_final {first keyword name separator : Token} (ts : List Token) (h : first.category = .kwFinal) :
    readAll (first :: keyword :: name :: separator :: ts) = read true keyword name ++ readAll ts := if_pos h

theorem readAll_of_listed {ps : List Parameter} {ts : List Token} (h : Listed Written ps ts) : readAll ts = ps := by
  rcases h with ⟨rfl, rfl⟩ | h
  · rfl
  · induction h with
    | one hitem =>
      cases hitem with
      | plain hkeyword => exact read_of_keyword _ hkeyword
      | final hfirst hkeyword => exact (if_pos hfirst).trans (read_of_keyword _ hkeyword)
    | more hitem _ _ ih =>
      cases hitem with
      | plain hkeyword =>
        rw [List.cons_append, List.singleton_append, readAll_plain _ (ne_kwFinal hkeyword), read_of_keyword _ hkeyword,
          ih]
        rfl
      | final hfirst hkeyword =>
        rw [List.cons_append, List.cons_append, List.singleton_append, readAll_final _ hfirst,
          read_of_keyword _ hkeyword, ih]
        rfl

end Parameter

/-! ## Statements -/

namespace StatementTree

/-- Reads a declaration of variables after a possible `final`. -/
def readDeclaration (isFinal : Bool) : List Token → Option StatementTree
  | [] => none
  | keyword :: ts => (ValueType.ofKeyword? keyword.category).map fun type =>
      .variableDeclaration isFinal type (Declarator.readAll ts.dropLast)

/-- Reads the statement that is written with the tokens. -/
def ofTokens? : List Token → Option StatementTree
  | [] => none
  | first :: ts => do
    match ← StatementKind.ofCategories? first.category (ts.head?.map Token.category) with
    | .variableDeclaration =>
      if first.category = .kwFinal then readDeclaration true ts else readDeclaration false (first :: ts)
    | .returnStatement => some .returnStatement
    | .conditional => some (.conditional (everySecond ts.tail.dropLast.dropLast))
    | .methodDeclaration =>
      ts.head?.map fun name => .methodDeclaration name (Parameter.readAll ts.tail.tail.dropLast.dropLast)
    | .assignment => ts[1]?.map fun value => .assignment first value
    | .methodCall => some (.methodCall first (everySecond ts.tail.dropLast.dropLast))
    | .closeBlock => some .closeBlock

theorem readDeclaration_of_separated {isFinal : Bool} {type : ValueType} {keyword stop : Token}
    {ds : List Declarator} {ts : List Token} (hkeyword : keyword.category = type.keyword)
    (h : Separated [.comma] Declarator.Written ds ts) :
    readDeclaration isFinal (keyword :: (ts ++ [stop])) = some (.variableDeclaration isFinal type ds) := by
  rw [readDeclaration, ValueType.ofKeyword?_eq_some_iff.2 hkeyword, List.dropLast_concat,
    Declarator.readAll_of_separated h]
  rfl

/-- The two tokens at the end of a head or a call are no part of its list. -/
theorem dropLast_dropLast_pair (ts : List Token) (t u : Token) : (ts ++ [t, u]).dropLast.dropLast = ts := by
  rw [List.append_cons, List.dropLast_concat, List.dropLast_concat]

/-- **The grammar is not ambiguous**: the tokens determine the statement. -/
theorem Written.ofTokens? {st : StatementTree} {ts : List Token} (h : st.Written ts) :
    StatementTree.ofTokens? ts = some st := by
  obtain ⟨first, rest, hts, hkind⟩ := h.classify
  cases h with
  | variableDeclaration hkeyword hds _ =>
    cases hts
    simp only [StatementTree.ofTokens?, hkind, Option.bind_eq_bind, Option.bind_some, kind]
    rw [if_neg (Parameter.ne_kwFinal hkeyword)]
    exact readDeclaration_of_separated hkeyword hds
  | finalDeclaration hfirst hkeyword hds _ _ =>
    cases hts
    simp only [StatementTree.ofTokens?, hkind, Option.bind_eq_bind, Option.bind_some, kind]
    rw [if_pos hfirst]
    exact readDeclaration_of_separated hkeyword hds
  | conditional _ _ hoperands _ _ =>
    cases hts
    simp only [StatementTree.ofTokens?, hkind, Option.bind_eq_bind, Option.bind_some, kind, List.tail_cons]
    rw [dropLast_dropLast_pair, everySecond_of_separated hoperands]
  | methodDeclaration _ _ _ hps _ _ =>
    cases hts
    simp only [StatementTree.ofTokens?, hkind, Option.bind_eq_bind, Option.bind_some, kind, List.tail_cons]
    rw [dropLast_dropLast_pair, Parameter.readAll_of_listed hps]
    rfl
  | methodCall _ _ harguments _ _ =>
    cases hts
    simp only [StatementTree.ofTokens?, hkind, Option.bind_eq_bind, Option.bind_some, kind, List.tail_cons]
    rw [dropLast_dropLast_pair, everySecond_of_listed harguments]
  | assignment _ _ _ =>
    cases hts
    simp only [StatementTree.ofTokens?, hkind, Option.bind_eq_bind, Option.bind_some, kind]
    rfl
  | returnStatement _ _ | closeBlock _ =>
    cases hts
    simp only [StatementTree.ofTokens?, hkind, Option.bind_eq_bind, Option.bind_some, kind]

end StatementTree

/-! ## Lines -/

/-- The statement on a line; `none` if there is no token. -/
def statementOn? (line : List Char) : Option StatementTree := StatementTree.ofTokens? (readLine line).tokens

/-- **An accepted line is accepted for the statement on it**, and changes the scopes as this statement does. -/
theorem ScopeChain.statementOn?_of_checkLine {c c' : ScopeChain} {line : List Char} {kind? : Option StatementKind}
    (h : c.checkLine line = (.ok kind?, c')) :
    kind? = (statementOn? line).map StatementTree.kind ∧ (∀ st, statementOn? line = some st → st.Legal c) ∧
      c' = (statementOn? line).elim c (·.effect c) := by
  rcases checkLine_ok h with ⟨rfl, hread, rfl⟩ | ⟨st, rfl, -, hw, hlegal, rfl⟩
  · have hnone : statementOn? line = none := by rw [statementOn?, hread]; rfl
    rw [hnone]
    exact ⟨rfl, fun _ h => (nomatch h), rfl⟩
  · have hsome : statementOn? line = some st := hw.ofTokens?
    rw [hsome]
    exact ⟨rfl, fun _ h => Option.some.inj h ▸ hlegal, rfl⟩

end BlockCheck
