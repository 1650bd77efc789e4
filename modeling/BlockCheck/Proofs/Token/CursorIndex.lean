import BlockCheck.Proofs.Token.Ahead

/-!
# A cursor is a place among the tokens

A cursor pulls its tokens from the line when it needs them, but it does what could be done with a place `i` in the list
of all tokens of the line: its current token is that at `i`, and its next token the one behind (`Cursor.At`). A request
that does not get its token leaves the cursor where it is; one that does moves it by one token. If the text behind the
new next token is no token, the request fails although it has moved the cursor, and from then on nothing moves it
(`Request.FollowsIndex`). This holds after all requests (`cursor_follows_index`), since each of them keeps the rest of
the line in step with the place (`Cursor.Follows`).
-/

namespace BlockCheck

namespace Cursor

/-! ## Requests -/

/-- What may be asked of a cursor. -/
inductive Request
  | expect (k : Category)
  | expectOneOf (ks : List Category)
  | advanceIf (k : Category)
  | advanceIfAny (ks : List Category)
  | finish
  | unexpected (expected : Expected)
  deriving DecidableEq, Repr

/-- What a request gives if it does not fail. -/
inductive Answer
  | token (t : Token)
  | token? (t? : Option Token)
  | advanced (yes : Bool)
  | finished
  | fault (f : SyntaxFault)
  deriving DecidableEq, Repr

namespace Request

def run : Request → CursorM Answer
  | expect k => .token <$> Cursor.expect k
  | expectOneOf ks => .token <$> Cursor.expectOneOf ks
  | advanceIf k => .advanced <$> Cursor.advanceIf k
  | advanceIfAny ks => .token? <$> Cursor.advanceIfAny ks
  | finish => (fun _ => .finished) <$> Cursor.finish
  | unexpected expected => do return .fault ((← get).unexpected expected)

/-- What the request gives, or why it fails, and the cursor after it. -/
def perform (q : Request) (c : Cursor) : Except SyntaxFault Answer × Cursor :=
  match q.run c with
  | .ok a c' => (.ok a, c')
  | .error f c' => (.error f, c')

/-- The categories of which the request takes the next token. -/
def takes : Request → List Category
  | expect k | advanceIf k => [k]
  | expectOneOf ks | advanceIfAny ks => ks
  | finish | unexpected _ => []

/-- What the request gives when it takes the token. The last two never take one. -/
def taken (t : Token) : Request → Answer
  | expect _ | expectOneOf _ => .token t
  | advanceIf _ => .advanced true
  | advanceIfAny _ => .token? (some t)
  | finish | unexpected _ => .finished

/-- The fault that the next token is not what is expected. -/
def mismatch (next : Option Token) (expected : Expected) : SyntaxFault :=
  .unexpectedToken expected (next.map Token.category) (next.map Token.span)

/-- What comes of the request when it does not take the next token. -/
def refused (next : Option Token) : Request → Except SyntaxFault Answer
  | expect k => .error (mismatch next (.category k))
  | expectOneOf ks => .error (mismatch next (.oneOf ks))
  | advanceIf _ => .ok (.advanced false)
  | advanceIfAny _ => .ok (.token? none)
  | finish => if next.isSome then .error (mismatch next .endOfStatement) else .ok .finished
  | unexpected expected => .ok (.fault (mismatch next expected))

end Request

/-- The cursor after the requests. -/
def after (c : Cursor) (qs : List Request) : Cursor := qs.foldl (fun c q => (q.perform c).2) c

/-- The token that a request has handed out: where it only says that it took one, this is now the current token. -/
def handedOut : Except SyntaxFault Answer × Cursor → Option Token
  | (.ok (.token t), _) => some t
  | (.ok (.token? t?), _) => t?
  | (.ok (.advanced true), c) => c.current
  | _ => none

/-- The tokens that the requests hand out. -/
def delivered : List Request → Cursor → List Token
  | [], _ => []
  | q :: qs, c => (handedOut (q.perform c)).toList ++ delivered qs (q.perform c).2

/-- The cursor stands on token number `i` and knows the one after it. On a line without tokens it stands nowhere. -/
structure At (r : Reading) (i : Nat) (c : Cursor) : Prop where
  inside : i ≤ r.tokens.length - 1
  current : c.current = r.tokens[i]?
  next : c.next = r.tokens[i + 1]?

/-- What the request does where the cursor stands on token number `i`. -/
structure Request.FollowsIndex (q : Request) (r : Reading) (i : Nat) (c : Cursor) : Prop where
  /-- If the next token is not one that the request takes, the cursor does not change. -/
  stays : (∀ t, r.tokens[i + 1]? = some t → t.category ∉ q.takes) → q.perform c = (q.refused r.tokens[i + 1]?, c)
  /-- Otherwise the request gives the token and moves to it. -/
  moves : ∀ t, r.tokens[i + 1]? = some t → t.category ∈ q.takes → (r.tokens[i + 2]? = none → r.failure = none) →
    ∃ c', q.perform c = (.ok (q.taken t), c') ∧ c'.At r (i + 1)
  /-- If text that is no token follows the token, the request fails, and nothing moves the cursor any more. -/
  fails : ∀ t f, r.tokens[i + 1]? = some t → t.category ∈ q.takes → r.tokens[i + 2]? = none → r.failure = some f →
    ∃ c', q.perform c = (.error f, c') ∧ c'.At r (i + 1) ∧ c'.next = none ∧ ∀ qs, c'.after qs = c'

/-! ## One request -/

variable {r : Reading} {i : Nat} {c c' : Cursor} {q : Request} {t : Token} {f : SyntaxFault}

theorem require_eq (ks : List Category) (expected : Expected) (c : Cursor) : require ks expected c =
    match takeIf ks.contains c with
    | .ok (some t) c' => .ok t c'
    | .ok none c' => .error (c'.unexpected expected) c'
    | .error f c' => .error f c' := by
  show EStateM.bind (takeIf ks.contains) _ c = _
  unfold EStateM.bind
  cases takeIf ks.contains c with
  | ok t? c' => cases t? <;> rfl
  | error f c' => rfl

theorem advanceIf_eq (k : Category) (c : Cursor) : advanceIf k c =
    match takeIf [k].contains c with
    | .ok t? c' => .ok t?.isSome c'
    | .error f c' => .error f c' := by
  show EStateM.map Option.isSome (takeIf [k].contains) c = _
  unfold EStateM.map
  cases takeIf [k].contains c <;> rfl

theorem takeIf_nil (c : Cursor) : takeIf ([] : List Category).contains c = .ok none c := by
  cases hn : c.next with
  | none => exact takeIf_none hn
  | some t => exact takeIf_of_not hn rfl

theorem Request.perform_of_map {α : Type} {m : CursorM α} {g : α → Answer} (h : q.run = g <$> m) (c : Cursor) :
    q.perform c = match m c with
      | .ok a c' => (.ok (g a), c')
      | .error f c' => (.error f, c') := by
  rw [perform, h]
  show (match EStateM.map g m c with | .ok a c' => _ | .error f c' => _) = _
  unfold EStateM.map
  cases m c <;> rfl

/-- Every request tries to take a token, and nothing else moves the cursor. -/
theorem Request.perform_eq (q : Request) (c : Cursor) : q.perform c =
    match takeIf q.takes.contains c with
    | .ok (some t) c' => (.ok (q.taken t), c')
    | .ok none c' => (q.refused c'.next, c')
    | .error f c' => (.error f, c') := by
  cases q with
  | expect k =>
    rw [perform_of_map rfl, Cursor.expect, require_eq, takes]
    cases takeIf [k].contains c with
    | ok t? c' => cases t? <;> rfl
    | error f c' => rfl
  | expectOneOf ks =>
    rw [perform_of_map rfl, Cursor.expectOneOf, require_eq, takes]
    cases takeIf ks.contains c with
    | ok t? c' => cases t? <;> rfl
    | error f c' => rfl
  | advanceIf k =>
    rw [perform_of_map rfl, advanceIf_eq, takes]
    cases takeIf [k].contains c with
    | ok t? c' => cases t? <;> rfl
    | error f c' => rfl
  | advanceIfAny ks =>
    rw [perform_of_map rfl, Cursor.advanceIfAny, takes]
    cases takeIf ks.contains c with
    | ok t? c' => cases t? <;> rfl
    | error f c' => rfl
  | finish =>
    rw [perform_of_map rfl, takes, takeIf_nil]
    cases c with
    | mk current next scanner => cases next <;> rfl
  | unexpected expected =>
    rw [takes, takeIf_nil]
    rfl

/-! ## The place of a cursor -/

/-- The cursor stands on token number `i`, and the tokens behind the next one are what it has not yet pulled. -/
structure Follows (r : Reading) (i : Nat) (c : Cursor) : Prop extends c.At r i where
  behind : c.next ≠ none → c.scanner.reading = ⟨r.tokens.drop (i + 2), r.failure⟩

/-- **A cursor starts on the first token.** -/
theorem follows_ofLine {line : List Char} (h : ofLine line = .ok c) : c.Follows (readLine line) 0 ∧
    (0 + 1 = (readLine line).tokens.length → (readLine line).failure = none) := by
  rcases ofScanner_ok h with ⟨-, hread⟩ | ⟨t, hcurrent, hread⟩
  · obtain rfl : c = ⟨none, none, .ofLine line⟩ := by
      cases (ofScanner_of_reading_empty hread).symm.trans h
      rfl
    have hline : readLine line = .empty := hread
    rw [hline]
    exact ⟨⟨⟨Nat.le_refl 0, rfl, rfl⟩, fun hnext => absurd rfl hnext⟩, fun _ => rfl⟩
  · have hline : readLine line = c.ahead.cons t := hread
    rw [hline]
    refine ⟨⟨⟨Nat.zero_le _, hcurrent, ?_⟩, fun hnext => ?_⟩, fun hlength => ?_⟩
    · rw [← head?_ahead]
      exact List.head?_eq_getElem?
    · obtain ⟨u, hu⟩ := Option.ne_none_iff_exists'.1 hnext
      rw [ahead_some hu]
      rfl
    · exact c.clear_ahead (List.length_eq_zero_iff.1 (Nat.succ.inj hlength).symm)

/-- The cursor moves onto the next token. It fails if the text behind that is no token, but has moved all the same. -/
theorem Follows.advance (h : c.Follows r i) (hnext : c.next = some t) :
    ∃ c', c'.Follows r (i + 1) ∧
      (advance c = .ok () c' ∧ (r.tokens[i + 2]? = none → r.failure = none) ∨
        ∃ f, advance c = .error f c' ∧ r.tokens[i + 2]? = none ∧ r.failure = some f) := by
  have hbehind := h.behind (by rw [hnext]; exact Option.some_ne_none t)
  have htoken : r.tokens[i + 1]? = some t := h.next ▸ hnext
  have hinside : i + 1 ≤ r.tokens.length - 1 := by
    have hlength := (List.getElem?_eq_some_iff.1 htoken).1
    omega
  have hdrop : r.tokens[i + 2]? = (r.tokens.drop (i + 2)).head? := by rw [List.head?_drop]
  rcases hp : c.scanner.pull with ⟨f | next, rest⟩
  · have hread := hbehind.symm.trans (Scanner.reading_of_pull_error hp)
    obtain ⟨hnone, hfailure⟩ := Reading.mk.injEq .. ▸ hread
    rw [hnone] at hdrop
    refine ⟨⟨c.next, none, rest⟩, ⟨⟨hinside, h.next, hdrop.symm⟩, fun hne => absurd rfl hne⟩, ?_⟩
    refine .inr ⟨f, ?_, hdrop, hfailure⟩
    rw [Cursor.advance, hp]
  · cases next with
    | none =>
      have hread := hbehind.symm.trans (Scanner.reading_of_pull_none hp)
      obtain ⟨hnone, hfailure⟩ := Reading.mk.injEq .. ▸ hread
      rw [hnone] at hdrop
      refine ⟨⟨c.next, none, rest⟩, ⟨⟨hinside, h.next, hdrop.symm⟩, fun hne => absurd rfl hne⟩, ?_⟩
      refine .inl ⟨?_, fun _ => hfailure⟩
      rw [Cursor.advance, hp]
    | some u =>
      have hread := hbehind.symm.trans (Scanner.reading_of_pull_some hp)
      obtain ⟨hcons, hfailure⟩ := Reading.mk.injEq .. ▸ hread
      rw [hcons] at hdrop
      refine ⟨⟨c.next, some u, rest⟩, ⟨⟨hinside, h.next, hdrop.symm⟩, fun _ => ?_⟩, .inl ⟨?_, fun hnone => ?_⟩⟩
      · have htail : r.tokens.drop (i + 1 + 2) = rest.reading.tokens := by
          rw [← List.tail_drop, hcons]
          rfl
        rw [htail, hfailure]
      · rw [Cursor.advance, hp]
      · rw [hdrop] at hnone
        cases hnone

/-! ## Requests at a place -/

theorem perform_of_refused (h : ∀ t, c.next = some t → t.category ∉ q.takes) : q.perform c = (q.refused c.next, c) := by
  have htake : takeIf q.takes.contains c = .ok none c := by
    cases hn : c.next with
    | none => exact takeIf_none hn
    | some t => exact takeIf_of_not hn (Bool.eq_false_iff.2 fun hk => h t hn (List.contains_iff_mem.1 hk))
  rw [q.perform_eq, htake]

theorem perform_of_taken (hnext : c.next = some t) (htakes : t.category ∈ q.takes) :
    q.perform c = match advance c with
      | .ok _ c' => (.ok (q.taken t), c')
      | .error f c' => (.error f, c') := by
  rw [q.perform_eq, takeIf_eq hnext (List.contains_iff_mem.2 htakes)]
  cases advance c <;> rfl

/-- **All that a request can do**: it stays because it does not take the next token, or it takes the token and moves,
and then it may fail because of the text behind. -/
theorem Follows.perform_cases (h : c.Follows r i) (q : Request) :
    (∀ t, r.tokens[i + 1]? = some t → t.category ∉ q.takes) ∧ q.perform c = (q.refused r.tokens[i + 1]?, c) ∨
    ∃ t c', r.tokens[i + 1]? = some t ∧ t.category ∈ q.takes ∧ c'.Follows r (i + 1) ∧
      (q.perform c = (.ok (q.taken t), c') ∧ (r.tokens[i + 2]? = none → r.failure = none) ∨
        ∃ f, q.perform c = (.error f, c') ∧ r.tokens[i + 2]? = none ∧ r.failure = some f) := by
  by_cases htaken : ∃ t, r.tokens[i + 1]? = some t ∧ t.category ∈ q.takes
  · obtain ⟨t, htoken, htakes⟩ := htaken
    have hnext := h.next.trans htoken
    obtain ⟨c', hc', ⟨hadvance, hclear⟩ | ⟨f, hadvance, hfailure⟩⟩ := h.advance hnext
    · exact .inr ⟨t, c', htoken, htakes, hc', .inl ⟨by rw [perform_of_taken hnext htakes, hadvance], hclear⟩⟩
    · exact .inr ⟨t, c', htoken, htakes, hc', .inr ⟨f, by rw [perform_of_taken hnext htakes, hadvance], hfailure⟩⟩
  · have hrefused : ∀ t, r.tokens[i + 1]? = some t → t.category ∉ q.takes := fun t ht htakes => htaken ⟨t, ht, htakes⟩
    refine .inl ⟨hrefused, ?_⟩
    rw [← h.next] at hrefused ⊢
    exact perform_of_refused hrefused

/-- A cursor without a next token stays where it is. -/
theorem perform_of_next_none (h : c.next = none) (q : Request) : q.perform c = (q.refused none, c) := by
  have hrefused := perform_of_refused (q := q) (c := c) fun t ht => by rw [h] at ht; cases ht
  rwa [h] at hrefused

theorem after_of_next_none (h : c.next = none) (qs : List Request) : c.after qs = c := by
  induction qs with
  | nil => rfl
  | cons q qs ih =>
    rw [after, List.foldl_cons, perform_of_next_none h]
    exact ih

theorem Follows.followsIndex (h : c.Follows r i) (q : Request) : q.FollowsIndex r i c where
  stays := fun hrefused => by
    rcases h.perform_cases q with ⟨-, hperform⟩ | ⟨t, c', htoken, htakes, -⟩
    · exact hperform
    · exact absurd htakes (hrefused t htoken)
  moves := fun t htoken htakes hclear => by
    rcases h.perform_cases q with ⟨hrefused, -⟩ | ⟨t', c', htoken', -, hc', ⟨hperform, -⟩ | ⟨f, -, hnone, hfailure⟩⟩
    · exact absurd htakes (hrefused t htoken)
    · obtain rfl := Option.some.inj (htoken.symm.trans htoken')
      exact ⟨c', hperform, hc'.toAt⟩
    · rw [hclear hnone] at hfailure
      cases hfailure
  fails := fun t f htoken htakes hnone hfailure => by
    rcases h.perform_cases q with ⟨hrefused, -⟩ | ⟨-, c', -, -, hc', ⟨-, hclear⟩ | ⟨f', hperform, -, hfailure'⟩⟩
    · exact absurd htakes (hrefused t htoken)
    · rw [hclear hnone] at hfailure
      cases hfailure
    · obtain rfl := Option.some.inj (hfailure.symm.trans hfailure')
      have hlast := hc'.next.trans hnone
      exact ⟨c', hperform, hc'.toAt, hlast, after_of_next_none hlast⟩

/-! ## Runs -/

theorem handedOut_refused (next : Option Token) (q : Request) (c : Cursor) : handedOut (q.refused next, c) = none := by
  cases q with
  | finish => cases next <;> rfl
  | _ => rfl

theorem handedOut_taken (htakes : t.category ∈ q.takes) (hcurrent : c.current = some t) :
    handedOut (.ok (q.taken t), c) = some t := by
  cases q with
  | expect | expectOneOf | advanceIfAny => rfl
  | advanceIf => exact hcurrent
  | finish | unexpected => cases htakes

theorem delivered_of_next_none (h : c.next = none) (qs : List Request) : delivered qs c = [] := by
  induction qs with
  | nil => rfl
  | cons q qs ih => rw [delivered, perform_of_next_none h, handedOut_refused, ih]; rfl

/-- The cursor has come from place `i` to place `j` by handing out `n` tokens. It has handed out all up to its current
one, but for this if the move onto it has failed. -/
def CameBy (r : Reading) (i j n : Nat) : Prop :=
  j = i + n ∧ (j + 1 = r.tokens.length → r.failure = none) ∨ j = i + n + 1 ∧ j + 1 = r.tokens.length ∧ r.failure ≠ none

/-- **Every run of requests** keeps the cursor at a place, and hands out the tokens up to there one after another. -/
theorem Follows.run (h : c.Follows r i) (hclear : i + 1 = r.tokens.length → r.failure = none) (qs : List Request) :
    ∃ j n, (c.after qs).Follows r j ∧ delivered qs c = (r.tokens.drop (i + 1)).take n ∧ CameBy r i j n := by
  induction qs generalizing c i with
  | nil => exact ⟨i, 0, h, by rw [List.take_zero]; rfl, .inl ⟨rfl, hclear⟩⟩
  | cons q qs ih =>
    rw [after, List.foldl_cons, delivered]
    rcases h.perform_cases q with ⟨-, hperform⟩ | ⟨t, c', htoken, htakes, hc', hmoved⟩
    · rw [hperform, handedOut_refused]
      exact ih h hclear
    · have hcons : r.tokens.drop (i + 1) = t :: r.tokens.drop (i + 2) := by
        obtain ⟨hlt, ht⟩ := List.getElem?_eq_some_iff.1 htoken
        rw [List.drop_eq_getElem_cons hlt, ht]
      rcases hmoved with ⟨hperform, hclear'⟩ | ⟨f, hperform, hnone, hfailure⟩
      · have hclear' : i + 1 + 1 = r.tokens.length → r.failure = none := fun hlength =>
          hclear' (List.getElem?_eq_none_iff.2 hlength.ge)
        obtain ⟨j, n, hj, hdelivered, hcame⟩ := ih hc' hclear'
        rw [hperform, handedOut_taken htakes (hc'.current.trans htoken), hdelivered, hcons]
        refine ⟨j, n + 1, hj, rfl, hcame.imp ?_ ?_⟩
        · exact And.imp_left fun hj => by omega
        · exact And.imp_left fun hj => by omega
      · have hlast := hc'.next.trans hnone
        have hlength : i + 1 + 1 = r.tokens.length := by
          have hlt := (List.getElem?_eq_some_iff.1 htoken).1
          have hge := List.getElem?_eq_none_iff.1 hnone
          omega
        rw [hperform]
        refine ⟨i + 1, 0, ?_, ?_, .inr ⟨rfl, hlength, by rw [hfailure]; exact Option.some_ne_none f⟩⟩
        · rw [← after, after_of_next_none hlast]
          exact hc'
        · rw [delivered_of_next_none hlast, List.take_zero]
          rfl

/-- **A cursor is a place among the tokens of its line.** After any requests it stands on a token, and every request
does there what the tokens say. No token has been left out or handed out twice: those handed out are the ones behind the
first up to the current one, or up to the one before it if the move onto it has failed. -/
theorem cursor_follows_index {line : List Char} {c : Cursor} (h : ofLine line = .ok c) (qs : List Request) :
    ∃ i n, (c.after qs).At (readLine line) i ∧ (∀ q : Request, q.FollowsIndex (readLine line) i (c.after qs)) ∧
      delivered qs c = (readLine line).tokens.tail.take n ∧ CameBy (readLine line) 0 i n := by
  obtain ⟨hfollows, hclear⟩ := follows_ofLine h
  obtain ⟨i, n, hi, hdelivered, hcame⟩ := hfollows.run hclear qs
  exact ⟨i, n, hi.toAt, hi.followsIndex, by rw [hdelivered, List.drop_one], hcame⟩

/-- A request for the literal in front of text that is no token moves the cursor and fails, so only the sign before it
has been handed out. -/
theorem cursor_follows_index_before_unknown : ∃ c qs i n, ofLine "a = 1 #".toList = .ok c ∧
    qs = [.advanceIf .semicolon, .expectOneOf [.comma, .assign], .unexpected .value, .advanceIfAny [.intLiteral],
      .expect .semicolon] ∧
    (c.after qs).At (readLine "a = 1 #".toList) i ∧ (c.after qs).current = some ⟨.intLiteral, some "1", ⟨4, 1⟩⟩ ∧
    delivered qs c = (readLine "a = 1 #".toList).tokens.tail.take n ∧ delivered qs c = [⟨.assign, none, ⟨2, 1⟩⟩] ∧
    CameBy (readLine "a = 1 #".toList) 0 i n := by
  let c : Cursor := ⟨some ⟨.identifier, some "a", ⟨0, 1⟩⟩, some ⟨.assign, none, ⟨2, 1⟩⟩, ⟨4, "1 #".toList⟩⟩
  let qs : List Request := [.advanceIf .semicolon, .expectOneOf [.comma, .assign], .unexpected .value,
    .advanceIfAny [.intLiteral], .expect .semicolon]
  have hline : ofLine "a = 1 #".toList = .ok c := by decide +kernel
  have hcurrent : (c.after qs).current = some ⟨.intLiteral, some "1", ⟨4, 1⟩⟩ := by decide +kernel
  have hsign : delivered qs c = [⟨.assign, none, ⟨2, 1⟩⟩] := by decide +kernel
  obtain ⟨i, n, hat, -, hdelivered, hcame⟩ := cursor_follows_index hline qs
  exact ⟨c, qs, i, n, hline, rfl, hat, hcurrent, hdelivered, hsign, hcame⟩

end Cursor

end BlockCheck
