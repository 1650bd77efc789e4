import BlockCheck.Token.Cursor
import Mathlib.Data.List.TakeWhile

/-!
# What is ahead of a cursor

A cursor pulls its tokens from the line one at a time. What it has still to take is a reading (`Cursor.ahead`), and a
step that takes a token takes the first one of it (`takeIf_some`, `takeIf_yields`), so the rules that use a cursor can
be stated about lists of tokens. A step fails on text that is no token only if nothing else is left, which a reading
that is `Clear` excludes.
-/

namespace BlockCheck

/-! ## Readings with tokens in front -/

namespace Reading

/-- The reading with tokens in front. -/
instance : HAppend (List Token) Reading Reading := ⟨fun ts r => ⟨ts ++ r.tokens, r.failure⟩⟩

@[simp] theorem nil_append (r : Reading) : ([] : List Token) ++ r = r := rfl

@[simp] theorem cons_append (t : Token) (ts : List Token) (r : Reading) : (t :: ts) ++ r = (ts ++ r).cons t := rfl

theorem append_assoc (ts us : List Token) (r : Reading) : (ts ++ us) ++ r = ts ++ (us ++ r) := by
  show Reading.mk ((ts ++ us) ++ r.tokens) r.failure = ⟨ts ++ (us ++ r.tokens), r.failure⟩
  rw [List.append_assoc]

@[simp] theorem tokens_append (ts : List Token) (r : Reading) : (ts ++ r).tokens = ts ++ r.tokens := rfl

theorem append_empty (ts : List Token) : ts ++ Reading.empty = ⟨ts, none⟩ := by
  show Reading.mk (ts ++ []) none = ⟨ts, none⟩
  rw [List.append_nil]

theorem cons_inj {t u : Token} {r q : Reading} (h : r.cons t = q.cons u) : t = u ∧ r = q := by
  cases r; cases q; cases h; exact ⟨rfl, rfl⟩

/-- The next item is no failure. -/
def Clear (r : Reading) : Prop := r.tokens = [] → r.failure = none

theorem clear_cons (t : Token) (r : Reading) : (r.cons t).Clear := fun h => by cases h

theorem clear_empty : Reading.empty.Clear := fun _ => rfl

theorem Clear.append {r : Reading} (h : r.Clear) : ∀ ts : List Token, (ts ++ r).Clear
  | [] => h
  | t :: ts => clear_cons t (ts ++ r)

/-- The next token, if there is one, is of none of the categories. -/
def Lacks (r : Reading) (ks : List Category) : Prop := ∀ t, r.tokens.head? = some t → t.category ∉ ks

theorem lacks_cons {t : Token} {ks : List Category} (h : t.category ∉ ks) (r : Reading) : (r.cons t).Lacks ks :=
  fun _ hu => Option.some.inj hu ▸ h

end Reading

/-! ## Pulling a token -/

namespace Scanner

theorem reading_of_pull_none {s s' : Scanner} (h : s.pull = (.ok none, s')) : s.reading = .empty := by
  rw [reading_eq]
  unfold pull at h
  cases hn : s.next? with
  | none => rfl
  | some item =>
    obtain ⟨t | f, rest⟩ := item <;> rw [hn] at h <;> cases h

theorem reading_of_pull_some {s s' : Scanner} {t : Token} (h : s.pull = (.ok (some t), s')) :
    s.reading = s'.reading.cons t := by
  rw [reading_eq]
  unfold pull at h
  cases hn : s.next? with
  | none => rw [hn] at h; cases h
  | some item =>
    obtain ⟨t | f, rest⟩ := item <;> rw [hn] at h <;> cases h
    rfl

theorem reading_of_pull_error {s s' : Scanner} {f : SyntaxFault} (h : s.pull = (.error f, s')) :
    s.reading = ⟨[], some f⟩ := by
  rw [reading_eq]
  unfold pull at h
  cases hn : s.next? with
  | none => rw [hn] at h; cases h
  | some item =>
    obtain ⟨t | f, rest⟩ := item <;> rw [hn] at h <;> cases h
    rfl

theorem pull_of_reading_cons {s : Scanner} {t : Token} {r : Reading} (h : s.reading = r.cons t) :
    ∃ s', s.pull = (.ok (some t), s') ∧ s'.reading = r := by
  cases hp : s.pull with
  | mk item s' =>
    match item with
    | .ok none => cases (reading_of_pull_none hp).symm.trans h
    | .error f => cases (reading_of_pull_error hp).symm.trans h
    | .ok (some u) =>
      obtain ⟨rfl, rfl⟩ := Reading.cons_inj ((reading_of_pull_some hp).symm.trans h)
      exact ⟨s', rfl, rfl⟩

theorem pull_of_reading_empty {s : Scanner} (h : s.reading = .empty) : s.pull = (.ok none, s) := by
  rw [reading_eq] at h
  unfold pull
  cases hn : s.next? with
  | none => rfl
  | some item =>
    obtain ⟨f | t, rest⟩ := item <;> rw [hn] at h <;> cases h

/-- There are no more tokens than characters. -/
theorem length_tokens_readItems_le (n : Nat) (s : Scanner) : (s.readItems n).tokens.length ≤ n := by
  induction n generalizing s with
  | zero => exact Nat.le_refl 0
  | succ n ih =>
    rw [readItems]
    cases s.next? with
    | none => exact Nat.zero_le _
    | some item =>
      obtain ⟨f | t, rest⟩ := item
      · exact Nat.zero_le _
      · exact Nat.succ_le_succ (ih rest)

theorem length_tokens_reading_le (s : Scanner) : s.reading.tokens.length ≤ s.rest.length :=
  length_tokens_readItems_le s.rest.length s

end Scanner

/-! ## The tokens ahead -/

namespace Cursor

/-- What the cursor has still to take. -/
def ahead (c : Cursor) : Reading :=
  match c.next with
  | none => .empty
  | some t => c.scanner.reading.cons t

theorem ahead_none {c : Cursor} (h : c.next = none) : c.ahead = .empty := by rw [ahead, h]

theorem ahead_some {c : Cursor} {t : Token} (h : c.next = some t) : c.ahead = c.scanner.reading.cons t := by
  rw [ahead, h]

/-- The next token is the first one ahead. -/
theorem next_of_ahead {c : Cursor} {t : Token} {r : Reading} (h : c.ahead = r.cons t) :
    c.next = some t ∧ c.scanner.reading = r := by
  cases hn : c.next with
  | none => rw [ahead_none hn] at h; cases congrArg Reading.tokens h
  | some u =>
    rw [ahead_some hn] at h
    obtain ⟨rfl, hr⟩ := Reading.cons_inj h
    exact ⟨rfl, hr⟩

theorem head?_ahead (c : Cursor) : c.ahead.tokens.head? = c.next := by
  cases hn : c.next with
  | none => rw [ahead_none hn]; rfl
  | some t => rw [ahead_some hn]; rfl

/-- What a cursor has ahead is clear: the token after the next one has been read. -/
theorem clear_ahead (c : Cursor) : c.ahead.Clear := by
  cases hn : c.next with
  | none => rw [ahead_none hn]; exact Reading.clear_empty
  | some t => rw [ahead_some hn]; exact Reading.clear_cons t _

/-- A line holds fewer tokens than the number of steps that is allowed for it. -/
theorem length_ahead_lt_bound (c : Cursor) : c.ahead.tokens.length < c.bound := by
  have h := c.scanner.length_tokens_reading_le
  cases hn : c.next with
  | none => rw [ahead_none hn]; exact Nat.succ_pos _
  | some t =>
    rw [ahead_some hn]
    show c.scanner.reading.tokens.length + 1 < c.scanner.rest.length + 2
    omega

theorem advance_ok {c c' : Cursor} {t : Token} (hn : c.next = some t) (h : advance c = .ok () c') :
    c.ahead = c'.ahead.cons t := by
  rw [ahead_some hn]
  unfold advance at h
  split at h
  · next next rest hp =>
    cases h
    cases next with
    | none => rw [Scanner.reading_of_pull_none hp]; rfl
    | some u => rw [Scanner.reading_of_pull_some hp]; rfl
  · cases h

theorem advance_yields {c : Cursor} (hr : c.scanner.reading.Clear) :
    ∃ c', advance c = .ok () c' ∧ c'.ahead = c.scanner.reading := by
  unfold advance
  split
  · next next rest hp =>
    refine ⟨_, rfl, ?_⟩
    cases next with
    | none => rw [Scanner.reading_of_pull_none hp]; rfl
    | some u => rw [Scanner.reading_of_pull_some hp]; rfl
  · next f rest hp =>
    rw [Scanner.reading_of_pull_error hp] at hr
    cases hr rfl

/-! ## Taking a token -/

theorem takeIf_eq {test : Category → Bool} {c : Cursor} {t : Token} (h : c.next = some t)
    (ht : test t.category = true) :
    takeIf test c = match advance c with
      | .ok _ c' => .ok (some t) c'
      | .error f c' => .error f c' := by
  rw [takeIf_of_pass h ht]
  show EStateM.map (fun _ => some t) advance c = _
  unfold EStateM.map
  cases advance c <;> rfl

theorem takeIf_some {test : Category → Bool} {c c' : Cursor} {t : Token} (h : takeIf test c = .ok (some t) c') :
    test t.category = true ∧ c.ahead = c'.ahead.cons t := by
  cases hn : c.next with
  | none => rw [takeIf_none hn] at h; cases h
  | some u =>
    cases ht : test u.category with
    | false => rw [takeIf_of_not hn ht] at h; cases h
    | true =>
      rw [takeIf_eq hn ht] at h
      cases ha : advance c with
      | error f c'' => rw [ha] at h; cases h
      | ok _ c'' =>
        rw [ha] at h
        cases h
        exact ⟨ht, advance_ok hn ha⟩

/-- A step that takes no token leaves the cursor where it is. -/
theorem takeIf_ok_none {test : Category → Bool} {c c' : Cursor} (h : takeIf test c = .ok none c') : c' = c := by
  cases hn : c.next with
  | none => rw [takeIf_none hn] at h; cases h; rfl
  | some u =>
    cases ht : test u.category with
    | false => rw [takeIf_of_not hn ht] at h; cases h; rfl
    | true =>
      rw [takeIf_eq hn ht] at h
      cases ha : advance c with
      | error f c'' => rw [ha] at h; cases h
      | ok _ c'' => rw [ha] at h; cases h

theorem takeIf_yields {test : Category → Bool} {c : Cursor} {t : Token} {r : Reading} (h : c.ahead = r.cons t)
    (ht : test t.category = true) (hr : r.Clear) : ∃ c', takeIf test c = .ok (some t) c' ∧ c'.ahead = r := by
  obtain ⟨hn, rfl⟩ := next_of_ahead h
  obtain ⟨c', ha, hc⟩ := advance_yields hr
  exact ⟨c', by rw [takeIf_eq hn ht, ha], hc⟩

/-- Where the first token ahead is of none of the categories, no token is taken. -/
theorem advanceIfAny_skips {ks : List Category} {c : Cursor} (h : c.ahead.Lacks ks) :
    advanceIfAny ks c = .ok none c := by
  cases hn : c.next with
  | none => exact takeIf_none hn
  | some t =>
    refine takeIf_of_not hn (Bool.eq_false_iff.2 fun ht => ?_)
    exact h t (by rw [head?_ahead, hn]) (List.contains_iff_mem.1 ht)

/-- Where no token is taken, the first one ahead is of none of the categories. -/
theorem lacks_of_advanceIfAny {ks : List Category} {c c' : Cursor} (h : advanceIfAny ks c = .ok none c') :
    c.ahead.Lacks ks := by
  intro t ht hmem
  rw [head?_ahead] at ht
  have htake : takeIf ks.contains c = .ok none c' := h
  rw [takeIf_eq ht (List.contains_iff_mem.2 hmem)] at htake
  cases ha : advance c <;> rw [ha] at htake <;> cases htake

/-! ## The first token -/

theorem ofScanner_ok {s : Scanner} {c : Cursor} (h : ofScanner s = .ok c) :
    c.current = none ∧ s.reading = .empty ∨ ∃ t, c.current = some t ∧ s.reading = c.ahead.cons t := by
  unfold ofScanner at h
  split at h
  · cases h
  · next current s₁ h₁ =>
    split at h
    · cases h
    · next next s₂ h₂ =>
      cases h
      cases current with
      | none => exact .inl ⟨rfl, Scanner.reading_of_pull_none h₁⟩
      | some t =>
        refine .inr ⟨t, rfl, ?_⟩
        rw [Scanner.reading_of_pull_some h₁]
        cases next with
        | none => rw [Scanner.reading_of_pull_none h₂]; rfl
        | some u => rw [Scanner.reading_of_pull_some h₂]; rfl

theorem ofScanner_of_reading_empty {s : Scanner} (h : s.reading = .empty) :
    ofScanner s = .ok ⟨none, none, s⟩ := by
  have hp := Scanner.pull_of_reading_empty h
  simp only [ofScanner, hp]

theorem ofScanner_of_reading_cons {s : Scanner} {t : Token} {r : Reading} (h : s.reading = r.cons t) (hr : r.Clear) :
    ∃ c, ofScanner s = .ok c ∧ c.current = some t ∧ c.ahead = r := by
  obtain ⟨s₁, h₁, rfl⟩ := Scanner.pull_of_reading_cons h
  cases h₂ : s₁.pull with
  | mk item s₂ =>
    match item with
    | .ok none =>
      refine ⟨⟨some t, none, s₂⟩, by simp only [ofScanner, h₁, h₂], rfl, ?_⟩
      exact (Scanner.reading_of_pull_none h₂).symm
    | .ok (some u) =>
      refine ⟨⟨some t, some u, s₂⟩, by simp only [ofScanner, h₁, h₂], rfl, ?_⟩
      exact (Scanner.reading_of_pull_some h₂).symm
    | .error f =>
      rw [Scanner.reading_of_pull_error h₂] at hr
      cases hr rfl

end Cursor

/-! ## Lines without tokens -/

theorem Scanner.reading_eq_empty_iff {s : Scanner} : s.reading = .empty ↔ s.rest = [] := by
  rw [reading_eq]
  unfold next?
  cases hs : s.rest with
  | nil => simp
  | cons c cs =>
    cases Category.firstMatch? (c :: cs) with
    | none => simp [Reading.push, Reading.empty]
    | some kn => simp [Reading.push, Reading.cons, Reading.empty]

/-- A line holds no token and nothing else that could be read if it is a comment or blank. -/
theorem readLine_eq_empty_iff {line : List Char} :
    readLine line = .empty ↔ isComment line = true ∨ Text.allBlank line = true := by
  unfold readLine Scanner.ofLine
  rw [Scanner.reading_eq_empty_iff]
  cases isComment line with
  | true => exact ⟨fun _ => .inl rfl, fun _ => rfl⟩
  | false =>
    show Text.skipBlanks line = [] ↔ false = true ∨ line.all Text.isBlank = true
    rw [Text.skipBlanks, List.dropWhile_eq_nil_iff, List.all_eq_true]
    exact ⟨.inr, fun h => h.resolve_left Bool.false_ne_true⟩

end BlockCheck
