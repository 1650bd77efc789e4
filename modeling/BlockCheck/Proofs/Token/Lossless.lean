import BlockCheck.Proofs.Token.Pieces

/-!
# Nothing of a line is lost

What holds of all tokens of a line is an induction on its pieces: they mark what they are made of (`ScansAs.quotes`),
they stand one behind the other (`ScansAs.ordered`), only blanks stand between them (`ScansAs.covers`), and what stops
the scanner stands right behind the last of them (`ScansAs.stopped`). The items of a line are what the calls of the
scanner give one after another, and the calls behind them give nothing (`Scanner.call_eq`). All this together is
`reading_lossless`.
-/

namespace BlockCheck

open Text (Span size isBlank allBlank)

/-- The first byte behind the run. -/
def Text.Span.stop (s : Span) : Nat := s.offset + s.length

/-! ## Calls of the scanner -/

/-- The tokens of a line and the fault behind them. -/
def Reading.items (r : Reading) : List (Except SyntaxFault Token) := r.tokens.map .ok ++ r.failure.toList.map .error

/-- What the call number `i` for the next item gives. Where there is no next item the scanner stays where it is. -/
def Scanner.call : Nat → Scanner → Option (Except SyntaxFault Token)
  | 0, s => s.next?.map Prod.fst
  | i + 1, s =>
    match s.next? with
    | none => s.call i
    | some (_, s') => s'.call i

namespace Reading

@[simp] theorem items_empty : empty.items = [] := rfl

@[simp] theorem items_cons (t : Token) (r : Reading) : (r.cons t).items = .ok t :: r.items := rfl

@[simp] theorem items_fault (f : SyntaxFault) : items ⟨[], some f⟩ = [.error f] := rfl

end Reading

namespace Scanner

/-- Behind the last item every call gives nothing. -/
theorem call_of_next?_none {s : Scanner} (h : s.next? = none) (i : Nat) : s.call i = none := by
  induction i with
  | zero => simp [call, h]
  | succ i ih => simp [call, h, ih]

/-- After text that is no token every call gives nothing. -/
theorem call_atEnd (n i : Nat) : (atEnd n).call i = none := call_of_next?_none (next?_atEnd n) i

/-- Where text is no token the scanner gives up the rest of the line. -/
theorem exists_atEnd_of_next? {s s' : Scanner} {f : SyntaxFault} (h : s.next? = some (.error f, s')) :
    ∃ n, s' = atEnd n := by
  unfold next? at h
  split at h
  · cases h
  · split at h <;> cases h
    exact ⟨_, rfl⟩

/-- **The calls of the scanner** give the items of the line, one each, and then nothing. -/
theorem call_eq (s : Scanner) (i : Nat) : s.call i = s.reading.items[i]? := by
  induction i generalizing s with
  | zero =>
    rw [call, reading_eq]
    cases s.next? with
    | none => rfl
    | some item => obtain ⟨f | t, s'⟩ := item <;> rfl
  | succ i ih =>
    rw [call, reading_eq]
    cases hnext : s.next? with
    | none => simpa using call_of_next?_none hnext i
    | some item =>
      obtain ⟨f | t, s'⟩ := item
      · obtain ⟨n, rfl⟩ := exists_atEnd_of_next? hnext
        simpa [Reading.push] using call_atEnd n i
      · simpa [Reading.push] using ih s'

end Scanner

/-! ## What the pieces say of the tokens -/

/-- Where no category comes first, none matches. -/
theorem Category.firstMatch?_eq_none {cs : List Char} :
    firstMatch? cs = none ↔ ∀ k : Category, k.lexemeLength? cs = none := by
  simp [firstMatch?, List.findSome?_eq_none_iff, mem_priority]

/-- The token marks a part of the line that is not empty, and keeps the text of it if tokens of its category do. -/
def Token.Quotes (line : List Char) (t : Token) : Prop :=
  ∃ part, part ≠ [] ∧ t.span.Marks line part ∧
    t.text = if t.category.keepsText then some (String.ofList part) else none

/-- Every character of the line is part of one of the tokens or blank. -/
def CoveredBy (line : List Char) (ts : List Token) : Prop :=
  ∀ before c after, line = before ++ c :: after → isBlank c = false →
    ∃ t ∈ ts, t.span.offset ≤ size before ∧ size before + c.utf8Size ≤ t.span.stop

/-- The first byte behind the last token, or behind the `n` bytes in front of the tokens if there is none. -/
def endOfTokens (n : Nat) (ts : List Token) : Nat := ts.getLast?.elim n fun t => t.span.stop

/-- Behind the last token and a gap stands a word that starts no token, and the fault names the word. -/
def SyntaxFault.Stops (line : List Char) (ts : List Token) (f : SyntaxFault) : Prop :=
  ∃ read gap word after, line = read ++ (gap ++ (word ++ after)) ∧ size read = endOfTokens 0 ts ∧
    allBlank gap = true ∧ word ≠ [] ∧ (∀ c ∈ word, isBlank c = false) ∧ (∀ c ∈ after.head?, isBlank c = true) ∧
    (∀ k : Category, k.lexemeLength? (word ++ after) = none) ∧
    f = .unknownToken (String.ofList word) ⟨size (read ++ gap), size word⟩

theorem endOfTokens_cons (n : Nat) (t : Token) (ts : List Token) :
    endOfTokens n (t :: ts) = endOfTokens t.span.stop ts := by
  cases ts with
  | nil => rfl
  | cons u us => rw [endOfTokens, endOfTokens, List.getLast?_cons_cons]; simp [List.getLast?_cons]

/-- A character of a text that has two parts stands in the first or in the second of them. -/
theorem Text.split_at_char {as bs before after : List Char} {c : Char} (h : as ++ bs = before ++ c :: after) :
    (∃ rest, as = before ++ c :: rest ∧ after = rest ++ bs) ∨ ∃ more, before = as ++ more ∧ bs = more ++ c :: after := by
  rcases List.append_eq_append_iff.1 h with ⟨more, rfl, hbs⟩ | ⟨rest, rfl, hrest⟩
  · exact .inr ⟨more, rfl, hbs⟩
  · cases rest with
    | nil => exact .inr ⟨[], by simp, by simpa using hrest.symm⟩
    | cons d rest =>
      obtain ⟨rfl, rfl⟩ := List.cons.inj hrest
      exact .inl ⟨rest, rfl, rfl⟩

namespace ScansAs

variable {n : Nat} {cs line : List Char} {r : Reading}

/-- No token starts before the text. -/
theorem starts (h : ScansAs n cs r) : ∀ t ∈ r.tokens, n ≤ t.span.offset := by
  induction h with
  | stop _ | unknown _ _ _ _ _ => simp [Reading.empty]
  | token _ _ _ _ ih =>
    intro t ht
    rcases List.mem_cons.1 ht with rfl | ht
    · exact Nat.le_add_right _ _
    · have := ih t ht
      omega

/-- Every token starts behind those in front of it. -/
theorem ordered (h : ScansAs n cs r) : r.tokens.Pairwise fun t u => t.span.stop ≤ u.span.offset := by
  induction h with
  | stop _ | unknown _ _ _ _ _ => exact .nil
  | token _ _ _ hafter ih => exact .cons hafter.starts ih

/-- Every token quotes the line. -/
theorem quotes (h : ScansAs n cs r) : ∀ before, line = before ++ cs → size before = n →
    ∀ t ∈ r.tokens, t.Quotes line := by
  induction h with
  | stop _ | unknown _ _ _ _ _ => simp [Reading.empty]
  | @token n gap part after k r _ _ hmatch _ ih =>
    rintro before rfl rfl t ht
    rcases List.mem_cons.1 ht with rfl | ht
    · have hpos := (Category.firstMatch?_bounds hmatch).1
      refine ⟨part, List.ne_nil_of_length_pos hpos, ⟨before ++ gap, after, by simp, ?_⟩, rfl⟩
      rw [Text.size_append]
      rfl
    · exact ih (before ++ gap ++ part) (by simp) (by simp [Nat.add_assoc]) t ht

/-- What a text consists of besides its tokens are blanks, if it is read to its end. -/
theorem covers (h : ScansAs n cs r) (hclear : r.failure = none) : ∀ before c after, cs = before ++ c :: after →
    isBlank c = false → ∃ t ∈ r.tokens, t.span.offset ≤ n + size before ∧
      n + size before + c.utf8Size ≤ t.span.stop := by
  have hnotblank : ∀ {gap before rest : List Char} {c : Char}, allBlank gap = true → gap = before ++ c :: rest →
      isBlank c = false → False := by
    rintro gap before rest c hgap rfl hc
    have := List.all_eq_true.1 hgap c (by simp)
    simp [hc] at this
  induction h with
  | stop hgap => exact fun _ _ _ hsplit hc => (hnotblank hgap hsplit hc).elim
  | unknown _ _ _ _ _ => cases hclear
  | @token n gap part after k r hgap _ _ _ ih =>
    intro before c rest hsplit hc
    obtain ⟨_, hg, -⟩ | ⟨inner, rfl, hinner⟩ := Text.split_at_char hsplit
    · exact (hnotblank hgap hg hc).elim
    · obtain ⟨tail, rfl, -⟩ | ⟨outer, rfl, houter⟩ := Text.split_at_char hinner
      · refine ⟨_, List.mem_cons_self, ?_⟩
        simp only [Token.ofPart, Span.stop, Text.size_append, Text.size_cons]
        omega
      · obtain ⟨t, ht, hstart, hstop⟩ := ih hclear outer c rest houter hc
        refine ⟨t, List.mem_cons_of_mem _ ht, ?_⟩
        simp only [Text.size_append]
        omega

/-- The word that stops the scanner stands right behind the last token and a gap. -/
theorem stopped (h : ScansAs n cs r) {f : SyntaxFault} (hf : r.failure = some f) :
    ∃ read gap word after, cs = read ++ (gap ++ (word ++ after)) ∧ n + size read = endOfTokens n r.tokens ∧
      allBlank gap = true ∧ word ≠ [] ∧ (∀ c ∈ word, isBlank c = false) ∧ (∀ c ∈ after.head?, isBlank c = true) ∧
      (∀ k : Category, k.lexemeLength? (word ++ after) = none) ∧
      f = .unknownToken (String.ofList word) ⟨n + size (read ++ gap), size word⟩ := by
  induction h with
  | stop _ => cases hf
  | unknown hgap hne hword hafter hmatch =>
    cases hf
    exact ⟨[], _, _, _, rfl, rfl, hgap, hne, hword, hafter, Category.firstMatch?_eq_none.1 hmatch, rfl⟩
  | @token n gap part after k r _ _ _ _ ih =>
    obtain ⟨read, gap', word, after', rfl, hread, hgap', hne, hword, hafter, hmatch, rfl⟩ := ih hf
    refine ⟨gap ++ (part ++ read), gap', word, after', by simp, ?_, hgap', hne, hword, hafter, hmatch, ?_⟩
    · show _ = endOfTokens n (_ :: r.tokens)
      rw [endOfTokens_cons]
      simpa [Token.ofPart, Span.stop, Nat.add_assoc] using hread
    · simp [Nat.add_assoc]

/-- Every item takes at least one character. -/
theorem length_items_le (h : ScansAs n cs r) : r.items.length ≤ cs.length := by
  induction h with
  | stop _ => simp
  | @unknown n gap word after _ hne _ _ _ =>
    have := List.length_pos_iff.2 hne
    simp only [Reading.items_fault, List.length_append, List.length_singleton]
    omega
  | token _ _ hmatch _ ih =>
    have := (Category.firstMatch?_bounds hmatch).1
    simp only [Reading.items_cons, List.length_append, List.length_cons]
    omega

end ScansAs

/-- **Reading a line loses nothing and ends.** Every token marks a part of the line that is not empty and keeps its text
exactly if its category does; every token starts behind those in front of it. If a line that is no comment is read to
its end, everything but the tokens is blank. Otherwise the scanner stops right behind the last token and a gap, at a
word that starts no token, and names it. The calls of the scanner give the tokens, then the fault, then nothing, and
there are no more items than bytes. -/
theorem reading_lossless (line : List Char) :
    (∀ t ∈ (readLine line).tokens, t.Quotes line) ∧
    (readLine line).tokens.Pairwise (fun t u => t.span.stop ≤ u.span.offset) ∧
    (isComment line = false → (readLine line).failure = none → CoveredBy line (readLine line).tokens) ∧
    (∀ f, (readLine line).failure = some f → f.Stops line (readLine line).tokens) ∧
    (∀ i, (Scanner.ofLine line).call i = (readLine line).items[i]?) ∧
    (readLine line).items.length ≤ size line := by
  have hcalls : ∀ i, (Scanner.ofLine line).call i = (readLine line).items[i]? := Scanner.call_eq _
  cases hcomment : isComment line with
  | true =>
    have hempty : readLine line = .empty := readLine_eq_empty_iff.2 (.inl hcomment)
    refine ⟨?_, ?_, nofun, ?_, hcalls, ?_⟩ <;> simp [hempty, Reading.empty, Reading.items]
  | false =>
    have hscan := (scansAs_line_iff hcomment).2 rfl
    refine ⟨hscan.quotes [] rfl rfl, hscan.ordered, fun _ hclear => ?_, fun f hf => ?_, hcalls,
      hscan.length_items_le.trans (Text.length_le_size line)⟩
    · intro before c after hsplit hc
      simpa using hscan.covers hclear before c after hsplit hc
    · obtain ⟨read, gap, word, after, hline, hread, hrest⟩ := hscan.stopped hf
      rw [Nat.zero_add] at hread hrest
      exact ⟨read, gap, word, after, hline, hread, hrest⟩

end BlockCheck
