import BlockCheck.Proofs.Token.Layout
import BlockCheck.Proofs.Token.Pieces

/-!
# Text put into a line

A text may be put behind a token of a line (`readLine_insert`). The tokens in front of it are read as before, and those
behind it too, apart from their places. What matters is how the parts meet: a text that starts with a separator changes
nothing in front of it (`ScansAs.append`).
-/

namespace BlockCheck

open Text (size isBlank isSeparator allBlank)

namespace ScansAs

variable {n : Nat} {cs front back : List Char} {q r : Reading}

/-- Blanks in front of a text change nothing but the places. -/
theorem gap_append {gap : List Char} (hgap : allBlank gap = true) (h : ScansAs (n + size gap) back r) :
    ScansAs n (gap ++ back) r := by
  have hall : ∀ {gap'}, allBlank gap' = true → allBlank (gap ++ gap') = true := fun hgap' => by
    rw [allBlank, List.all_append, Bool.and_eq_true]
    exact ⟨hgap, hgap'⟩
  have hplace : ∀ gap', n + size gap + size gap' = n + size (gap ++ gap') := fun gap' => by
    rw [Text.size_append, Nat.add_assoc]
  cases h with
  | stop hgap' => exact .stop (hall hgap')
  | unknown hgap' hne hword hafter hmatch =>
    rw [hplace, ← List.append_assoc]
    exact .unknown (hall hgap') hne hword hafter hmatch
  | token hgap' hpart hmatch hrest =>
    rw [hplace] at hrest ⊢
    rw [← List.append_assoc]
    exact .token (hall hgap') hpart hmatch hrest

/-- **A separator keeps texts apart**: behind a text that is read to its end, a text that starts with a separator is
read as if it stood alone. -/
theorem append (h : ScansAs n front q) (hq : q.failure = none) (hseparator : ∀ c ∈ back.head?, isSeparator c = true)
    (hback : ScansAs (n + size front) back r) : ScansAs n (front ++ back) (q.tokens ++ r) := by
  induction h with
  | stop hgap => exact gap_append hgap hback
  | unknown => cases hq
  | @token n gap part after k q hgap hpart hmatch _ ih =>
    rw [Text.size_parts] at hback
    rw [List.append_assoc, List.append_assoc]
    exact .token hgap hpart (Category.firstMatch?_append hmatch hseparator) (ih hq hback)

/-- A text is read alike wherever it stands. -/
theorem shift (h : ScansAs n cs r) (m : Nat) : ∃ q, ScansAs m cs q ∧ List.Forall₂ Token.Alike r.tokens q.tokens ∧
    (r.failure = none → q.failure = none) := by
  induction h generalizing m with
  | stop hgap => exact ⟨.empty, .stop hgap, .nil, id⟩
  | unknown hgap hne hword hafter hmatch => exact ⟨_, .unknown hgap hne hword hafter hmatch, .nil, nofun⟩
  | @token n gap part after k r hgap hpart hmatch _ ih =>
    obtain ⟨q, hscan, halike, hfailure⟩ := ih (m + size gap + size part)
    exact ⟨_, .token hgap hpart hmatch hscan, .cons ⟨rfl, rfl⟩ halike, hfailure⟩

/-- A text whose first token is a comma or a semicolon starts with a separator. -/
theorem isSeparator_head {t : Token} (h : ScansAs n cs (r.cons t)) (ht : t.category = .comma ∨ t.category = .semicolon) :
    ∀ c ∈ cs.head?, isSeparator c = true := by
  generalize hq : r.cons t = q at h
  cases h with
  | stop | unknown => cases hq
  | @token _ gap part after k _ hgap _ hmatch _ =>
    obtain ⟨rfl, -⟩ := Reading.cons_inj hq
    cases gap with
    | cons c gap =>
      rintro _ ⟨⟩
      exact Text.isSeparator_of_isBlank (List.all_eq_true.1 hgap c List.mem_cons_self)
    | nil =>
      have halone := Category.firstMatch?_take hmatch
      rw [List.take_left] at halone
      have hspells := Category.spells_of_firstMatch? halone
      rcases ht with hk | hk
      · rw [show k = .comma from hk] at hspells
        rw [show part = [','] from hspells]
        rintro _ ⟨⟩
        rfl
      · rw [show k = .semicolon from hk] at hspells
        rw [show part = [';'] from hspells]
        rintro _ ⟨⟩
        rfl

end ScansAs

/-- **Text is put behind a token of a line.** The tokens around it are read as before, apart from their places, if the
text and the next token start with separators. -/
theorem readLine_insert {line front back middle : List Char} {t u : Token} {ts us vs : List Token}
    (h : readLine line = ⟨ts ++ t :: u :: us, none⟩) (hline : line = front ++ back)
    (hplace : size front = t.span.offset + t.span.length) (hu : u.category = .comma ∨ u.category = .semicolon)
    (hmiddle : ScansAs (size front) middle ⟨vs, none⟩) (hseparator : ∀ c ∈ middle.head?, isSeparator c = true) :
    ∃ us', readLine (front ++ (middle ++ back)) = ⟨ts ++ t :: (vs ++ us'), none⟩ ∧
      List.Forall₂ Token.Alike (u :: us) us' := by
  have hcomment : isComment line = false := isComment_of_readLine (by rw [h]; simp)
  obtain ⟨kept, rest, hsplit, hkept, hrest, hend, -⟩ := ((scansAs_line_iff hcomment).2 h).split rfl
  rw [Nat.zero_add] at hrest hend
  obtain ⟨rfl, rfl⟩ := Text.eq_of_size_eq (hsplit.symm.trans hline) (hend.trans hplace.symm)
  subst hsplit
  have hnext : ∀ c ∈ rest.head?, isSeparator c = true := ScansAs.isSeparator_head (r := ⟨us, none⟩) hrest hu
  have hbehind : ∀ c ∈ (middle ++ rest).head?, isSeparator c = true := by
    cases middle with
    | nil => exact hnext
    | cons c middle => exact hseparator
  obtain ⟨⟨us', failure⟩, hshifted, halike, hfailure⟩ := hrest.shift (size kept + size middle)
  cases hfailure rfl
  have hback := hmiddle.append rfl hnext hshifted
  have hall := hkept.append rfl hbehind (by rwa [Nat.zero_add])
  have hcomment' : isComment (kept ++ (middle ++ rest)) = false := by
    refine isComment_append (isComment_of_append hcomment) ?_ fun hslash => ?_
    · rintro rfl
      have hnothing := (scansAs_line_iff rfl).1 hkept
      rw [readLine_eq_empty_iff.2 (.inr rfl)] at hnothing
      exact absurd (congrArg Reading.tokens hnothing).symm (by simp [Reading.empty])
    · cases hbehind '/' hslash
  refine ⟨us', ?_, halike⟩
  have htokens : ts ++ [t] ++ (vs ++ us') = ts ++ t :: (vs ++ us') := List.append_assoc ts [t] _
  rw [(scansAs_line_iff hcomment').1 hall, ← htokens]
  rfl

end BlockCheck
