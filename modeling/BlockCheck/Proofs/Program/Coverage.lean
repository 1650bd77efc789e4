import BlockCheck.Proofs.Program.Visits
import Mathlib.Order.Interval.Finset.Nat

/-!
# Every line is checked once

The lines of a source fall into those outside of methods (`Source.outside`) and the bodies of the methods
(`Source.body`), one after the other and without a gap (`mem_body_of_inside`, `closing_lt_header`). This follows from
the counts of open blocks alone, once the pass over the global scope has succeeded.

The first pass visits the lines outside of methods (`GlobalPass.visits_of_steps`), and the pass over a method those of
its body: all of them if it succeeds (`methodVisits_of_ok`), and else those up to the one it rejects
(`methodVisits_of_error`). So a run that accepts the
program has checked every line once, and one that rejects a method has accepted all lines of methods before the one
that it names (`lines_checked_once`).
-/

namespace BlockCheck

open GlobalPass (IsHeader)

namespace Source

variable {s : Source} {header n m : Nat}

/-- The lines outside of methods: those before which no block is open. -/
def outside (s : Source) : Finset Nat := (Finset.Icc 1 s.lineCount).filter fun n => s.depth (n - 1) = some 0

/-- The first line after the header after which no block is open, or else the last line. -/
def closing (s : Source) (header : Nat) : Nat :=
  ((List.range' (header + 1) (s.lineCount - header)).find? fun n => s.depth n = some 0).getD s.lineCount

/-- The body of a method: the lines from the one after its header to its closing line. -/
def body (s : Source) (header : Nat) : Finset Nat := Finset.Ioc header (s.closing header)

/-- The closing line is the first one after the header after which no block is open. -/
structure Closes (s : Source) (header closing : Nat) : Prop where
  after : header < closing
  le_lineCount : closing ≤ s.lineCount
  closed : s.depth closing = some 0
  first : ∀ n, header < n → n < closing → s.depth n ≠ some 0

theorem Closes.unique (h : s.Closes header n) (h' : s.Closes header m) : n = m := by
  rcases Nat.lt_trichotomy n m with hlt | heq | hgt
  · exact absurd h.closed (h'.first n h.after hlt)
  · exact heq
  · exact absurd h'.closed (h.first m h'.after hgt)

theorem closes_closing (hn : header < n) (hle : n ≤ s.lineCount) (hclosed : s.depth n = some 0) :
    s.Closes header (s.closing header) := by
  have hmem : ∀ k, k ∈ List.range' (header + 1) (s.lineCount - header) ↔ header < k ∧ k ≤ s.lineCount := by
    intro k
    rw [List.mem_range'_1]
    omega
  cases hfind : (List.range' (header + 1) (s.lineCount - header)).find? fun k => decide (s.depth k = some 0) with
  | none =>
    have hno := List.find?_eq_none.1 hfind n ((hmem n).2 ⟨hn, hle⟩)
    exact absurd (decide_eq_true hclosed) hno
  | some c =>
    have hclosing : s.closing header = c := by rw [closing, hfind]; rfl
    obtain ⟨hc, before, after, hsplit, hbefore⟩ := List.find?_eq_some_iff_append.1 hfind
    obtain ⟨hlt, hcle⟩ := (hmem c).1 (List.mem_of_find?_eq_some hfind)
    rw [hclosing]
    refine ⟨hlt, hcle, of_decide_eq_true hc, fun k hk hkc hdepth => ?_⟩
    -- Line `k` stands before `c` in the list, since the list is in order.
    have hk' : k ∈ before ++ c :: after := hsplit ▸ (hmem k).2 ⟨hk, Nat.le_trans (Nat.le_of_lt hkc) hcle⟩
    rcases List.mem_append.1 hk' with hin | hin
    · have hnot := hbefore k hin
      rw [decide_eq_true hdepth] at hnot
      cases hnot
    · have hsorted : (before ++ c :: after).Pairwise (· < ·) := hsplit ▸ List.pairwise_lt_range'
      rcases List.mem_cons.1 hin with rfl | hin
      · exact absurd hkc (Nat.lt_irrefl k)
      · have hck := (List.pairwise_cons.1 (List.pairwise_append.1 hsorted).2.1).1 k hin
        omega

theorem mem_outside : n ∈ s.outside ↔ (0 < n ∧ n ≤ s.lineCount) ∧ s.depth (n - 1) = some 0 := by
  rw [outside, Finset.mem_filter, Finset.mem_Icc]
  exact Iff.rfl

theorem mem_body : n ∈ s.body header ↔ header < n ∧ n ≤ s.closing header := Finset.mem_Ioc

/-- The numbers of lines that stand together. -/
theorem map_number_of_split {before mid after : List NumberedLine} (h : s.numberedLines = before ++ (mid ++ after)) :
    mid.map NumberedLine.number = List.range' (before.length + 1) mid.length := by
  have hall := s.map_number_numberedLines
  rw [← length_numberedLines, h, List.map_append, List.map_append, List.length_append, List.length_append,
    ← List.range'_append_1, ← List.range'_append_1] at hall
  have hrest := (List.append_inj hall (by simp)).2
  rw [Nat.add_comm 1] at hrest
  exact (List.append_inj hrest (by simp)).1

/-- Lines that stand together are told by their numbers. -/
theorem filter_of_split {before mid after : List NumberedLine} (h : s.numberedLines = before ++ (mid ++ after)) :
    s.numberedLines.filter (·.number ∈ Finset.Ioc before.length (before.length + mid.length)) = mid := by
  have hbounds : ∀ front part back : List NumberedLine, s.numberedLines = front ++ (part ++ back) →
      ∀ l ∈ part, front.length < l.number ∧ l.number ≤ front.length + part.length := by
    intro front part back h l hl
    have hmem := List.mem_map_of_mem (f := NumberedLine.number) hl
    rw [map_number_of_split h, List.mem_range'_1] at hmem
    omega
  have hbefore : before.filter (·.number ∈ Finset.Ioc before.length (before.length + mid.length)) = [] := by
    refine List.filter_eq_nil_iff.2 fun l hl => ?_
    have hle := (hbounds [] before _ h l hl).2
    rw [List.length_nil] at hle
    rw [decide_eq_true_eq, Finset.mem_Ioc]
    omega
  have hmid : mid.filter (·.number ∈ Finset.Ioc before.length (before.length + mid.length)) = mid :=
    List.filter_eq_self.2 fun l hl => decide_eq_true (Finset.mem_Ioc.2 (hbounds before mid after h l hl))
  have hafter : after.filter (·.number ∈ Finset.Ioc before.length (before.length + mid.length)) = [] := by
    refine List.filter_eq_nil_iff.2 fun l hl => ?_
    have hlt := (hbounds (before ++ mid) after [] (by rw [h]; simp) l hl).1
    rw [List.length_append] at hlt
    rw [decide_eq_true_eq, Finset.mem_Ioc]
    omega
  rw [h, List.filter_append, List.filter_append, hbefore, hmid, hafter, List.nil_append, List.append_nil]

theorem linesFrom_split {before after : List NumberedLine} {line : NumberedLine}
    (h : s.linesFrom (n + 1) = before ++ line :: after) :
    s.numberedLines = s.numberedLines.take n ++ (before ++ line :: after) ∧ (s.numberedLines.take n).length = n := by
  have hdrop : s.numberedLines.drop n = before ++ line :: after := h
  refine ⟨by rw [← hdrop, List.take_append_drop], ?_⟩
  have hlength := congrArg List.length hdrop
  rw [List.length_drop, List.length_append, List.length_cons] at hlength
  rw [List.length_take]
  omega

end Source

/-! ## The lines by depth -/

section Depths

variable {source : Source} {g : GlobalPass} {n header header' : Nat}

theorem depth_lineCount (hg : (readGlobals source).outcome = .ok g) : source.depth source.lineCount = some 0 := by
  obtain ⟨hsteps, hdepth⟩ := GlobalPass.outcome_readGlobals_eq_ok.1 hg
  rw [← Source.length_numberedLines, ← hdepth]
  exact GlobalPass.depth_of_steps (List.append_nil _).symm hsteps

/-- The count never fails in a source that has passed the first pass. -/
theorem exists_depth (hg : (readGlobals source).outcome = .ok g) (hn : n ≤ source.lineCount) :
    ∃ d, source.depth n = some d := by
  obtain ⟨hsteps, -⟩ := GlobalPass.outcome_readGlobals_eq_ok.1 hg
  rw [← List.take_append_drop n source.numberedLines] at hsteps
  obtain ⟨p, hbefore, -⟩ := GlobalPass.steps_append_eq_ok.1 hsteps
  have hdepth := GlobalPass.depth_of_steps (List.take_append_drop n source.numberedLines).symm hbefore
  rw [List.length_take, Source.length_numberedLines, Nat.min_eq_left hn] at hdepth
  exact ⟨_, hdepth⟩

theorem mem_headers (hg : (readGlobals source).outcome = .ok g) :
    n ∈ g.headers ↔ IsHeader source n ∧ n ≤ source.lineCount := by
  obtain ⟨hsteps, -⟩ := GlobalPass.outcome_readGlobals_eq_ok.1 hg
  rw [← Source.length_numberedLines]
  exact (GlobalPass.headers_of_steps (List.append_nil _).symm hsteps).2 n

theorem headers_ordered (hg : (readGlobals source).outcome = .ok g) : g.headers.Pairwise (· < ·) := by
  obtain ⟨hsteps, -⟩ := GlobalPass.outcome_readGlobals_eq_ok.1 hg
  exact (GlobalPass.headers_of_steps (List.append_nil _).symm hsteps).1

/-- A line that leaves the outside of methods is a header. -/
theorem isHeader_of_leaving (hg : (readGlobals source).outcome = .ok g) (hn : n < source.lineCount)
    (hbefore : source.depth n = some 0) (hafter : source.depth (n + 1) ≠ some 0) : IsHeader source (n + 1) := by
  refine ⟨Nat.succ_pos n, hbefore, ?_⟩
  obtain ⟨d, hd⟩ := exists_depth hg (Nat.succ_le_of_lt hn)
  obtain ⟨before, line, after, hsplit, hnumber⟩ := Source.exists_split (Nat.succ_pos n) (Nat.succ_le_of_lt hn)
  have hstep := Source.depth_after hsplit
  rw [hnumber, Nat.succ_sub_one, hbefore, Option.bind_some, nextDepth] at hstep
  rw [hstep] at hd hafter ⊢
  split at hd
  · rw [if_pos ‹_›]
  · split at hd
    · cases hd
    · rw [if_neg ‹_›, if_neg ‹_›] at hafter
      exact absurd rfl hafter

theorem closes_of_header (hg : (readGlobals source).outcome = .ok g) (hheader : header ∈ g.headers) :
    source.Closes header (source.closing header) := by
  obtain ⟨⟨-, -, hopen⟩, hle⟩ := (mem_headers hg).1 hheader
  have hend := depth_lineCount hg
  have hlt : header < source.lineCount := by
    refine Nat.lt_of_le_of_ne hle fun heq => ?_
    rw [← heq, hopen] at hend
    cases hend
  exact Source.closes_closing hlt (Nat.le_refl _) hend

/-- Inside of a body some block is open before each line. -/
theorem depth_of_mem_body (hg : (readGlobals source).outcome = .ok g) (hheader : header ∈ g.headers)
    (hn : n ∈ source.body header) : source.depth (n - 1) ≠ some 0 := by
  obtain ⟨⟨-, -, hopen⟩, -⟩ := (mem_headers hg).1 hheader
  obtain ⟨hlt, hle⟩ := Source.mem_body.1 hn
  by_cases hfirst : n - 1 = header
  · rw [hfirst, hopen]
    exact fun h => (nomatch h)
  · exact (closes_of_header hg hheader).first (n - 1) (by omega) (by omega)

/-- **Bodies stand one after the other.** -/
theorem closing_lt_header (hg : (readGlobals source).outcome = .ok g) (hheader : header ∈ g.headers)
    (hheader' : header' ∈ g.headers) (hlt : header < header') : source.closing header < header' := by
  obtain ⟨⟨-, houtside, -⟩, -⟩ := (mem_headers hg).1 hheader'
  by_contra hle
  exact depth_of_mem_body hg hheader (Source.mem_body.2 ⟨hlt, Nat.not_lt.1 hle⟩) houtside

/-- **There is no gap**: a line before which a block is open is in the body of a method. -/
theorem mem_body_of_inside (hg : (readGlobals source).outcome = .ok g) (hn : n ≤ source.lineCount)
    (hinside : source.depth (n - 1) ≠ some 0) : ∃ header ∈ g.headers, n ∈ source.body header := by
  -- The header is the line after the last place before `n` where no block is open.
  let k := Nat.findGreatest (fun k => source.depth k = some 0) (n - 1)
  have hk : source.depth k = some 0 :=
    Nat.findGreatest_spec (P := fun k => source.depth k = some 0) (Nat.zero_le (n - 1)) source.depth_zero
  have hlast : ∀ j, k < j → j ≤ n - 1 → source.depth j ≠ some 0 := fun j hkj hj =>
    Nat.findGreatest_is_greatest hkj hj
  have hkn : k < n - 1 := by
    refine Nat.lt_of_le_of_ne (Nat.findGreatest_le _) fun heq => ?_
    rw [heq] at hk
    exact hinside hk
  have hleaving := isHeader_of_leaving hg (by omega) hk (hlast (k + 1) (Nat.lt_succ_self k) (by omega))
  have hheader := (mem_headers hg).2 ⟨hleaving, by omega⟩
  refine ⟨k + 1, hheader, Source.mem_body.2 ⟨by omega, ?_⟩⟩
  have hcloses := closes_of_header hg hheader
  have hafter := hcloses.after
  by_contra hle
  exact hlast (source.closing (k + 1)) (by omega) (by omega) hcloses.closed

end Depths

/-! ## What the passes visit -/

namespace GlobalPass

variable {source : Source} {p : GlobalPass} {before after : List NumberedLine}

/-- A line that the pass comes to is outside of methods if no block is open. -/
theorem filter_outside {line : NumberedLine} (hsplit : source.numberedLines = before ++ line :: after)
    (h : steps {} before = .ok p) :
    [line].filter (·.number ∈ source.outside) = if p.tracker.depth = 0 then [line] else [] := by
  obtain ⟨hnumber, hle⟩ := Source.number_bounds hsplit
  have hmem : line.number ∈ source.outside ↔ p.tracker.depth = 0 := by
    rw [Source.mem_outside, depth_before hsplit h, Option.some.injEq, and_iff_right_iff_imp]
    exact fun _ => ⟨hnumber ▸ Nat.succ_pos _, hle⟩
  rw [List.filter_singleton, Bool.cond_eq_ite]
  simp only [hmem, decide_eq_true_eq]

/-- The pass over the global scope visits the lines outside of methods. -/
theorem visits_of_steps (hsplit : source.numberedLines = before ++ after) (h : steps {} before = .ok p) :
    (visits {} before).map Visit.line = before.filter (·.number ∈ source.outside) ∧
      ∀ v ∈ visits {} before, v.Accepted := by
  refine (induction (P := fun before _ => (visits {} before).map Visit.line =
    before.filter (·.number ∈ source.outside) ∧ ∀ v ∈ visits {} before, v.Accepted) ⟨rfl, fun _ h => (nomatch h)⟩
    (fun before line after p p' hsplit hsteps hp hvisits hstep => ?_) hsplit h).2
  obtain ⟨hlines, haccepted⟩ := hvisits
  rw [visits_append hsteps, visits_singleton hstep, List.map_append, List.filter_append, hlines,
    filter_outside hsplit hsteps]
  by_cases houtside : p.tracker.depth = 0
  · obtain ⟨hvisit, hright⟩ := visit_of_step_outside hp houtside hstep
    rw [hvisit, if_pos houtside]
    exact ⟨rfl, List.forall_mem_append.2 ⟨haccepted, List.forall_mem_singleton.2 hright⟩⟩
  · rw [visit_inside houtside, if_neg houtside]
    exact ⟨rfl, by rw [List.append_nil]; exact haccepted⟩

end GlobalPass

/-! ### The pass over a method -/

section Method

variable {source : Source} {g : GlobalPass} {ordinal header : Nat} {r : Rejection}

/-- The visits to the lines of a method are those of the pass from its start. -/
theorem StartsAt.methodVisits_eq {p : MethodPass} (h : StartsAt source g ordinal header p) :
    methodVisits source g.scopes ordinal header = p.visits (source.linesFrom (header + 1)) := by
  obtain ⟨name, m, first, hmethod, hfirst, henter, -⟩ := h.entered
  simp only [methodVisits, hmethod, hfirst, Option.getD_some, henter]

/-- What a run of the pass over a method reads: the lines of its body, up to the one that closes it, which leaves the
method, or up to one that fails. -/
structure Reads (source : Source) (g : GlobalPass) (ordinal header : Nat) (body : List NumberedLine)
    (last : NumberedLine) (p p' : MethodPass) : Prop where
  start : StartsAt source g ordinal header p
  split : ∃ after, source.linesFrom (header + 1) = body ++ last :: after
  within : p.Within body p'
  ends : (∃ q, p'.step last.chars = .ok q ∧ q.tracker.depth = 0 ∧
      (p.run source (source.linesFrom (header + 1))).outcome = .ok (some (last.number, q))) ∨
    ∃ f, p'.step last.chars = .error f ∧
      (p.run source (source.linesFrom (header + 1))).outcome = .error (.on source last.number f)

theorem exists_reads (hg : (readGlobals source).outcome = .ok g) (hheader : g.headers[ordinal]? = some header) :
    ∃ body last p p', Reads source g ordinal header body last p p' := by
  obtain ⟨p, hstart, hstep⟩ := startsAt_of_header hg hheader
  rcases MethodPass.outcome_run source p (source.linesFrom (header + 1)) with
    ⟨q, -, hrun⟩ | ⟨body, last, after, p', hsplit, hbody, hend⟩
  · rcases hstep.closed with ⟨_, _, hclosed, -⟩ | ⟨_, _, _, _, _, _, -, -, -, -, -, hfailed⟩
    · cases hrun.symm.trans hclosed
    · cases hrun.symm.trans hfailed
  · refine ⟨body, last, p, p', hstart, ⟨after, hsplit⟩, hbody, ?_⟩
    exact hend.imp_left fun ⟨q, hq, hglobal, hrun⟩ => ⟨q, hq, Tracker.isGlobal_iff.1 hglobal, hrun⟩

namespace Reads

variable {body : List NumberedLine} {last : NumberedLine} {p p' : MethodPass}

theorem inside (h : Reads source g ordinal header body last p p') : p.tracker.isGlobal = false := by
  rw [h.start.tracker]
  rfl

/-- The numbers of the lines. -/
theorem numbers (h : Reads source g ordinal header body last p p') :
    body.map NumberedLine.number = List.range' (header + 1) body.length ∧
      last.number = header + body.length + 1 := by
  obtain ⟨after, hfrom⟩ := h.split
  obtain ⟨hsplit, hlength⟩ := Source.linesFrom_split hfrom
  have hbody := Source.map_number_of_split hsplit
  rw [← List.append_assoc] at hsplit
  have hlast := (Source.line_of_split hsplit).1
  rw [List.length_append] at hlast
  rw [hlength] at hbody hlast
  exact ⟨hbody, hlast⟩

/-- The pass over the method counts from its header on as the source does. -/
theorem depth_of_within (h : Reads source g ordinal header body last p p') (hopen : source.depth header = some 1)
    {front back : List NumberedLine} {r : MethodPass} (hbody : body = front ++ back) (hfront : p.Within front r) :
    source.depth (header + front.length) = some r.tracker.depth := by
  obtain ⟨after, hfrom⟩ := h.split
  obtain ⟨hsplit, hlength⟩ := Source.linesFrom_split hfrom
  have hdepth := hfront.depthAfter
  rw [h.start.tracker] at hdepth
  have hsplit' : source.numberedLines = (source.numberedLines.take header ++ front) ++ (back ++ last :: after) := by
    rw [List.append_assoc, ← List.append_assoc front, ← hbody]
    exact hsplit
  have hbefore : depthAfter 0 ((source.numberedLines.take header).map NumberedLine.chars) = some 1 := hopen
  have hfound := Source.depth_of_split hsplit'
  rw [List.length_append, hlength, List.map_append, depthAfter_append, hbefore, Option.bind_some, hdepth] at hfound
  exact hfound

/-- No line before the last one closes the method. -/
theorem depth_ne_zero (h : Reads source g ordinal header body last p p') (hopen : source.depth header = some 1)
    {n : Nat} (hn : header < n) (hlast : n < last.number) : source.depth n ≠ some 0 := by
  have hlength : n - header ≤ body.length := by
    have := h.numbers.2
    omega
  obtain ⟨r, hfront, -⟩ := (body.take_append_drop (n - header) ▸ h.within).split
  have hdepth := h.depth_of_within hopen (List.take_append_drop (n - header) body).symm hfront
  rw [List.length_take, Nat.min_eq_left hlength, Nat.add_sub_cancel' (Nat.le_of_lt hn)] at hdepth
  rw [hdepth]
  intro hzero
  have hinside := hfront.inside h.inside
  rw [Tracker.isGlobal_iff.2 (Option.some.inj hzero)] at hinside
  cases hinside

/-- The line that closes the method is the last one that is read, unless it or a line before it fails. -/
theorem closing_eq (h : Reads source g ordinal header body last p p') (hopen : source.depth header = some 1)
    (hcloses : source.Closes header (source.closing header)) {q : MethodPass} (hstep : p'.step last.chars = .ok q)
    (hq : q.tracker.depth = 0) : source.closing header = last.number := by
  obtain ⟨after, hfrom⟩ := h.split
  obtain ⟨hsplit, -⟩ := Source.linesFrom_split hfrom
  rw [← List.append_assoc] at hsplit
  obtain ⟨-, hlast⟩ := h.numbers
  have hbefore := h.depth_of_within hopen (List.append_nil body).symm h.within
  have hafter := Source.depth_after hsplit
  rw [hlast, Nat.add_sub_cancel, hbefore, Option.bind_some, MethodPass.nextDepth_of_step hstep, hq, ← hlast] at hafter
  refine hcloses.unique ⟨by omega, (Source.number_bounds hsplit).2, hafter, fun n => h.depth_ne_zero hopen⟩

theorem last_mem_body (h : Reads source g ordinal header body last p p') (hopen : source.depth header = some 1)
    (hcloses : source.Closes header (source.closing header)) : last.number ∈ source.body header := by
  have hlast := h.numbers.2
  refine Source.mem_body.2 ⟨by omega, Nat.not_lt.1 fun hlt => ?_⟩
  exact h.depth_ne_zero hopen hcloses.after hlt hcloses.closed

/-- The lines that are read are visited in order, and those before the last one are right. -/
theorem visits_eq (h : Reads source g ordinal header body last p p') :
    ∃ vs, methodVisits source g.scopes ordinal header = vs ++ p'.visit last ∧ vs.map Visit.line = body ∧
      ∀ v ∈ vs, v.Accepted := by
  obtain ⟨after, hfrom⟩ := h.split
  obtain ⟨hlines, haccepted⟩ := h.within.visits
  refine ⟨p.visits body, ?_, hlines, haccepted⟩
  rw [h.start.methodVisits_eq, hfrom, MethodPass.visits_append h.within]
  refine congrArg _ ?_
  rw [MethodPass.visits]
  rcases h.ends with ⟨q, hstep, hq, -⟩ | ⟨f, hstep, -⟩
  · simp only [hstep, Tracker.isGlobal_iff.2 hq, if_true, List.append_nil]
  · simp only [hstep, List.append_nil]

/-- The lines up to one that is read are told by their numbers. -/
theorem filter_upTo (h : Reads source g ordinal header body last p p') :
    source.numberedLines.filter (·.number ∈ Finset.Ioc header last.number) = body ++ [last] := by
  obtain ⟨after, hfrom⟩ := h.split
  obtain ⟨hsplit, hlength⟩ := Source.linesFrom_split hfrom
  have hsplit' : source.numberedLines = source.numberedLines.take header ++ ((body ++ [last]) ++ after) := by
    rw [List.append_assoc]
    exact hsplit
  have hfilter := Source.filter_of_split hsplit'
  rw [hlength, List.length_append, List.length_singleton, ← Nat.add_assoc, ← h.numbers.2] at hfilter
  exact hfilter

/-- The lines before the last one that is read are visited, and right. -/
theorem visited (h : Reads source g ordinal header body last p p') {l : NumberedLine} (hl : l ∈ source.numberedLines)
    (hbody : header < l.number) (hlast : l.number < last.number) :
    ∃ v ∈ methodVisits source g.scopes ordinal header, v.line = l ∧ v.Accepted := by
  have hread : l ∈ body ++ [last] := by
    rw [← h.filter_upTo, List.mem_filter, decide_eq_true_eq, Finset.mem_Ioc]
    exact ⟨hl, hbody, Nat.le_of_lt hlast⟩
  rcases List.mem_append.1 hread with hin | hin
  · obtain ⟨vs, hvisits, hlines, haccepted⟩ := h.visits_eq
    rw [← hlines] at hin
    obtain ⟨v, hv, rfl⟩ := List.mem_map.1 hin
    exact ⟨v, hvisits ▸ List.mem_append_left _ hv, rfl, haccepted v hv⟩
  · rw [List.mem_singleton.1 hin] at hlast
    exact absurd hlast (Nat.lt_irrefl _)

end Reads

variable (hg : (readGlobals source).outcome = .ok g) (hheader : g.headers[ordinal]? = some header)
include hg hheader

/-- **The check of a method that succeeds has visited all lines of its body**, in order, and each one is right. -/
theorem methodVisits_of_ok (h : (checkMethod source g.scopes ordinal header).outcome = .ok ()) :
    (methodVisits source g.scopes ordinal header).map Visit.line =
        source.numberedLines.filter (·.number ∈ source.body header) ∧
      ∀ v ∈ methodVisits source g.scopes ordinal header, v.Accepted := by
  have hmem := List.mem_of_getElem? hheader
  obtain ⟨⟨-, -, hopen⟩, -⟩ := (mem_headers hg).1 hmem
  obtain ⟨body, last, p, p', hreads⟩ := exists_reads hg hheader
  obtain ⟨name, m, first, hmethod, hfirst, henter, -⟩ := hreads.start.entered
  obtain ⟨closing, q, hrun, -⟩ := (outcome_checkMethod_eq_ok hmethod hfirst henter).1 h
  rcases hreads.ends with ⟨q, hstep, hq, -⟩ | ⟨f, -, hfailed⟩
  · have hclosing := hreads.closing_eq hopen (closes_of_header hg hmem) hstep hq
    obtain ⟨vs, hvisits, hlines, haccepted⟩ := hreads.visits_eq
    obtain ⟨c, hvisit, hright⟩ := MethodPass.visit_of_step hstep
    rw [hvisits, hvisit]
    refine ⟨?_, List.forall_mem_append.2 ⟨haccepted, List.forall_mem_singleton.2 hright⟩⟩
    rw [List.map_append, hlines, Source.body, hclosing, hreads.filter_upTo]
    rfl
  · cases hrun.symm.trans hfailed

/-- If the check of a method fails, the line it names is in the body of the method, and the lines of the body before
it are visited and right. -/
theorem methodVisits_of_error (h : (checkMethod source g.scopes ordinal header).outcome = .error r) :
    r.line ∈ source.body header ∧ ∀ l ∈ source.numberedLines, l.number ∈ source.body header → l.number < r.line →
      ∃ v ∈ methodVisits source g.scopes ordinal header, v.line = l ∧ v.Accepted := by
  have hmem := List.mem_of_getElem? hheader
  obtain ⟨⟨-, -, hopen⟩, -⟩ := (mem_headers hg).1 hmem
  obtain ⟨body, last, p, p', hreads⟩ := exists_reads hg hheader
  have hlast : r.line = last.number := by
    obtain ⟨name, m, first, hmethod, hfirst, henter, -⟩ := hreads.start.entered
    rcases hreads.ends with ⟨q, -, -, hrun⟩ | ⟨f, -, hrun⟩
    · rcases outcome_checkMethod_eq_error hmethod hfirst henter h with hfail | ⟨hopen, -⟩ | ⟨_, _, hrun', -, rfl⟩
      · cases hrun.symm.trans hfail
      · cases hrun.symm.trans hopen
      · cases hrun.symm.trans hrun'
        rfl
    · rw [outcome_checkMethod hmethod hfirst henter, hrun] at h
      cases h
      rfl
  rw [hlast]
  refine ⟨hreads.last_mem_body hopen (closes_of_header hg hmem), fun l hl hbody hbefore => ?_⟩
  exact hreads.visited hl (Source.mem_body.1 hbody).1 hbefore

end Method

/-! ### All methods -/

section Methods

variable {source : Source} {globals : ScopeChain} {ordinal : Nat} {headers : List Nat} {r : Rejection}

theorem methodsVisits_of_ok (hok : ∀ i n, headers[i]? = some n →
    (checkMethod source globals (ordinal + i) n).outcome = .ok () ∧
      (methodVisits source globals (ordinal + i) n).map Visit.line =
        source.numberedLines.filter (·.number ∈ source.body n) ∧
      ∀ v ∈ methodVisits source globals (ordinal + i) n, v.Accepted) :
    (methodsVisits source globals ordinal headers).map Visit.line =
        headers.flatMap (fun n => source.numberedLines.filter (·.number ∈ source.body n)) ∧
      ∀ v ∈ methodsVisits source globals ordinal headers, v.Accepted := by
  induction headers generalizing ordinal with
  | nil => exact ⟨rfl, fun _ h => (nomatch h)⟩
  | cons header headers ih =>
    obtain ⟨hfirst, hlines, haccepted⟩ := hok 0 header rfl
    rw [Nat.add_zero] at hfirst hlines haccepted
    obtain ⟨hrestLines, hrestAccepted⟩ := ih fun i n hn => by
      have hi := hok (i + 1) n hn
      rwa [Nat.add_comm i, ← Nat.add_assoc] at hi
    simp only [methodsVisits, hfirst, List.map_append, List.flatMap_cons, hlines, hrestLines]
    exact ⟨trivial, List.forall_mem_append.2 ⟨haccepted, hrestAccepted⟩⟩

/-- If the methods are not all right, there is a first one that is not, and the lines of the methods up to it have been
visited. -/
theorem first_failure (h : (checkMethods source globals ordinal headers).outcome = .error r) :
    ∃ i n, headers[i]? = some n ∧ (checkMethod source globals (ordinal + i) n).outcome = .error r ∧
      (∀ j m, j < i → headers[j]? = some m → (checkMethod source globals (ordinal + j) m).outcome = .ok ()) ∧
      ∀ j m, j ≤ i → headers[j]? = some m →
        methodVisits source globals (ordinal + j) m ⊆ methodsVisits source globals ordinal headers := by
  induction headers generalizing ordinal with
  | nil => cases h
  | cons header headers ih =>
    rw [outcome_checkMethods_cons, bind_eq_error] at h
    rcases h with hfirst | ⟨_, hfirst, hrest⟩
    · refine ⟨0, header, rfl, hfirst, fun j _ hj => absurd hj (Nat.not_lt_zero j), fun j m hj hm => ?_⟩
      cases Nat.le_zero.1 hj
      cases hm
      exact List.subset_append_left _ _
    · obtain ⟨i, n, hn, hi, hbefore, hvisited⟩ := ih hrest
      have hshift : ∀ j, ordinal + 1 + j = ordinal + (j + 1) := fun j => by omega
      simp only [hshift] at hi hbefore hvisited
      refine ⟨i + 1, n, hn, hi, fun j m hj hm => ?_, fun j m hj hm => ?_⟩
      · cases j with
        | zero => cases hm; exact hfirst
        | succ j => exact hbefore j m (Nat.lt_of_succ_lt_succ hj) hm
      · cases j with
        | zero => cases hm; exact List.subset_append_left _ _
        | succ j =>
          rw [methodsVisits, hfirst]
          exact List.subset_append_of_subset_right _ (hvisited j m (Nat.le_of_succ_le_succ hj) hm)

end Methods

/-! ## All lines -/

/-- The lines outside of methods and the bodies of the methods with the given headers are all lines of the source, and
none of them twice. -/
structure Partition (source : Source) (headers : List Nat) : Prop where
  /-- The count of open blocks is that of the pass over the global scope. -/
  counted : ∀ n ≤ source.lineCount, ∃ p, GlobalPass.steps {} (source.numberedLines.take n) = .ok p ∧
    source.depth n = some p.tracker.depth
  closed : ∀ header ∈ headers, source.Closes header (source.closing header)
  ordered : headers.Pairwise fun header header' => source.closing header < header'
  disjoint : headers.Pairwise fun header header' => Disjoint (source.body header) (source.body header')
  apart : ∀ header ∈ headers, Disjoint source.outside (source.body header)
  complete : source.outside ∪ headers.toFinset.biUnion source.body = Finset.Icc 1 source.lineCount

/-- The line at which a run fails is the first one of a method that is wrong: all lines of methods before it have been
checked, and the methods that end before it are right. -/
structure FirstFault (source : Source) (g : GlobalPass) (r : Rejection) : Prop where
  inside : ∃ header ∈ g.headers, r.line ∈ source.body header
  accepted : ∀ l ∈ source.numberedLines, l.number ∉ source.outside → l.number < r.line →
    ∃ v ∈ visits source, v.line = l ∧ v.Accepted
  returned : ∀ i header, g.headers[i]? = some header → source.closing header < r.line →
    (checkMethod source g.scopes i header).outcome = .ok ()

section Lines

variable {source : Source} {g : GlobalPass}

theorem ordered_bodies (hg : (readGlobals source).outcome = .ok g) :
    g.headers.Pairwise fun header header' => source.closing header < header' :=
  (headers_ordered hg).imp_of_mem fun hheader hheader' hlt => closing_lt_header hg hheader hheader' hlt

theorem disjoint_bodies (hg : (readGlobals source).outcome = .ok g) :
    g.headers.Pairwise fun header header' => Disjoint (source.body header) (source.body header') := by
  refine (ordered_bodies hg).imp fun {header header'} hlt => Finset.disjoint_left.2 fun n hn hn' => ?_
  have hle := (Source.mem_body.1 hn).2
  have hgt := (Source.mem_body.1 hn').1
  omega

theorem not_mem_outside_of_mem_body {header n : Nat} (hg : (readGlobals source).outcome = .ok g)
    (hheader : header ∈ g.headers) (hn : n ∈ source.body header) : n ∉ source.outside := fun houtside =>
  depth_of_mem_body hg hheader hn (Source.mem_outside.1 houtside).2

/-- Every line is outside of methods or in a body. -/
theorem mem_outside_or_body {n : Nat} (hg : (readGlobals source).outcome = .ok g) (hpos : 0 < n)
    (hn : n ≤ source.lineCount) : n ∈ source.outside ∨ ∃ header ∈ g.headers, n ∈ source.body header := by
  by_cases hdepth : source.depth (n - 1) = some 0
  · exact .inl (Source.mem_outside.2 ⟨⟨hpos, hn⟩, hdepth⟩)
  · exact .inr (mem_body_of_inside hg hn hdepth)

theorem partition_of_readGlobals (hg : (readGlobals source).outcome = .ok g) : Partition source g.headers where
  counted n hn := by
    obtain ⟨hsteps, -⟩ := GlobalPass.outcome_readGlobals_eq_ok.1 hg
    rw [← List.take_append_drop n source.numberedLines] at hsteps
    obtain ⟨p, hbefore, -⟩ := GlobalPass.steps_append_eq_ok.1 hsteps
    have hdepth := GlobalPass.depth_of_steps (List.take_append_drop n source.numberedLines).symm hbefore
    rw [List.length_take, Source.length_numberedLines, Nat.min_eq_left hn] at hdepth
    exact ⟨p, hbefore, hdepth⟩
  closed _ hheader := closes_of_header hg hheader
  ordered := ordered_bodies hg
  disjoint := disjoint_bodies hg
  apart _ hheader := Finset.disjoint_right.2 fun _ hn => not_mem_outside_of_mem_body hg hheader hn
  complete := by
    ext n
    simp only [Finset.mem_union, Finset.mem_biUnion, List.mem_toFinset, Finset.mem_Icc]
    constructor
    · rintro (houtside | ⟨header, hheader, hbody⟩)
      · exact (Source.mem_outside.1 houtside).1
      · have hcloses := closes_of_header hg hheader
        obtain ⟨hlt, hle⟩ := Source.mem_body.1 hbody
        exact ⟨Nat.zero_lt_of_lt hlt, Nat.le_trans hle hcloses.le_lineCount⟩
    · exact fun ⟨hpos, hn⟩ => mem_outside_or_body hg hpos hn

theorem visits_of_readGlobals (hg : (readGlobals source).outcome = .ok g) :
    visits source = GlobalPass.visits {} source.numberedLines ++ methodsVisits source g.scopes 0 g.headers := by
  rw [visits, hg]

/-- A run that accepts a source has visited its lines, and each of them is right. -/
theorem visits_of_ok {report : Report} (hg : (readGlobals source).outcome = .ok g) (h : check source = .ok report) :
    ((visits source).map Visit.line).Perm source.numberedLines ∧ ∀ v ∈ visits source, v.Accepted := by
  obtain ⟨g', hg', hmethods, -⟩ := check_eq_ok.1 h
  cases hg.symm.trans hg'
  obtain ⟨hlines, haccepted⟩ :=
    GlobalPass.visits_of_steps (List.append_nil _).symm (GlobalPass.outcome_readGlobals_eq_ok.1 hg).1
  have hchecked : (methodsVisits source g.scopes 0 g.headers).map Visit.line =
        g.headers.flatMap (fun n => source.numberedLines.filter (·.number ∈ source.body n)) ∧
      ∀ v ∈ methodsVisits source g.scopes 0 g.headers, v.Accepted := methodsVisits_of_ok fun i n hn => by
    rw [Nat.zero_add]
    exact ⟨hmethods i n hn, methodVisits_of_ok hg hn (hmethods i n hn)⟩
  obtain ⟨hmethodLines, hmethodAccepted⟩ := hchecked
  have hnodup : source.numberedLines.Nodup :=
    .of_map NumberedLine.number (source.map_number_numberedLines ▸ List.nodup_range')
  rw [visits_of_readGlobals hg, List.map_append, hlines, hmethodLines]
  refine ⟨?_, List.forall_mem_append.2 ⟨haccepted, hmethodAccepted⟩⟩
  have hmem : ∀ l, (l ∈ source.numberedLines.filter (·.number ∈ source.outside) ↔
        l ∈ source.numberedLines ∧ l.number ∈ source.outside) ∧
      (l ∈ g.headers.flatMap (fun n => source.numberedLines.filter (·.number ∈ source.body n)) ↔
        l ∈ source.numberedLines ∧ ∃ n ∈ g.headers, l.number ∈ source.body n) := fun l => by
    simp only [List.mem_filter, List.mem_flatMap, decide_eq_true_eq, true_and]
    exact ⟨fun ⟨n, hn, hl, hb⟩ => ⟨hl, n, hn, hb⟩, fun ⟨hl, n, hn, hb⟩ => ⟨n, hn, hl, hb⟩⟩
  refine (List.perm_ext_iff_of_nodup (List.nodup_append'.2 ⟨hnodup.filter _, ?_, ?_⟩) hnodup).2 fun l => ?_
  · refine List.nodup_flatMap.2 ⟨fun _ _ => hnodup.filter _, (disjoint_bodies hg).imp fun hdisjoint l hl hl' => ?_⟩
    rw [List.mem_filter, decide_eq_true_eq] at hl hl'
    exact Finset.disjoint_left.1 hdisjoint hl.2 hl'.2
  · intro l houtside hinside
    obtain ⟨-, header, hheader, hbody⟩ := (hmem l).2.1 hinside
    exact not_mem_outside_of_mem_body hg hheader hbody ((hmem l).1.1 houtside).2
  · rw [List.mem_append, (hmem l).1, (hmem l).2, ← and_or_left]
    refine and_iff_left_of_imp fun hl => ?_
    obtain ⟨before, after, hsplit⟩ := List.append_of_mem hl
    obtain ⟨hnumber, hle⟩ := Source.number_bounds hsplit
    exact mem_outside_or_body hg (hnumber ▸ Nat.succ_pos _) hle

/-- Later methods start after the body of an earlier one. -/
theorem lt_header_of_mem_body {i j n header header' : Nat} (hg : (readGlobals source).outcome = .ok g)
    (hi : g.headers[i]? = some header) (hj : g.headers[j]? = some header') (hij : i < j)
    (hn : n ∈ source.body header) : n < header' := by
  obtain ⟨hi', rfl⟩ := List.getElem?_eq_some_iff.1 hi
  obtain ⟨hj', rfl⟩ := List.getElem?_eq_some_iff.1 hj
  have hclosing := List.pairwise_iff_getElem.1 (ordered_bodies hg) i j hi' hj' hij
  exact Nat.lt_of_le_of_lt (Source.mem_body.1 hn).2 hclosing

/-- A run that fails in the second pass has come to the first line of a method that is wrong. -/
theorem firstFault_of_error {r : Rejection} (hg : (readGlobals source).outcome = .ok g) (h : check source = .error r) :
    FirstFault source g r := by
  have hmethods : (checkMethods source g.scopes 0 g.headers).outcome = .error r := by
    rw [check_eq, hg] at h
    change (checkMethods source g.scopes 0 g.headers).outcome.bind _ = _ at h
    rcases bind_eq_error.1 h with hmethods | ⟨_, -, hreport⟩
    · exact hmethods
    · cases hreport
  obtain ⟨i, header, hheader, hfailure, hbefore, hvisited⟩ := first_failure hmethods
  simp only [Nat.zero_add] at hfailure hbefore hvisited
  obtain ⟨hbody, hlines⟩ := methodVisits_of_error hg hheader hfailure
  have hmem := List.mem_of_getElem? hheader
  refine ⟨⟨header, hmem, hbody⟩, fun l hl hinside hlt => ?_, fun j header' hj hclosing => ?_⟩
  · obtain ⟨before, after, hsplit⟩ := List.append_of_mem hl
    obtain ⟨hnumber, hle⟩ := Source.number_bounds hsplit
    obtain ⟨header', hheader', hl'⟩ :=
      (mem_outside_or_body hg (hnumber ▸ Nat.succ_pos _) hle).resolve_left hinside
    obtain ⟨j, hj⟩ := List.getElem?_of_mem hheader'
    have hji : j ≤ i := Nat.not_lt.1 fun hij => by
      have hstart := lt_header_of_mem_body hg hheader hj hij hbody
      have hafter := (Source.mem_body.1 hl').1
      omega
    have hfound : ∃ v ∈ methodVisits source g.scopes j header', v.line = l ∧ v.Accepted := by
      rcases Nat.lt_or_eq_of_le hji with hlt' | rfl
      · obtain ⟨hall, haccepted⟩ := methodVisits_of_ok hg hj (hbefore j header' hlt' hj)
        have hin : l ∈ (methodVisits source g.scopes j header').map Visit.line := by
          rw [hall, List.mem_filter, decide_eq_true_eq]
          exact ⟨hl, hl'⟩
        obtain ⟨v, hv, rfl⟩ := List.mem_map.1 hin
        exact ⟨v, hv, rfl, haccepted v hv⟩
      · cases hheader.symm.trans hj
        exact hlines l hl hl' hlt
    obtain ⟨v, hv, hfound⟩ := hfound
    exact ⟨v, visits_of_readGlobals hg ▸ List.mem_append_right _ (hvisited j header' hji hj hv), hfound⟩
  · refine hbefore j header' (Nat.not_le.1 fun hij => ?_) hj
    have hafter := (closes_of_header hg (List.mem_of_getElem? hj)).after
    rcases Nat.lt_or_eq_of_le hij with hlt | rfl
    · have hstart := lt_header_of_mem_body hg hheader hj hlt hbody
      omega
    · cases hheader.symm.trans hj
      exact absurd hclosing (Nat.not_lt.2 (Source.mem_body.1 hbody).2)

/-- **Every line is checked once.** The lines outside of methods and the bodies of methods make up the source. A run
that accepts the source has visited each line once and accepted it. A run that rejects a method names the first line of
a method that is wrong. -/
theorem lines_checked_once (source : Source) (g : GlobalPass) (hg : (readGlobals source).outcome = .ok g) :
    Partition source g.headers ∧
      (GlobalPass.visits {} source.numberedLines).map Visit.line =
        source.numberedLines.filter (·.number ∈ source.outside) ∧
      (run source).log.filter LogEntry.isVisit = (visits source).flatMap Visit.log ∧
      (∀ report, check source = .ok report →
        ((visits source).map Visit.line).Perm source.numberedLines ∧ ∀ v ∈ visits source, v.Accepted) ∧
      ∀ r, check source = .error r → FirstFault source g r :=
  ⟨partition_of_readGlobals hg,
    (GlobalPass.visits_of_steps (List.append_nil _).symm (GlobalPass.outcome_readGlobals_eq_ok.1 hg).1).1,
    log_eq_visits source, fun _ => visits_of_ok hg, fun _ => firstFault_of_error hg⟩

/-- Two methods, and a variable declared between them. -/
theorem lines_checked_once_between_methods : ∃ (source : Source) (g : GlobalPass) (report : Report),
    (readGlobals source).outcome = .ok g ∧ g.headers = [1, 5] ∧ Partition source [1, 5] ∧
      check source = .ok report ∧ ((visits source).map Visit.line).Perm source.numberedLines := by
  let source : Source :=
    { name := "two.sjava"
      text := "void f() \x7b\n return;\n\x7d\nint g;\nvoid h() \x7b\n g = 1;\n return;\n\x7d\n" }
  let methods : SymbolTable Method := ⟨[("f", {}), ("h", {})]⟩
  let vars : SymbolTable Variable := ⟨[("g", .uninitialized .int)]⟩
  have hg : (readGlobals source).outcome = .ok ⟨.global { vars, methods }, ⟨.countOnly, 0⟩, [1, 5]⟩ := by
    decide +kernel
  have hreport : check source = .ok ⟨8, ["g"], ["f", "h"]⟩ := by decide +kernel
  obtain ⟨hpartition, -, -, haccepted, -⟩ := lines_checked_once source _ hg
  exact ⟨source, _, _, hg, rfl, hpartition, hreport, (haccepted _ hreport).1⟩

end Lines

end BlockCheck
