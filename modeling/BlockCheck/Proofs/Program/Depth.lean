import BlockCheck.Proofs.Program.NestingAgreement
import Mathlib.Data.List.Induction

/-!
# The depth of a line

How many blocks are open after some lines, told from their characters alone (`depthAfter`), and after the first lines
of a source (`Source.depth`). Both passes keep this count: the pass over the global scope for all lines
(`GlobalPass.depth_of_steps`), the pass over a method for those of the method (`MethodPass.Within.depthAfter`).

What holds after the lines that the pass over the global scope has read is shown by induction on these lines
(`GlobalPass.induction`). So it is known which lines are headers: those with which the count leaves 0
(`GlobalPass.headers_of_steps`).
-/

namespace BlockCheck

/-- The number of open blocks after some lines, when `depth` are open before them; `none` if they close one that is
not open. -/
def depthAfter (depth : Nat) (lines : List (List Char)) : Option Nat :=
  lines.foldlM (fun d line => nextDepth line d) depth

theorem depthAfter_cons {line : List Char} {lines : List (List Char)} {d : Nat} :
    depthAfter d (line :: lines) = (nextDepth line d).bind fun d' => depthAfter d' lines := List.foldlM_cons

theorem depthAfter_append {before after : List (List Char)} {d : Nat} :
    depthAfter d (before ++ after) = (depthAfter d before).bind fun d' => depthAfter d' after := List.foldlM_append

theorem depthAfter_singleton (line : List Char) (d : Nat) : depthAfter d [line] = nextDepth line d := by
  rw [depthAfter_cons]
  exact Option.bind_fun_some _

/-! ## The lines of a source by number -/

namespace Source

variable {s : Source} {before after : List NumberedLine} {line : NumberedLine}

/-- The number of blocks that are open after the first `n` lines. -/
def depth (s : Source) (n : Nat) : Option Nat := depthAfter 0 ((s.numberedLines.take n).map NumberedLine.chars)

theorem depth_zero (s : Source) : s.depth 0 = some 0 := rfl

theorem depth_of_split (h : s.numberedLines = before ++ after) :
    s.depth before.length = depthAfter 0 (before.map NumberedLine.chars) := by
  rw [depth, h, List.take_left]

theorem depth_before (h : s.numberedLines = before ++ line :: after) :
    s.depth (line.number - 1) = depthAfter 0 (before.map NumberedLine.chars) := by
  rw [(line_of_split h).1, Nat.add_sub_cancel]
  exact depth_of_split h

theorem depth_after (h : s.numberedLines = before ++ line :: after) :
    s.depth line.number = (s.depth (line.number - 1)).bind (nextDepth line.chars) := by
  have h' : s.numberedLines = (before ++ [line]) ++ after := by rw [h]; simp
  have hlength : line.number = (before ++ [line]).length := by rw [(line_of_split h).1]; simp
  conv => lhs; rw [hlength]
  rw [depth_of_split h', depth_before h, List.map_append, depthAfter_append]
  exact congrArg _ (funext fun d => depthAfter_singleton line.chars d)

/-- One more line of a source. -/
theorem take_succ {n : Nat} (hn : n < s.lineCount) :
    ∃ line, s.numberedLines.take (n + 1) = s.numberedLines.take n ++ [line] ∧
      s.numberedLines = s.numberedLines.take n ++ line :: s.numberedLines.drop (n + 1) ∧ line.number = n + 1 ∧
      s.line? (n + 1) = some line.chars := by
  have hlt : n < s.numberedLines.length := by rwa [length_numberedLines]
  have hsplit : s.numberedLines = s.numberedLines.take n ++ s.numberedLines[n] :: s.numberedLines.drop (n + 1) := by
    rw [← List.drop_eq_getElem_cons hlt, List.take_append_drop]
  obtain ⟨hnumber, hline, -⟩ := line_of_split hsplit
  rw [List.length_take, Nat.min_eq_left (Nat.le_of_lt hlt)] at hnumber
  rw [hnumber] at hline
  exact ⟨_, (List.take_append_getElem hlt).symm, hsplit, hnumber, hline⟩

/-- Every number up to that of the last line is that of a line. -/
theorem exists_split {n : Nat} (hpos : 0 < n) (hn : n ≤ s.lineCount) :
    ∃ before line after, s.numberedLines = before ++ line :: after ∧ line.number = n := by
  obtain ⟨m, rfl⟩ := Nat.exists_eq_succ_of_ne_zero (Nat.ne_of_gt hpos)
  obtain ⟨line, -, hsplit, hnumber, -⟩ := take_succ hn
  exact ⟨_, line, _, hsplit, hnumber⟩

theorem number_bounds (h : s.numberedLines = before ++ line :: after) :
    line.number = before.length + 1 ∧ line.number ≤ s.lineCount := by
  obtain ⟨hnumber, -, -⟩ := line_of_split h
  refine ⟨hnumber, ?_⟩
  rw [hnumber, ← length_numberedLines, h, List.length_append, List.length_cons]
  omega

/-- The numbers of the lines are those from 1 on. -/
theorem map_number_numberedLines (s : Source) :
    s.numberedLines.map NumberedLine.number = List.range' 1 s.lineCount := by
  rw [numberedLines, List.map_map]
  have hindices : s.lines.zipIdx.map Prod.snd = List.range' 0 s.lineCount := List.zipIdx_map_snd 0 s.lines
  have hnumber : (NumberedLine.number ∘ fun x : Line × Nat => ⟨x.2 + 1, x.1.chars⟩) = (1 + ·) ∘ Prod.snd :=
    funext fun x => Nat.add_comm x.2 1
  rw [hnumber, ← List.map_map, hindices, List.map_add_range']

end Source

/-! ## The pass over the global scope -/

namespace GlobalPass

variable {source : Source} {p p' q : GlobalPass} {line : NumberedLine} {lines before after : List NumberedLine}

/-- A step counts the braces of its line. -/
theorem nextDepth_of_step (hp : p.Coherent) (h : p.step line = .ok p') :
    nextDepth line.chars p.tracker.depth = some p'.tracker.depth := by
  obtain ⟨c, ⟨mode, d⟩, hs⟩ := p
  cases hp.mode
  cases d with
  | succ d =>
    obtain ⟨d', hd, rfl⟩ := step_inside.1 h
    exact hd
  | zero =>
    obtain ⟨p₁, hread, htrack⟩ := step_outside_eq_ok.1 h
    obtain ⟨-, kind?, c', -, -, rfl⟩ := readLine_eq_ok.1 hread
    obtain ⟨d', hd, rfl⟩ := track_eq_ok.1 htrack
    exact hd

/-- **What every line keeps holds after all lines that have been read.** -/
theorem induction {P : List NumberedLine → GlobalPass → Prop} (start : P [] {})
    (step : ∀ before line after p p', source.numberedLines = before ++ line :: after → steps {} before = .ok p →
      p.Coherent → P before p → p.step line = .ok p' → P (before ++ [line]) p')
    (hsplit : source.numberedLines = before ++ after) (h : steps {} before = .ok p) : p.Coherent ∧ P before p := by
  induction before using List.reverseRecOn generalizing after p with
  | nil =>
    cases h
    exact ⟨coherent_start, start⟩
  | append_singleton before line ih =>
    rw [List.append_assoc, List.singleton_append] at hsplit
    obtain ⟨p₁, hbefore, hlast⟩ := steps_append_eq_ok.1 h
    obtain ⟨p₂, hstep, hnil⟩ := steps_cons_eq_ok.1 hlast
    cases hnil
    obtain ⟨hcoherent, hP⟩ := ih hsplit hbefore
    have hline : '\n' ∉ line.chars := Source.newline_not_mem (s := source) (by rw [hsplit]; simp)
    exact ⟨(hcoherent.step hline hstep).1, step before line after p₁ p hsplit hbefore hcoherent hP hstep⟩

/-- The pass counts the blocks that are open. -/
theorem depth_of_steps (hsplit : source.numberedLines = before ++ after) (h : steps {} before = .ok p) :
    source.depth before.length = some p.tracker.depth := by
  rw [Source.depth_of_split hsplit]
  refine (induction (P := fun before p => depthAfter 0 (before.map NumberedLine.chars) = some p.tracker.depth) rfl
    (fun before line after p p' hsplit _ hp hdepth hstep => ?_) hsplit h).2
  rw [List.map_append, depthAfter_append, hdepth, Option.bind_some]
  exact (depthAfter_singleton _ _).trans (nextDepth_of_step hp hstep)

/-- The number of open blocks before a line that the pass comes to. -/
theorem depth_before (hsplit : source.numberedLines = before ++ line :: after) (h : steps {} before = .ok p) :
    source.depth (line.number - 1) = some p.tracker.depth := by
  rw [(Source.line_of_split hsplit).1]
  exact depth_of_steps hsplit h

/-! ### Headers -/

/-- Lines at which a method starts: no block is open before them, and one is open after them. -/
def IsHeader (source : Source) (n : Nat) : Prop := 0 < n ∧ source.depth (n - 1) = some 0 ∧ source.depth n = some 1

/-- A line is found as a header if a block is open after it and none before it. -/
theorem headers_of_step (hp : p.Coherent) (hline : '\n' ∉ line.chars) (h : p.step line = .ok p') :
    p'.headers = if p.tracker.depth = 0 ∧ p'.tracker.depth = 1 then p.headers ++ [line.number] else p.headers := by
  obtain ⟨c, ⟨mode, d⟩, hs⟩ := p
  cases hp.mode
  cases d with
  | succ d =>
    obtain ⟨d', -, rfl⟩ := step_inside.1 h
    exact (if_neg fun h => Nat.succ_ne_zero d h.1).symm
  | zero => rcases (step_outside hline).1 h with ⟨-, rfl⟩ | ⟨c', -, rfl⟩ | ⟨c', -, rfl⟩ <;> rfl

theorem isHeader_iff (hsplit : source.numberedLines = before ++ line :: after) (hbefore : steps {} before = .ok p)
    (hp : p.Coherent) (h : p.step line = .ok p') :
    IsHeader source line.number ↔ p.tracker.depth = 0 ∧ p'.tracker.depth = 1 := by
  have hdepth := depth_before hsplit hbefore
  have hpos : 0 < line.number := (Source.line_of_split hsplit).1 ▸ Nat.succ_pos _
  rw [IsHeader, Source.depth_after hsplit, hdepth, Option.bind_some, nextDepth_of_step hp h, Option.some.injEq,
    Option.some.injEq, and_iff_right hpos]

/-- The headers found so far are in order, and they are all there are up to here. -/
theorem headers_of_steps (hsplit : source.numberedLines = before ++ after) (h : steps {} before = .ok p) :
    p.headers.Pairwise (· < ·) ∧ ∀ n, n ∈ p.headers ↔ IsHeader source n ∧ n ≤ before.length := by
  refine (induction (P := fun before p => p.headers.Pairwise (· < ·) ∧
    ∀ n, n ∈ p.headers ↔ IsHeader source n ∧ n ≤ before.length) ⟨.nil, fun n => ?_⟩
    (fun before line after p p' hsplit hsteps hp hheaders hstep => ?_) hsplit h).2
  · exact ⟨fun h => (nomatch h), fun h => absurd h.1.1 (Nat.not_lt.2 h.2)⟩
  · have hline : '\n' ∉ line.chars := Source.newline_not_mem (s := source) (by rw [hsplit]; simp)
    obtain ⟨hnumber, -, -⟩ := Source.line_of_split hsplit
    obtain ⟨hordered, hmem⟩ := hheaders
    -- The headers up to this line are those before it, and perhaps its own number.
    have hupTo : ∀ n, IsHeader source n ∧ n ≤ (before ++ [line]).length ↔
        (IsHeader source n ∧ n ≤ before.length) ∨ n = line.number ∧ IsHeader source line.number := by
      intro n
      rw [List.length_append, List.length_singleton, ← hnumber]
      constructor
      · rintro ⟨h, hn⟩
        rcases Nat.lt_or_eq_of_le hn with hlt | rfl
        · exact .inl ⟨h, by omega⟩
        · exact .inr ⟨rfl, h⟩
      · rintro (⟨h, hn⟩ | ⟨rfl, h⟩)
        · exact ⟨h, by omega⟩
        · exact ⟨h, Nat.le_refl _⟩
    have hheader := isHeader_iff hsplit hsteps hp hstep
    rw [headers_of_step hp hline hstep]
    by_cases hfound : IsHeader source line.number
    · rw [if_pos (hheader.1 hfound)]
      refine ⟨List.pairwise_append.2 ⟨hordered, List.pairwise_singleton _ _, fun m hm n hn => ?_⟩, fun n => ?_⟩
      · rw [List.mem_singleton.1 hn, hnumber]
        exact Nat.lt_succ_of_le ((hmem m).1 hm).2
      · rw [List.mem_append, List.mem_singleton, hupTo, hmem, and_iff_left hfound]
    · rw [if_neg (mt hheader.2 hfound)]
      refine ⟨hordered, fun n => ?_⟩
      rw [hupTo, hmem, or_iff_left fun h => hfound h.2]

end GlobalPass

/-! ## The pass over a method -/

namespace MethodPass

variable {p q : MethodPass} {lines : List NumberedLine}

theorem Within.depthAfter (h : p.Within lines q) :
    BlockCheck.depthAfter p.tracker.depth (lines.map NumberedLine.chars) = some q.tracker.depth := by
  induction h with
  | nil => rfl
  | cons hstep _ _ ih => rw [List.map_cons, depthAfter_cons, nextDepth_of_step hstep, Option.bind_some, ih]

end MethodPass

end BlockCheck
