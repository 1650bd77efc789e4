import BlockCheck.Proofs.Program.FirstImbalance
import BlockCheck.Proofs.Program.RejectionPlaces
import BlockCheck.Proofs.SideBySide

/-!
# Programs that correspond line by line

Two programs are compared whose lines correspond: lines that are checked alike stand in the same order, and the second
program may have blank lines between them (`Corresponds`). A line of the first program has another number in the second
one, which a function gives. Both passes go through the two programs side by side (`GlobalPass.run_matched`,
`MethodPass.run_matched`): after corresponding lines they are in the same state, the numbers of the headers apart. So
the verdicts are the same, and a fault is reported on the corresponding line (`check_matched`). One fault is not on a
line of its own: braces that are still open at the end are reported on the last line, whatever its number. Where no
blank lines are added, every fault stays on its line (`check_matched_of_lines`).
-/

namespace BlockCheck

/-! ## Lines that stand for others -/

/-- The second line may stand for the first: the same braces count in them, and they are checked with the same result,
except that faults may differ as `E` allows. -/
structure Interchangeable (E : LineFault → LineFault → Prop) (line line' : List Char) : Prop where
  opens : opensBlock line' = opensBlock line
  closes : closesBlock line' = closesBlock line
  checks : ∀ (c : ScopeChain) (placement : Placement),
    Matched E (· = ·) (c.checkLineAt placement line) (c.checkLineAt placement line')

theorem Interchangeable.refl {E : LineFault → LineFault → Prop} (hE : ∀ f, E f f) (line : List Char) :
    Interchangeable E line line :=
  ⟨rfl, rfl, fun _ _ => .refl hE _⟩

/-- The lines of the second list are those of the first, with other numbers, and blank lines between them. -/
inductive Corresponds (E : LineFault → LineFault → Prop) (num : Nat → Nat) :
    List NumberedLine → List NumberedLine → Prop
  | nil : Corresponds E num [] []
  | line {l l' : NumberedLine} {ls ls' : List NumberedLine} : Interchangeable E l.chars l'.chars →
      l'.number = num l.number → Corresponds E num ls ls' → Corresponds E num (l :: ls) (l' :: ls')
  | blank {l' : NumberedLine} {ls ls' : List NumberedLine} : isBlankLine l'.chars = true → Corresponds E num ls ls' →
      Corresponds E num ls (l' :: ls')

namespace Corresponds

variable {E : LineFault → LineFault → Prop} {num : Nat → Nat} {ls ls' ks ks' before after : List NumberedLine}
  {l : NumberedLine}

theorem append (h : Corresponds E num ls ls') (h' : Corresponds E num ks ks') :
    Corresponds E num (ls ++ ks) (ls' ++ ks') := by
  induction h with
  | nil => exact h'
  | line hline hnumber _ ih => exact .line hline hnumber ih
  | blank hblank _ ih => exact .blank hblank ih

/-- Every line of the first list has a counterpart, and what follows them corresponds. -/
theorem split (h : Corresponds E num (before ++ l :: after) ls') : ∃ before' l' after', ls' = before' ++ l' :: after' ∧
    Interchangeable E l.chars l'.chars ∧ l'.number = num l.number ∧ Corresponds E num after after' := by
  generalize hls : before ++ l :: after = ls at h
  induction h generalizing before with
  | nil => cases before <;> cases hls
  | @line k k' ks ks' hline hnumber hrest ih =>
    cases before with
    | nil =>
      cases hls
      exact ⟨[], k', ks', rfl, hline, hnumber, hrest⟩
    | cons first before =>
      cases hls
      obtain ⟨before', l', after', rfl, hfound⟩ := ih rfl
      exact ⟨k' :: before', l', after', rfl, hfound⟩
  | @blank k' ks ks' _ _ ih =>
    obtain ⟨before', l', after', rfl, hfound⟩ := ih hls
    exact ⟨k' :: before', l', after', rfl, hfound⟩

end Corresponds

/-- Lines with their numbers, from the given one on. -/
def numberFrom (n : Nat) : List (List Char) → List NumberedLine
  | [] => []
  | line :: lines => ⟨n, line⟩ :: numberFrom (n + 1) lines

theorem numberFrom_append (n : Nat) (lines lines' : List (List Char)) :
    numberFrom n (lines ++ lines') = numberFrom n lines ++ numberFrom (n + lines.length) lines' := by
  induction lines generalizing n with
  | nil => rfl
  | cons line lines ih =>
    rw [List.cons_append, numberFrom, ih, List.length_cons, Nat.add_right_comm, Nat.add_assoc n]
    rfl

theorem Source.numberedLines_eq (s : Source) : s.numberedLines = numberFrom 1 (s.lines.map Line.chars) := by
  have hfrom : ∀ (ls : List Line) (k : Nat), (ls.zipIdx k).map (fun p => NumberedLine.mk (p.2 + 1) p.1.chars) =
      numberFrom (k + 1) (ls.map Line.chars) := by
    intro ls
    induction ls with
    | nil => exact fun _ => rfl
    | cons l ls ih => exact fun k => congrArg _ (ih (k + 1))
  exact hfrom s.lines 0

/-- Lines that correspond one by one, when all of them have moved by the same distance. -/
theorem corresponds_numberFrom {E : LineFault → LineFault → Prop} {num : Nat → Nat} {lines lines' : List (List Char)}
    {n d : Nat} (h : List.Forall₂ (Interchangeable E) lines lines')
    (hnum : ∀ k, n ≤ k → k < n + lines.length → num k = k + d) :
    Corresponds E num (numberFrom n lines) (numberFrom (n + d) lines') := by
  induction h generalizing n with
  | nil => exact .nil
  | @cons line line' lines lines' hline _ ih =>
    rw [List.length_cons] at hnum
    have hrest := ih (n := n + 1) fun k hk hk' => hnum k (by omega) (by omega)
    rw [Nat.add_right_comm] at hrest
    exact .line hline (hnum n (Nat.le_refl n) (by omega)).symm hrest

/-! ## The pass over the global scope -/

section Passes

variable {E : LineFault → LineFault → Prop} {num : Nat → Nat} {source source' : Source}
  {lines lines' : List NumberedLine}

/-- The second rejection is for a fault on the line with the given number, the first one for a fault like it on its
line. -/
def Rejection.Moved (E : LineFault → LineFault → Prop) (place : Nat → Nat) (source source' : Source)
    (r r' : Rejection) : Prop :=
  ∃ n f f', E f f' ∧ r = .on source n f ∧ r' = .on source' (place n) f'

theorem Rejection.moved_of_fault {n n' : Nat} (hn : n' = num n) {f f' : LineFault} (h : E f f') :
    Moved E num source source' (.on source n f) (.on source' n' f') :=
  ⟨n, f, f', h, rfl, hn ▸ rfl⟩

theorem Tracker.accept_of_interchangeable {line line' : List Char} (h : Interchangeable E line line') (t : Tracker)
    (c : ScopeChain) : t.accept line' c = t.accept line c := by
  rw [accept, h.opens, h.closes]
  rfl

namespace GlobalPass

/-- The same state for other line numbers. -/
def renumbered (num : Nat → Nat) (p : GlobalPass) : GlobalPass := { p with headers := p.headers.map num }

variable {l l' : NumberedLine}

theorem track_renumbered (h : Interchangeable E l.chars l'.chars) (p : GlobalPass) :
    (p.renumbered num).track l' = (p.track l).map (renumbered num) := by
  have haccept := Tracker.accept_of_interchangeable h p.tracker p.scopes
  unfold track
  rw [show (p.renumbered num).tracker.accept l'.chars (p.renumbered num).scopes = _ from haccept]
  cases p.tracker.accept l.chars p.scopes <;> rfl

theorem readLine_matched (hE : ∀ f, E f f) (h : Interchangeable E l.chars l'.chars) (hnumber : l'.number = num l.number)
    (p : GlobalPass) :
    Matched E (fun q q' => q' = q.renumbered num) (p.readLine l) ((p.renumbered num).readLine l') := by
  have hchecks := h.checks p.scopes .global
  unfold readLine
  rw [h.closes]
  split
  · exact hE _
  · rw [show (p.renumbered num).scopes = p.scopes from rfl]
    cases hl : p.scopes.checkLineAt .global l.chars <;> cases hl' : p.scopes.checkLineAt .global l'.chars <;>
      rw [hl, hl'] at hchecks
    · exact hchecks
    · exact hchecks.elim
    · exact hchecks.elim
    · next checked checked' =>
      obtain rfl : checked = checked' := hchecks
      obtain ⟨kind?, c⟩ := checked
      show GlobalPass.mk c p.tracker _ = GlobalPass.mk c p.tracker _
      split
      · rw [List.map_append, hnumber]
        rfl
      · rfl

/-- Interchangeable lines are taken into account alike. -/
theorem step_matched (hE : ∀ f, E f f) (h : Interchangeable E l.chars l'.chars) (hnumber : l'.number = num l.number)
    (p : GlobalPass) : Matched E (fun q q' => q' = q.renumbered num) (p.step l) ((p.renumbered num).step l') := by
  have htrack : ∀ p : GlobalPass,
      Matched E (fun q q' => q' = q.renumbered num) (p.track l) ((p.renumbered num).track l') := fun p => by
    rw [track_renumbered h]
    exact .map hE _ _
  have hread : Matched E (fun q q' => q' = q.renumbered num) (if p.tracker.isGlobal then p.readLine l else .ok p)
      (if p.tracker.isGlobal then (p.renumbered num).readLine l' else .ok (p.renumbered num)) := by
    split
    · exact readLine_matched hE h hnumber p
    · exact rfl
  refine hread.bind ?_
  rintro q _ rfl
  exact htrack q

/-- **The first pass goes alike through corresponding lines.** -/
theorem run_matched (hE : ∀ f, E f f) (h : Corresponds E num lines lines') (p : GlobalPass) :
    Matched (Rejection.Moved E num source source') (fun q q' => q' = q.renumbered num) (run source p lines).outcome
      (run source' (p.renumbered num) lines').outcome := by
  induction h generalizing p with
  | nil => exact rfl
  | @line l l' ls ls' hline hnumber _ ih =>
    rw [outcome_run_cons, outcome_run_cons]
    refine ((step_matched hE hline hnumber p).mapError fun f f' hf => Rejection.moved_of_fault hnumber hf).bind ?_
    rintro q _ rfl
    exact ih q
  | @blank l' ls ls' hblank _ ih =>
    rw [outcome_run_cons, step_of_blank hblank]
    exact ih p

end GlobalPass

/-! ## The pass over a method -/

namespace MethodPass

variable {line line' : List Char}

theorem track_of_interchangeable (h : Interchangeable E line line') (p : MethodPass) :
    p.track line' = p.track line := by
  unfold track
  rw [Tracker.accept_of_interchangeable h]

theorem readLine_matched (h : Interchangeable E line line') (p : MethodPass) :
    Matched E (· = ·) (p.readLine line) (p.readLine line') := by
  have hchecks := h.checks p.scopes .methodBody
  unfold readLine
  cases hl : p.scopes.checkLineAt .methodBody line <;> cases hl' : p.scopes.checkLineAt .methodBody line' <;>
    rw [hl, hl'] at hchecks
  · exact hchecks
  · exact hchecks.elim
  · exact hchecks.elim
  · next checked checked' =>
    obtain rfl : checked = checked' := hchecks
    obtain ⟨_ | kind, c⟩ := checked <;> rfl

/-- Interchangeable lines are taken into account alike. -/
theorem step_matched (hE : ∀ f, E f f) (h : Interchangeable E line line') (p : MethodPass) :
    Matched E (· = ·) (p.step line) (p.step line') := by
  show Matched E _ ((p.track line).bind _) ((p.track line').bind _)
  rw [track_of_interchangeable h]
  refine (Matched.refl hE _).bind ?_
  rintro q _ rfl
  exact readLine_matched h q

/-- **The second pass goes alike through corresponding lines** of a method. -/
theorem run_matched (hE : ∀ f, E f f) (h : Corresponds E num lines lines') (p : MethodPass)
    (hinside : p.tracker.isGlobal = false) :
    Matched (Rejection.Moved E num source source') (fun x x' => x' = x.map fun e => (num e.1, e.2))
      (run source p lines).outcome (run source' p lines').outcome := by
  induction h generalizing p with
  | nil => exact rfl
  | @line l l' ls ls' hline hnumber _ ih =>
    rw [outcome_run_cons, outcome_run_cons]
    refine ((step_matched hE hline p).mapError fun f f' hf => Rejection.moved_of_fault hnumber hf).bind ?_
    rintro q _ rfl
    cases hq : q.tracker.isGlobal with
    | true =>
      show some (l'.number, q) = some (num l.number, q)
      rw [hnumber]
    | false => exact ih q hq
  | @blank l' ls ls' hblank _ ih =>
    rw [outcome_run_cons, step_of_blank hblank]
    show Matched _ _ _ (if p.tracker.isGlobal then _ else _)
    rw [hinside]
    exact ih p hinside

theorem enter_of_interchangeable (h : Interchangeable E line line') (p : MethodPass) (name : String) (m : Method) :
    p.enter line' name m = p.enter line name m := by
  unfold enter
  rw [track_of_interchangeable h]

end MethodPass

/-- **A method is right in both programs or in neither.** -/
theorem checkMethod_matched (hE : ∀ f, E f f) (h : Corresponds E num source.numberedLines source'.numberedLines)
    {g : GlobalPass} {ordinal n : Nat} (hg : (readGlobals source).outcome = .ok g)
    (hn : g.headers[ordinal]? = some n) :
    Matched (Rejection.Moved E num source source') (fun _ _ => True) (checkMethod source g.scopes ordinal n).outcome
      (checkMethod source' g.scopes ordinal (num n)).outcome := by
  obtain ⟨p, ⟨⟨name, m, header, hmethod, hheader, henter, -⟩, htracker⟩, hstep⟩ := startsAt_of_header hg hn
  have hinside : p.tracker.isGlobal = false := by rw [htracker]; rfl
  -- The header has its counterpart in the second program, and the lines after both correspond.
  obtain ⟨before, line, after, hsplit, rfl⟩ : ∃ before line after,
      source.numberedLines = before ++ line :: after ∧ line.number = n := by
    have hheaders := (GlobalPass.headers_of_steps (List.append_nil _).symm
      (GlobalPass.outcome_readGlobals_eq_ok.1 hg).1).2 n
    obtain ⟨⟨hpos, -, -⟩, hle⟩ := hheaders.1 (List.mem_of_getElem? hn)
    exact Source.exists_split hpos (by rwa [← Source.length_numberedLines])
  rw [hsplit] at h
  obtain ⟨before', line', after', hsplit', hline, hnumber, hafter⟩ := h.split
  obtain ⟨-, hchars, hfrom⟩ := Source.line_of_split hsplit
  obtain ⟨-, hchars', hfrom'⟩ := Source.line_of_split hsplit'
  cases hheader.symm.trans hchars
  have henter' : MethodPass.enter { scopes := g.scopes.restart } line'.chars name m = .ok p := by
    rw [MethodPass.enter_of_interchangeable hline]
    exact henter
  have hrun : Matched (Rejection.Moved E num source source') _ (p.run source after).outcome
      (p.run source' after').outcome := MethodPass.run_matched hE hafter p hinside
  have hclosed : (p.run source after).outcome ≠ .ok none := by
    rw [← hfrom]
    rcases hstep.closed with ⟨_, _, hend, -⟩ | ⟨_, _, _, _, _, _, -, -, -, -, -, hend⟩ <;> rw [hend] <;> exact nofun
  rw [← hnumber, outcome_checkMethod hmethod hchars henter, outcome_checkMethod hmethod hchars' henter', hfrom, hfrom']
  cases hx : (p.run source after).outcome <;> cases hx' : (p.run source' after').outcome <;> rw [hx, hx'] at hrun
  · exact hrun
  · exact hrun.elim
  · exact hrun.elim
  · next end? end?' =>
    obtain rfl : end?' = _ := hrun
    cases end? with
    | none => exact absurd hx hclosed
    | some closing =>
      obtain ⟨closing, q⟩ := closing
      show Matched _ _ (if q.endsWithReturn then _ else _) (if q.endsWithReturn then _ else _)
      split
      · exact trivial
      · exact Rejection.moved_of_fault rfl (hE _)

/-! ## Both passes -/

theorem checkMethods_matched {globals : ScopeChain} {ordinal : Nat} {declarations : List Nat}
    (h : ∀ i n, declarations[i]? = some n →
      Matched (Rejection.Moved E num source source') (fun _ _ => True)
        (checkMethod source globals (ordinal + i) n).outcome
        (checkMethod source' globals (ordinal + i) (num n)).outcome) :
    Matched (Rejection.Moved E num source source') (fun _ _ => True)
      (checkMethods source globals ordinal declarations).outcome
      (checkMethods source' globals ordinal (declarations.map num)).outcome := by
  induction declarations generalizing ordinal with
  | nil => exact trivial
  | cons declaration declarations ih =>
    rw [List.map_cons, outcome_checkMethods_cons, outcome_checkMethods_cons]
    refine (h 0 declaration rfl).bind fun _ _ _ => ih fun i n hn => ?_
    have hi := h (i + 1) n hn
    rwa [Nat.add_comm i, ← Nat.add_assoc] at hi

section End

variable {g : GlobalPass} {r : Rejection}

theorem readGlobals_of_run_error (h : (GlobalPass.run source {} source.numberedLines).outcome = .error r) :
    (readGlobals source).outcome = .error r := by
  rw [GlobalPass.outcome_readGlobals, h]
  rfl

theorem readGlobals_of_open (h : (GlobalPass.run source {} source.numberedLines).outcome = .ok g)
    (hopen : g.tracker.isGlobal = false) :
    (readGlobals source).outcome = .error (.on source source.lineCount (.ofBlock .mismatchedBraces)) := by
  rw [GlobalPass.outcome_readGlobals, h]
  exact if_neg (by rw [hopen]; exact Bool.false_ne_true)

theorem readGlobals_of_closed (h : (GlobalPass.run source {} source.numberedLines).outcome = .ok g)
    (hclosed : g.tracker.isGlobal = true) : (readGlobals source).outcome = .ok g := by
  rw [GlobalPass.outcome_readGlobals, h]
  exact if_pos hclosed

end End

/-- The first pass comes to the end of the source, and a block is open there. -/
def endsOpen (source : Source) : Bool :=
  match (GlobalPass.run source {} source.numberedLines).outcome with
  | .ok p => !p.tracker.isGlobal
  | .error _ => false

/-- Then the program is rejected on its last line. -/
theorem check_of_endsOpen (h : endsOpen source = true) :
    check source = .error (.on source source.lineCount (.ofBlock .mismatchedBraces)) := by
  unfold endsOpen at h
  split at h
  · next g hrun => exact check_of_readGlobals_error (readGlobals_of_open hrun (Bool.not_eq_true' _ ▸ h))
  · cases h

/-- The number of the line in the second source that a fault on line `n` of the first source is reported on. -/
def placeIn (source source' : Source) (num : Nat → Nat) (n : Nat) : Nat :=
  if endsOpen source then source'.lineCount else num n

theorem placeIn_of_closed (h : endsOpen source = false) : placeIn source source' num = num := by
  funext n
  rw [placeIn, h]
  rfl

/-- **Programs that correspond line by line have the same verdict.** -/
theorem check_matched (hE : ∀ f, E f f) (h : Corresponds E num source.numberedLines source'.numberedLines) :
    Matched (Rejection.Moved E (placeIn source source' num) source source')
      (fun report report' => report' = { report with lines := source'.lineCount }) (check source) (check source') := by
  have hrun : Matched (Rejection.Moved E num source source') _
      (GlobalPass.run source {} source.numberedLines).outcome
      (GlobalPass.run source' {} source'.numberedLines).outcome := GlobalPass.run_matched hE h {}
  cases hx : (GlobalPass.run source {} source.numberedLines).outcome <;>
    cases hx' : (GlobalPass.run source' {} source'.numberedLines).outcome <;> rw [hx, hx'] at hrun
  · next r r' =>
    have hclosed : endsOpen source = false := by rw [endsOpen, hx]
    rw [check_of_readGlobals_error (readGlobals_of_run_error hx),
      check_of_readGlobals_error (readGlobals_of_run_error hx'), placeIn_of_closed hclosed]
    exact hrun
  · exact hrun.elim
  · exact hrun.elim
  · next g g' =>
    obtain rfl : g' = g.renumbered num := hrun
    have hends : endsOpen source = !g.tracker.isGlobal := by rw [endsOpen, hx]
    cases hglobal : g.tracker.isGlobal with
    | false =>
      -- Both programs end with an open block, each on its own last line.
      rw [hglobal] at hends
      have hplace : source'.lineCount = placeIn source source' num source.lineCount := (if_pos hends).symm
      rw [check_of_readGlobals_error (readGlobals_of_open hx hglobal),
        check_of_readGlobals_error (readGlobals_of_open hx' hglobal)]
      exact Rejection.moved_of_fault hplace (hE _)
    | true =>
      rw [hglobal] at hends
      have hg := readGlobals_of_closed hx hglobal
      rw [check_eq, check_eq, hg, readGlobals_of_closed hx' hglobal, placeIn_of_closed hends]
      refine (checkMethods_matched fun i n hn => ?_).bind fun _ _ _ => rfl
      rw [Nat.zero_add]
      exact checkMethod_matched hE h hg hn

/-- If corresponding lines are checked with the same faults, the second verdict is computed from the first. -/
theorem check_eq_of_corresponds (h : Corresponds (· = ·) num source.numberedLines source'.numberedLines) :
    check source' = ((check source).map fun report => { report with lines := source'.lineCount }).mapError
      fun r => .on source' (placeIn source source' num r.line) r.cause := by
  refine ((check_matched (fun _ => rfl) h).weaken ?_ fun _ _ => id).eq_map
  rintro _ _ ⟨n, f, _, rfl, rfl, rfl⟩
  rfl

/-- A rejection is for a fault on a line of the source. -/
theorem exists_line_of_check {r : Rejection} (h : check source = .error r) :
    ∃ line ∈ source.numberedLines, ∃ f : LineFault, r = .on source line.number f := by
  rcases check_eq_error h with hread | ⟨g, i, n, hg, hn, hmethod⟩
  · obtain ⟨line, hmem, f, rfl, -⟩ := line_of_readGlobals hread
    exact ⟨line, hmem, f, rfl⟩
  · obtain ⟨line, hmem, f, rfl, -⟩ := line_of_checkMethod hg hn hmethod
    exact ⟨line, hmem, f, rfl⟩

/-- **Programs whose lines correspond one by one** have equal reports, or are rejected on the same line. -/
theorem check_matched_of_lines (hE : ∀ f, E f f)
    (h : List.Forall₂ (Interchangeable E) (source.lines.map Line.chars) (source'.lines.map Line.chars)) :
    Matched (fun r r' => ∃ line ∈ source.numberedLines, ∃ f f', E f f' ∧ r = .on source line.number f ∧
      r' = .on source' line.number f') (· = ·) (check source) (check source') := by
  have hcount : source'.lineCount = source.lineCount := by
    have hlength := h.length_eq
    rw [List.length_map, List.length_map] at hlength
    exact hlength.symm
  have hcorresponds : Corresponds E id source.numberedLines source'.numberedLines := by
    rw [Source.numberedLines_eq, Source.numberedLines_eq]
    exact corresponds_numberFrom (d := 0) h fun _ _ _ => rfl
  have hmatched := check_matched hE hcorresponds
  cases hcheck : check source <;> cases hcheck' : check source' <;> rw [hcheck, hcheck'] at hmatched
  · next r r' =>
    obtain ⟨line, hline, _, rfl⟩ := exists_line_of_check hcheck
    obtain ⟨n, f, f', hf, hr, rfl⟩ := hmatched
    obtain rfl : line.number = n := congrArg Rejection.line hr
    have hplace : placeIn source source' id line.number = line.number := by
      unfold placeIn
      split
      · next hopen =>
        -- Open braces at the end are reported on the last line, which has the same number.
        have hlast := Except.error.inj (hcheck.symm.trans (check_of_endsOpen hopen))
        exact hcount.trans (congrArg Rejection.line hlast).symm
      · rfl
    rw [hplace]
    exact ⟨line, hline, f, f', hf, hr, rfl⟩
  · exact hmatched.elim
  · exact hmatched.elim
  · next report report' =>
    obtain ⟨g, -, -, rfl⟩ := check_eq_ok.1 hcheck
    obtain rfl : report' = _ := hmatched
    rw [hcount]
    rfl

end Passes

end BlockCheck
