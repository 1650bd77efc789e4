import BlockCheck.Proofs.Program.BlockVerdict
import BlockCheck.Proofs.Program.Depth

/-!
# Balanced lines

Lines are balanced if they close exactly the blocks that they open (`Balanced`), and whole if in addition no proper
part at their beginning is balanced (`Whole`). The lines of an item that passes its checks are whole (`Item.whole`).
So balanced lines at the beginning of a program are those of its first items (`split_of_balanced`), and whole ones are
those of one item (`eq_singleton_of_whole`).
-/

namespace BlockCheck

/-- The lines close the blocks that they open and no others. -/
def Balanced (lines : List (List Char)) : Prop := depthAfter 0 lines = some 0

instance (lines : List (List Char)) : Decidable (Balanced lines) :=
  inferInstanceAs (Decidable (depthAfter 0 lines = some 0))

/-- The lines are balanced, and no proper part at their beginning is. -/
structure Whole (lines : List (List Char)) : Prop where
  nonempty : lines ≠ []
  balanced : Balanced lines
  first : ∀ n < lines.length, 0 < n → ¬ Balanced (lines.take n)

theorem Balanced.append {front back : List (List Char)} (hfront : Balanced front) (hback : Balanced back) :
    Balanced (front ++ back) := by
  rw [Balanced, depthAfter_append, hfront, Option.bind_some]
  exact hback

theorem Balanced.of_append {front back : List (List Char)} (h : Balanced (front ++ back)) (hfront : Balanced front) :
    Balanced back := by
  rw [Balanced, depthAfter_append, hfront, Option.bind_some] at h
  exact h

/-- Of whole lines a balanced part at the beginning is nothing or all. -/
theorem Whole.eq_nil_or_eq_nil {before after : List (List Char)} (h : Whole (before ++ after))
    (hbefore : Balanced before) : before = [] ∨ after = [] := by
  by_contra hparts
  rw [not_or] at hparts
  have hafter := List.length_pos_iff.2 hparts.2
  refine h.first before.length ?_ (List.length_pos_iff.2 hparts.1) (by rwa [List.take_left])
  rw [List.length_append]
  omega

/-! ## Items -/

theorem whole_singleton {line : List Char} (h : nextDepth line 0 = some 0) : Whole [line] where
  nonempty := List.cons_ne_nil _ _
  balanced := (depthAfter_singleton line 0).trans h
  first n hn hpos := by
    rw [List.length_singleton] at hn
    omega

/-- The lines of a method are whole: its first line opens a block, and its last one is the first to leave it. -/
theorem whole_of_within {header : List Char} {p p' q : MethodPass} {before : List NumberedLine} {line : NumberedLine}
    (hopens : opensBlock header = true) (hdepth : p.tracker.depth = 1) (h : p.Within before p')
    (hstep : p'.step line.chars = .ok q) (hq : q.tracker.depth = 0) :
    Whole (header :: (before ++ [line]).map NumberedLine.chars) := by
  have hinner : ∀ lines, depthAfter 0 (header :: lines) = depthAfter p.tracker.depth lines := fun lines => by
    rw [depthAfter_cons, nextDepth_of_opens hopens, Option.bind_some, hdepth]
  have hinside : p.tracker.isGlobal = false := Bool.eq_false_iff.2 fun hglobal => by
    rw [Tracker.isGlobal_iff.1 hglobal] at hdepth
    cases hdepth
  refine ⟨List.cons_ne_nil _ _, ?_, fun n hn hpos hbalanced => ?_⟩
  · rw [Balanced, hinner, List.map_append, depthAfter_append, h.depthAfter, Option.bind_some, List.map_singleton,
      depthAfter_singleton, MethodPass.nextDepth_of_step hstep, hq]
  · -- The first `n` lines end before the last one, so they end inside of the method.
    obtain ⟨k, rfl⟩ := Nat.exists_eq_succ_of_ne_zero (Nat.pos_iff_ne_zero.1 hpos)
    have hk : k ≤ before.length := by
      rw [List.length_cons, List.length_map, List.length_append, List.length_singleton] at hn
      omega
    obtain ⟨r, hwithin, -⟩ := ((before.take_append_drop k).symm ▸ h).split
    rw [Balanced, List.take_succ_cons, hinner, ← List.map_take, List.take_append_of_le_length hk,
      hwithin.depthAfter] at hbalanced
    have hglobal := hwithin.inside hinside
    rw [Tracker.isGlobal_iff.2 (Option.some.inj hbalanced)] at hglobal
    cases hglobal

/-- An item is a line without braces, or a method, whose first line opens a block. -/
theorem Item.line_or_method {item : Item} {c c' : ScopeChain} (hdeclare : item.declare c = some c')
    (hlines : ∀ line ∈ item.lines, '\n' ∉ line) :
    (∃ line, item.lines = [line] ∧ opensBlock line = false ∧ closesBlock line = false) ∨
      ∃ t, item = .method t ∧ opensBlock t.header = true := by
  cases item with
  | blank line =>
    obtain ⟨hblank, -⟩ := Option.ite_none_right_eq_some.1 hdeclare
    have hline := ScopeChain.checkLine_eq_ok_none.2 ⟨hblank, rfl (a := c)⟩
    exact .inl ⟨line, rfl, ScopeChain.no_braces_of_checkLine (hlines line List.mem_cons_self) hline (by decide)⟩
  | global line =>
    obtain ⟨kind, hkind, hline⟩ := ScopeChain.takeLine_eq_some.1 hdeclare
    exact .inl ⟨line, rfl, ScopeChain.no_braces_of_checkLine (hlines line List.mem_cons_self) hline
      (GlobalPass.not_brace_of_variables hkind)⟩
  | method t =>
    have hheader : '\n' ∉ t.header := hlines t.header List.mem_cons_self
    have htake := ScopeChain.takeLine_singleton_eq_some.1 hdeclare
    exact .inr ⟨t, rfl, (ScopeChain.opensBlock_iff_of_checkLine hheader htake).2 (.inl rfl)⟩

/-- **The lines of an item are whole.** -/
theorem Item.whole {item : Item} {c c' globals : ScopeChain} (hdeclare : item.declare c = some c')
    (hcheck : item.check globals = true) (hlines : ∀ line ∈ item.lines, '\n' ∉ line) : Whole item.lines := by
  rcases Item.line_or_method hdeclare hlines with ⟨line, hline, hopens, hcloses⟩ | ⟨t, rfl, hopens⟩
  · rw [hline]
    exact whole_singleton (nextDepth_of_plain hopens hcloses 0)
  · obtain ⟨-, hinside⟩ := List.forall_mem_cons.1 hlines
    -- The check of the method does not depend on the numbers of its lines.
    let numbered : List NumberedLine := (t.body.lines ++ t.finish :: (t.blanks ++ [t.close])).map (NumberedLine.mk 0)
    have hchars : numbered.map NumberedLine.chars = t.body.lines ++ t.finish :: (t.blanks ++ [t.close]) := by
      rw [List.map_map]
      exact List.map_id _
    have hnewline : ∀ l ∈ numbered, '\n' ∉ l.chars := fun l hl => by
      obtain ⟨line, hline, rfl⟩ := List.mem_map.1 hl
      exact hinside line hline
    obtain ⟨m, before, line, p, q, -, hsplit, hwithin, hstep, hq, -⟩ := run_of_method hcheck hchars hnewline
    have hwhole := whole_of_within hopens rfl hwithin hstep hq
    rw [← hsplit, hchars] at hwhole
    exact hwhole

/-! ## Splitting a program -/

variable {items : List Item} {front back lines : List (List Char)}

/-- **Balanced lines at the beginning are those of the first items.** -/
theorem split_of_balanced (hitems : ∀ item ∈ items, Whole item.lines)
    (hlines : items.flatMap Item.lines = front ++ back) (hfront : Balanced front) :
    ∃ first rest, items = first ++ rest ∧ first.flatMap Item.lines = front ∧ rest.flatMap Item.lines = back := by
  induction items generalizing front with
  | nil =>
    obtain ⟨rfl, rfl⟩ := List.append_eq_nil_iff.1 hlines.symm
    exact ⟨[], [], rfl, rfl, rfl⟩
  | cons item items ih =>
    obtain ⟨hitem, hitems⟩ := List.forall_mem_cons.1 hitems
    rw [List.flatMap_cons] at hlines
    rcases List.append_eq_append_iff.1 hlines with ⟨more, rfl, hrest⟩ | ⟨more, hmore, rfl⟩
    · obtain ⟨first, rest, rfl, rfl, rfl⟩ := ih hitems hrest (hfront.of_append hitem.balanced)
      exact ⟨item :: first, rest, rfl, rfl, rfl⟩
    · rcases (hmore ▸ hitem : Whole (front ++ more)).eq_nil_or_eq_nil hfront with rfl | rfl
      · exact ⟨[], item :: items, rfl, rfl, by rw [List.flatMap_cons, hmore]; rfl⟩
      · rw [List.append_nil] at hmore
        exact ⟨[item], items, rfl, by rw [List.flatMap_singleton, hmore], rfl⟩

/-- **Whole lines are those of one item.** -/
theorem eq_singleton_of_whole (hitems : ∀ item ∈ items, Whole item.lines) (hlines : items.flatMap Item.lines = lines)
    (hwhole : Whole lines) : ∃ item, items = [item] ∧ item.lines = lines := by
  cases items with
  | nil => exact absurd hlines.symm hwhole.nonempty
  | cons item items =>
    obtain ⟨hitem, hitems⟩ := List.forall_mem_cons.1 hitems
    rw [List.flatMap_cons] at hlines
    rcases (hlines ▸ hwhole).eq_nil_or_eq_nil hitem.balanced with hnil | hnil
    · exact absurd hnil hitem.nonempty
    · cases items with
      | nil => exact ⟨item, rfl, by rwa [List.flatMap_nil, List.append_nil] at hlines⟩
      | cons other items =>
        obtain ⟨hother, -⟩ := List.append_eq_nil_iff.1 hnil
        exact absurd hother (hitems other List.mem_cons_self).nonempty

end BlockCheck
